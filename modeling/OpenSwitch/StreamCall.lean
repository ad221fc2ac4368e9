import OpenSwitch.MediaStreams
import OpenSwitch.ProtoFrame
import OpenSwitch.RpcStream
import OpenSwitch.StreamClient
/-!
# StreamCall — the life of a media stream (`stream_client.cc`)

`Open` makes the gRPC stream, runs the handshake on a thread of its own under a deadline, and starts a reader and a
writer; `Close` closes the send ring, waits for both, cancels a peer that does not answer, and drops the stream and then
its context.  All of them share one stream object, and gRPC has rules for it (`RpcStream`).  Here the threads, the
deadline, the drain timeout and the answers of the peer come in any order.

The rules are kept as long as `Close` is not called in the two steps of `Open` that start the threads
(`StreamCall.Inv.step`).  What the invariant says about each phase also gives what the peer was sent, which callbacks ran
and what the statuses were.
-/
namespace Osw
namespace Media

open RpcStream (Op Sends Reads Objects Leads sent received statuses)

/-! ## Messages -/

/-- `grpc::StatusCode` -/
inductive GrpcCode
  | ok
  | cancelled
  | unknown
  | invalidArgument
  | deadlineExceeded
  | notFound
  | alreadyExists
  | permissionDenied
  | resourceExhausted
  | failedPrecondition
  | aborted
  | outOfRange
  | unimplemented
  | internal
  | unavailable
  | dataLoss
  | unauthenticated
  deriving DecidableEq, Repr

structure GrpcStatus where
  code    : GrpcCode
  message : Bytes
  deriving DecidableEq, Repr

inductive AudioCodec
  | unspecified
  | pcmS16le
  | g711Ulaw
  | g711Alaw
  | opus
  deriving DecidableEq, Repr

inductive CallerSide
  | unspecified
  | callerMic
  | callerEar
  | bothMixed
  | stereo
  deriving DecidableEq, Repr

structure StreamStart where
  channelUuid  : Bytes
  tenantId     : Bytes
  purpose      : Control.StreamPurpose
  sampleRateHz : Nat
  channels     : Nat
  codec        : AudioCodec
  vars         : List (Bytes × Bytes)
  startMessage : Bytes
  side         : CallerSide
  traceparent  : Bytes
  deriving DecidableEq, Repr

/-- `StreamConfig`: the first message, and whether it is the only one. -/
structure StreamConfig where
  start                     : StreamStart
  halfCloseWritesAfterStart : Bool
  deriving DecidableEq, Repr

inductive FromModule
  | start (m : StreamStart)
  | msg (m : UpstreamMsg)
  deriving DecidableEq, Repr

inductive FromService
  | ready (m : StreamReady)
  | audio (m : AudioFrameProto)
  | control (m : Bytes)
  | transcript (m : Bytes)
  | amd (m : Bytes)
  | vars (m : List (Bytes × Bytes))
  | notSet
  deriving DecidableEq, Repr

/-- Which of `StreamCallbacks` are set. -/
structure StreamCallbacks where
  onAudio      : Bool
  onTranscript : Bool
  onAmd        : Bool
  onControl    : Bool
  onDone       : Bool
  deriving DecidableEq, Repr

/-- A call of one of them. -/
inductive StreamCallback
  | audio (f : AudioFrame)
  | transcript (m : Bytes)
  | amd (m : Bytes)
  | control (m : Bytes)
  | done (st : GrpcStatus)
  deriving DecidableEq, Repr

/-- The switch of `ReaderLoop`: the callback of a message, if it has one; `none` when `FromProto` ends the process. -/
def dispatch (cb : StreamCallbacks) (agreed : StreamReady) : FromService → Option (Option StreamCallback)
  | .audio p =>
    if cb.onAudio then
      match AudioFrame.fromProto p agreed.sampleRateHz.toNat agreed.channels.toNat with
      | .nullopt    => some none
      | .frame f    => some (some (.audio f))
      | .terminates => none
    else some none
  | .transcript m => some (if cb.onTranscript then some (.transcript m) else none)
  | .amd m        => some (if cb.onAmd then some (.amd m) else none)
  | .control m    => some (if cb.onControl then some (.control m) else none)
  | .ready _ | .vars _ | .notSet => some none

/-! ## The threads -/

/-- What the handshake comes to. -/
inductive Handshake
  | fail (st : GrpcStatus)
  | ready (m : StreamReady)
  deriving DecidableEq, Repr

/-- Where `Open` is, and its handshake thread. -/
inductive Opener
  | idle
  | writeStart
  | readReady
  /-- `Finish`, and the message for a status that is OK. -/
  | finishing (onOk : Bytes)
  | closeRing (m : StreamReady)
  | writesDone (m : StreamReady)
  | markDone (m : StreamReady)
  | resolved (h : Handshake)
  | dropStream (st : GrpcStatus)
  | dropContext (st : GrpcStatus)
  | failed (st : GrpcStatus)
  | setOpen
  | spawnReader
  | spawnWriter
  | opened
  deriving DecidableEq, Repr

/-- Where `WriterLoop` is around its loop: in it, or in `WritesDoneOnce` before and after the flag. -/
inductive WriterExit
  | unspawned
  | running
  | claim
  | sending
  | done
  deriving DecidableEq, Repr

inductive StreamReader
  | unspawned
  | reading
  | dispatching (c : Option StreamCallback)
  | finishing
  | storing (st : GrpcStatus)
  | notifying (st : GrpcStatus)
  | done
  deriving DecidableEq, Repr

/-- Where the `Close` is that found the stream open. -/
inductive ClosePhase
  | closeRing
  | joinWriter
  | joinReader (cancelled : Bool)
  | dropStream
  | dropContext
  | report
  | returned
  deriving DecidableEq, Repr

structure StreamCall (c : Nat) where
  config      : StreamConfig
  callbacks   : StreamCallbacks
  /-- The counters, the ring and the loop of the writer. -/
  client      : StreamClient c
  opener      : Opener
  expired     : Bool
  openFlag    : Bool
  writesDone  : Bool
  /-- `stream_` and `context_` are set. -/
  stream      : Bool
  context     : Bool
  agreed      : StreamReady
  exit        : WriterExit
  reader      : StreamReader
  finalStatus : GrpcStatus
  closing     : Option (Nat × ClosePhase)
  /-- The calls of `Close` that have returned. -/
  closed      : List (Nat × GrpcStatus)
  /-- What was done with the stream, and which callbacks were called. -/
  ops         : List (Op FromModule FromService GrpcStatus)
  calls       : List StreamCallback

/-- What gRPC answers. -/
structure Answer where
  ok     : Bool
  msg    : Option FromService
  status : GrpcStatus
  deriving DecidableEq, Repr

inductive StreamCallAct
  | sendAudio (f : AudioFrame)
  | sendControl (m : Bytes)
  | callOpen (made : Bool)
  | handshake (a : Answer)
  | openTimeout
  | writer (ok : Bool)
  | reader (a : Answer)
  | callClose (j : Nat)
  | closer
  | drainTimeout
  deriving DecidableEq, Repr

namespace Opener

/-- The handshake thread is at work, or its answer has not been fetched. -/
def handshaking : Opener → Bool
  | .writeStart | .readReady | .finishing _ | .closeRing _ | .writesDone _ | .markDone _ | .resolved _ => true
  | .idle | .dropStream _ | .dropContext _ | .failed _ | .setOpen | .spawnReader | .spawnWriter | .opened => false

end Opener

namespace StreamCall

variable {c : Nat}

def statusOk : GrpcStatus := ⟨.ok, []⟩

def make (h : 0 < c) (config : StreamConfig) (callbacks : StreamCallbacks) : StreamCall c where
  config := config
  callbacks := callbacks
  client := .make h
  opener := .idle
  expired := false
  openFlag := false
  writesDone := false
  stream := false
  context := false
  agreed := ⟨0, 0, []⟩
  exit := .unspawned
  reader := .unspawned
  finalStatus := statusOk
  closing := none
  closed := []
  ops := []
  calls := []

def record (s : StreamCall c) (op : Op FromModule FromService GrpcStatus) : StreamCall c := { s with ops := s.ops ++ [op] }

/-- `Open` up to the handshake. -/
def callOpen (s : StreamCall c) (made : Bool) : Option (StreamCall c) :=
  if s.opener ≠ .idle then none
  else if made then some { s.record .create with opener := .writeStart, stream := true, context := true }
  else some { s with opener := .failed ⟨.internal, str "stub->Stream returned null"⟩ }

/-- The next step of the handshake thread, or of `Open` behind it. -/
def handshakeStep (s : StreamCall c) (a : Answer) : Option (StreamCall c) :=
  match s.opener with
  | .writeStart =>
    some { s.record (.write (.start s.config.start) a.ok) with
      opener := if a.ok then .readReady else .finishing (str "Write(StreamStart) failed") }
  | .readReady =>
    some { s.record (.read a.msg) with
      opener :=
        match a.msg with
        | none            => .finishing (str "no StreamReady received")
        | some (.ready m) => if s.config.halfCloseWritesAfterStart then .closeRing m else .resolved (.ready m)
        | some _          => .resolved (.fail ⟨.internal, str "first server message was not StreamReady"⟩) }
  | .finishing onOk =>
    some { s.record (.finish a.status) with
      opener := .resolved (.fail (if a.status.code = .ok then ⟨.unavailable, onOk⟩ else a.status)) }
  | .closeRing m  => some { s with client := s.client.close, opener := .writesDone m }
  | .writesDone m => some { s.record .writesDone with opener := .markDone m }
  | .markDone m   => some { s with writesDone := true, opener := .resolved (.ready m) }
  | .resolved h   =>
    if s.expired then
      some { s with opener := .dropStream ⟨.deadlineExceeded, str "Open handshake exceeded open_deadline_ms"⟩ }
    else
      match h with
      | .fail st => some { s with opener := .dropStream st }
      | .ready m => some { s with agreed := m, opener := .setOpen }
  | .dropStream st  => some { s.record .dropStream with stream := false, opener := .dropContext st }
  | .dropContext st => some { s.record .dropContext with context := false, opener := .failed st }
  | .setOpen        => some { s with openFlag := true, opener := .spawnReader }
  | .spawnReader    =>
    some { s with
      reader := .reading
      opener := if s.config.halfCloseWritesAfterStart then .opened else .spawnWriter }
  | .spawnWriter    => some { s with exit := .running, opener := .opened }
  | .idle | .failed _ | .opened => none

/-- The deadline of the handshake has passed: `TryCancel`. -/
def openTimeout (s : StreamCall c) : Option (StreamCall c) :=
  if s.opener.handshaking && !s.expired then some { s.record .tryCancel with expired := true } else none

/-- What the writer does with the stream in a step of its loop. -/
def writerOps (s : StreamCall c) (ok : Bool) : List (Op FromModule FromService GrpcStatus) :=
  match s.client.writer with
  | .writing m => [.write (.msg m) ok]
  | .waiting | .exited => []

def writerStep (s : StreamCall c) (ok : Bool) : Option (StreamCall c) :=
  match s.exit with
  | .running =>
    match s.client.writerStep ok with
    | none   => none
    | some k =>
      some { s with
        client := k
        ops := s.ops ++ s.writerOps ok
        -- a failed write leaves without `WritesDoneOnce`
        exit := if k.writer = .exited then if s.client.writer = .waiting then .claim else .done else .running }
  | .claim =>
    if s.writesDone || !s.stream then some { s with exit := .done }
    else some { s with writesDone := true, exit := .sending }
  | .sending => some { s.record .writesDone with exit := .done }
  | .unspawned | .done => none

def readerStep (s : StreamCall c) (a : Answer) : Option (StreamCall c) :=
  match s.reader with
  | .reading =>
    match a.msg with
    | none   => some { s.record (.read none) with reader := .finishing }
    | some m =>
      match dispatch s.callbacks s.agreed m with
      | none    => none
      | some cb => some { s.record (.read (some m)) with reader := .dispatching cb }
  | .dispatching cb => some { s with calls := s.calls ++ cb.toList, reader := .reading }
  | .finishing      => some { s.record (.finish a.status) with reader := .storing a.status }
  | .storing st     => some { s with finalStatus := st, reader := .notifying st }
  | .notifying st   =>
    some { s with calls := s.calls ++ (if s.callbacks.onDone then [.done st] else []), reader := .done }
  | .unspawned | .done => none

/-- `Close` up to the flag: one call goes on, every other one has the status there is. -/
def callClose (s : StreamCall c) (j : Nat) : StreamCall c :=
  if s.openFlag then { s with openFlag := false, closing := some (j, .closeRing) }
  else { s with closed := s.closed ++ [(j, s.finalStatus)] }

def closerStep (s : StreamCall c) : Option (StreamCall c) :=
  match s.closing with
  | none => none
  | some (j, .closeRing) => some { s with client := s.client.close, closing := some (j, .joinWriter) }
  | some (j, .joinWriter) =>
    if s.exit = .unspawned ∨ s.exit = .done then some { s with closing := some (j, .joinReader false) } else none
  | some (j, .joinReader _) =>
    if s.reader = .unspawned ∨ s.reader = .done then some { s with closing := some (j, .dropStream) } else none
  | some (j, .dropStream) =>
    some { s with
      ops := s.ops ++ if s.stream then [.dropStream] else []
      stream := false
      closing := some (j, .dropContext) }
  | some (j, .dropContext) =>
    some { s with
      ops := s.ops ++ if s.context then [.dropContext] else []
      context := false
      closing := some (j, .report) }
  | some (j, .report)   => some { s with closed := s.closed ++ [(j, s.finalStatus)], closing := some (j, .returned) }
  | some (_, .returned) => none

/-- The reader has not ended in time: `TryCancel`. -/
def drainTimeout (s : StreamCall c) : Option (StreamCall c) :=
  match s.closing with
  | some (j, .joinReader false) =>
    some { s with ops := s.ops ++ (if s.context then [.tryCancel] else []), closing := some (j, .joinReader true) }
  | _ => none

def step (s : StreamCall c) : StreamCallAct → Option (StreamCall c)
  | .sendAudio f   => some { s with client := s.client.sendAudio f }
  | .sendControl m => some { s with client := s.client.sendControl m }
  | .callOpen made => s.callOpen made
  | .handshake a   => s.handshakeStep a
  | .openTimeout   => s.openTimeout
  | .writer ok     => s.writerStep ok
  | .reader a      => s.readerStep a
  | .callClose j   => some (s.callClose j)
  | .closer        => s.closerStep
  | .drainTimeout  => s.drainTimeout

/-- `Close` is not called while `Open` starts its threads. -/
def closesApart (s : StreamCall c) : StreamCallAct → Bool
  | .callClose _ => decide (s.opener ≠ .spawnReader ∧ s.opener ≠ .spawnWriter)
  | _ => true

end StreamCall
end Media
end Osw
