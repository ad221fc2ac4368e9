import OpenSwitch.Lifetime
import OpenSwitch.Bots
/-!
# Scene — bugs, callback contexts and the objects that own them

A bug calls back into a context that belongs to somebody else: a stream or a bot session owns the handles of its bugs and
the contexts it has passed for them, and while a handler runs both are locals of it.  A handle detaches its bug when it is
destroyed; locals are destroyed in the reverse order of their declaration, members as their class clears them.

The scene has the registry, the streams and the bots with what they own.  Beside them stand two records: the events in
the life of the contexts, and the bugs FreeSWITCH was asked to remove.
-/
namespace Osw
namespace Control

open Media (BugManager BugConfig BugRecord)
open Lifetime (Ev)

/-- An `ActiveMediaStream` with its callback contexts. -/
structure StreamObject extends ActiveMediaStream where
  writeCtx     : Option Nat
  readCtx      : Option Nat
  recordingCtx : Option Nat
  deriving DecidableEq, Repr

def StreamObject.ctxs (s : StreamObject) : List Nat :=
  s.writeCtx.toList ++ s.readCtx.toList ++ s.recordingCtx.toList

/-- `BotSession`: the request it was made for, its handles and the contexts of each side. -/
structure BotSession where
  request       : StartBotRequest
  handles       : List Nat
  readContexts  : List Nat
  writeContexts : List Nat
  stopped       : Bool
  deriving DecidableEq, Repr

namespace BotSession

def new (req : StartBotRequest) : BotSession := ⟨req, [], [], [], false⟩

def ctxs (b : BotSession) : List Nat := b.readContexts ++ b.writeContexts

/-- The handle and the context of a new bug are pushed. -/
def push (b : BotSession) (id c : Nat) : BugSide → BotSession
  | .read  => { b with handles := b.handles ++ [id], readContexts := b.readContexts ++ [c] }
  | .write => { b with handles := b.handles ++ [id], writeContexts := b.writeContexts ++ [c] }

end BotSession

/-- A local of a handler that has a destructor. -/
inductive Local
  | handle (id : Nat)
  | ctx (c : Nat)

structure Scene where
  bugs     : BugManager
  streams  : List StreamObject
  distinct : (streams.map (·.streamId)).Nodup
  bots     : ActiveBots BotSession
  nextCtx  : Nat
  events   : List (Ev Nat Nat)
  removed  : List BugRecord

namespace Scene

def empty : Scene := ⟨.empty, [], List.nodup_nil, .empty, 0, [], []⟩

/-! ## The bugs and the contexts -/

/-- `DetachInternal`: an unknown id changes nothing. -/
def detachInternal (remove : Bool) (p : Scene) (id : Nat) : Scene :=
  match p.bugs.byId id with
  | none   => p
  | some r =>
    { p with
      bugs    := p.bugs.detach id
      events  := p.events ++ [.released id]
      removed := p.removed ++ (if remove then [r] else []) }

/-- `Detach`, as the destructor of a handle calls it. -/
def detach (p : Scene) (id : Nat) : Scene := p.detachInternal true id

/-- FreeSWITCH closes a bug. -/
def close (p : Scene) (id : Nat) : Scene := p.detachInternal false id

def detachEach (p : Scene) (ids : List Nat) : Scene := ids.foldl detach p

def closeEach (p : Scene) (ids : List Nat) : Scene := ids.foldl close p

/-- `DetachAll`. -/
def detachAll (p : Scene) (u : Bytes) : Scene := (p.bugs.channelIds u).foldl (detachInternal false) p

def attach (p : Scene) (cfg : BugConfig) (env : BugManager.AttachEnv) : Scene × Except Status Nat :=
  ({ p with bugs := (p.bugs.attach cfg env).1 }, (p.bugs.attach cfg env).2)

/-- What `SetBugCallback` answers. -/
def wired (p : Scene) (id : Nat) : Bool := (p.bugs.byId id).isSome

/-- A context, `p.nextCtx`, is made. -/
def newCtx (p : Scene) : Scene := { p with nextCtx := p.nextCtx + 1 }

/-- The context is given to `SetBugCallback`. -/
def pass (p : Scene) (c id : Nat) : Scene := { p with events := p.events ++ [.passed c id] }

def free (p : Scene) (c : Nat) : Scene := { p with events := p.events ++ [.freed c] }

def freeEach (p : Scene) (cs : List Nat) : Scene := cs.foldl free p

def destroy (p : Scene) : Local → Scene
  | .handle id => p.detach id
  | .ctx c     => p.free c

/-- A scope is left: its locals, the last declared first. -/
def leave (p : Scene) (ls : List Local) : Scene := ls.foldl destroy p

/-! ## Streams -/

/-- `TearDown`.  What the recording branch does not reset goes with the stream's members. -/
def tearDown (p : Scene) (s : StreamObject) : Scene :=
  match s.recordingCtx with
  | some relay => (((p.detachEach s.bugs).free relay).freeEach s.readCtx.toList).freeEach s.writeCtx.toList
  | none       => ((p.detachEach s.bugs).freeEach s.writeCtx.toList).freeEach s.readCtx.toList

/-- The streams a test picks out leave the map and are torn down. -/
def removeWhere (f : StreamObject → Bool) (p : Scene) : Scene :=
  (p.streams.filter f).foldl tearDown
    { p with
      streams  := p.streams.filter (fun s => !f s)
      distinct := p.distinct.sublist (List.Sublist.map _ List.filter_sublist) }

def removeWriteReplaceForChannel (p : Scene) (channel : Bytes) : Scene :=
  p.removeWhere (fun s => MediaPlane.injectsInto channel s.toActiveMediaStream)

def removeForChannel (p : Scene) (channel : Bytes) : Scene := p.removeWhere (fun s => s.channelUuid == channel)

/-- `Remove`. -/
def remove (p : Scene) (streamId : Bytes) : Scene := p.removeWhere (fun s => s.streamId == streamId)

def collides (p : Scene) (s : StreamObject) : Prop := s.streamId = [] ∨ s.streamId ∈ p.streams.map (·.streamId)

instance (p : Scene) (s : StreamObject) : Decidable (p.collides s) := inferInstanceAs (Decidable (_ ∨ _))

/-- `Insert` and the end of the handlers. -/
def registerStream (p : Scene) (s : StreamObject) : Scene × Status :=
  if h : p.collides s then (p.tearDown s, streamIdCollision)
  else
    ({ p with
       streams := p.streams ++ [s]
       distinct := by
         rw [List.map_append]
         refine List.nodup_append.2 ⟨p.distinct, by simp, ?_⟩
         rintro x hx y hy rfl
         rw [List.map_singleton, List.mem_singleton] at hy
         exact h (.inr (hy ▸ hx)) }, .okay)

/-! ## The stream handlers -/

/-- What happens around a call, with the bugs FreeSWITCH closes after the first attach, after its callback is set, and
after the last attach. -/
structure Env extends StartEnv where
  afterRead  : List Nat
  afterWired : List Nat
  afterWrite : List Nat

/-- What a handler does once it has its session. -/
def attachTts (env : Env) (req : StartMediaRequest) (p : Scene) : Scene × Status :=
  match p.attach (ttsConfig req) (attachEnv env.second env.write) with
  | (p₁, .error st) => (p₁, st)
  | (p₁, .ok id) =>
    let p₂ := p₁.closeEach env.afterWrite
    (p₂.newCtx.pass p₂.nextCtx id).registerStream
      ⟨⟨req.channelUuid, env.streamId, .ttsPlayback, [id]⟩, some p₂.nextCtx, none, none⟩

/-- The locals with a destructor are `read_attach`, `read_ctx` and `write_attach`, in this order. -/
def attachVoicebot (env : Env) (req : StartMediaRequest) (p : Scene) : Scene × Status :=
  match p.attach (voicebotReadConfig req) (attachEnv env.second env.read) with
  | (p₁, .error st) => (p₁, st)
  | (p₁, .ok readId) =>
    let p₂ := p₁.closeEach env.afterRead
    let p₃ := (p₂.newCtx.pass p₂.nextCtx readId).closeEach env.afterWired
    match p₃.attach (voicebotWriteConfig req) (attachEnv env.second env.write) with
    | (p₄, .error st) => ((p₄.closeEach env.afterWrite).leave [.ctx p₂.nextCtx, .handle readId], st)
    | (p₄, .ok writeId) =>
      let p₅ := p₄.closeEach env.afterWrite
      (p₅.newCtx.pass p₅.nextCtx writeId).registerStream
        ⟨⟨req.channelUuid, env.streamId, .voicebotDuplex, [readId, writeId]⟩, some p₅.nextCtx, some p₂.nextCtx, none⟩

def sttConfig (req : StartMediaRequest) : BugConfig := ⟨.sttTranscribe, Media.smbfReadStream, req.rate, req.tenantId⟩

def attachStt (env : Env) (req : StartMediaRequest) (p : Scene) : Scene × Status :=
  match p.attach (sttConfig req) (attachEnv env.second env.read) with
  | (p₁, .error st) => (p₁, st)
  | (p₁, .ok id) =>
    let p₂ := p₁.closeEach env.afterRead
    (p₂.newCtx.pass p₂.nextCtx id).registerStream
      ⟨⟨req.channelUuid, env.streamId, .sttTranscribe, [id]⟩, none, some p₂.nextCtx, none⟩

/-- What a handler answers before it touches any stream, if it refuses. -/
def refusal (check : Nat → Option SessionView → Option Status) (env : Env) (req : StartMediaRequest) : Option Status :=
  (checkStartRequest req env.plane).or (check req.rate env.first)

/-- What it answers when the upstream does not open or the session is no longer fit. -/
def lateRefusal (check : Nat → Option SessionView → Option Status) (env : Env) (req : StartMediaRequest) :
    Option Status :=
  if env.opened.code ≠ .ok then some env.opened else check req.rate env.second

def startTts (env : Env) (req : StartMediaRequest) (p : Scene) : Scene × Status :=
  match refusal checkTtsSession env req with
  | some st => (p, st)
  | none =>
    match lateRefusal checkTtsSession env req with
    | some st => (p.removeWriteReplaceForChannel req.channelUuid, st)
    | none    => attachTts env req (p.removeWriteReplaceForChannel req.channelUuid)

def startVoicebot (env : Env) (req : StartMediaRequest) (p : Scene) : Scene × Status :=
  match refusal checkVoicebotSession env req with
  | some st => (p, st)
  | none =>
    match lateRefusal checkVoicebotSession env req with
    | some st => (p.removeWriteReplaceForChannel req.channelUuid, st)
    | none    => attachVoicebot env req (p.removeWriteReplaceForChannel req.channelUuid)

def checkSttSession (rate : Nat) : Option SessionView → Option Status
  | none   => some channelNotFound
  | some v => validateRatePair (str "StartStt read") v.readRate rate

/-- `StartStt` leaves the streams that inject alone. -/
def startStt (env : Env) (req : StartMediaRequest) (p : Scene) : Scene × Status :=
  match (refusal checkSttSession env req).or (lateRefusal checkSttSession env req) with
  | some st => (p, st)
  | none    => attachStt env req p

/-- `SMBF_WRITE_STREAM`. -/
def smbfWriteStream : UInt32 := 2

/-- Here the rate of the request is the one the checks have settled. -/
def recordingConfig (req : StartMediaRequest) (flags : UInt32) : BugConfig :=
  ⟨.recordingRelay, flags, req.sampleRateHz, req.tenantId⟩

/-- The end of `StartRecordingRelay`: the relay is the context of both bugs. -/
def attachRelay (env : Env) (req : StartMediaRequest) (readId : Option Nat) (p : Scene) : Scene × Status :=
  match p.attach (recordingConfig req smbfWriteStream) (attachEnv env.second env.write) with
  | (p₁, .error st) => (p₁.leave (readId.toList.map .handle), st)
  | (p₁, .ok id) =>
    let p₂ := p₁.closeEach env.afterWrite
    let ids := readId.toList ++ [id]
    (ids.foldl (fun q i => q.pass p₂.nextCtx i) p₂.newCtx).registerStream
      ⟨⟨req.channelUuid, env.streamId, .recordingRelay, ids⟩, none, none, some p₂.nextCtx⟩

/-- `StartRecordingRelay` from its first attach on: the checks before it touch nothing that is here. -/
def startRecordingRelay (env : Env) (req : StartMediaRequest) (stereo : Bool) (p : Scene) : Scene × Status :=
  if stereo then
    match p.attach (recordingConfig req Media.smbfReadStream) (attachEnv env.second env.read) with
    | (p₁, .error st) => (p₁, st)
    | (p₁, .ok id)    => attachRelay env req (some id) (p₁.closeEach env.afterRead)
  else attachRelay env req none p

/-! ## Bots -/

/-- One attach of a bot, and the bugs FreeSWITCH closes before its callback is set. -/
structure BugEnv where
  attach : BugManager.AttachEnv
  closed : List Nat

/-- One target: whether its session is found, and the attaches on it. -/
structure TargetEnv where
  found : Bool
  bug   : BugSide → BugEnv

/-- The lambda `unwind`, and the same three lines of `Stop`. -/
def unwind (p : Scene) (b : BotSession) : Scene × BotSession :=
  (((p.detachEach b.handles).freeEach b.readContexts).freeEach b.writeContexts,
    { b with handles := [], readContexts := [], writeContexts := [] })

/-- One bug.  The locals with a destructor are `attach` and `ctx`, in this order. -/
def attachBug (env : BugEnv) (side : BugSide) (cfg : BugConfig) (p : Scene) (b : BotSession) :
    Scene × BotSession × Option Status :=
  match p.attach cfg env.attach with
  | (p₁, .error st) => ((p₁.unwind b).1, (p₁.unwind b).2, some (attachFailureStatus st))
  | (p₁, .ok id) =>
    let p₂ := p₁.closeEach env.closed
    let p₃ := p₂.newCtx.pass p₂.nextCtx id
    if p₂.wired id then (p₃, b.push id p₂.nextCtx side, none)
    else ((p₃.unwind b).1.leave [.ctx p₂.nextCtx, .handle id], (p₃.unwind b).2, some (failedToWire side))

def attachBugs (env : BugSide → BugEnv) :
    List (BugSide × BugConfig) → Scene → BotSession → Scene × BotSession × Option Status
  | [], p, b => (p, b, none)
  | (side, cfg) :: rest, p, b =>
    match attachBug (env side) side cfg p b with
    | (p₁, b₁, some st) => (p₁, b₁, some st)
    | (p₁, b₁, none)    => attachBugs env rest p₁ b₁

/-- The loop of `BotSession::Attach`. -/
def attachTargets (env : Nat → TargetEnv) (req : StartBotRequest) :
    Nat → List Bytes → Scene → BotSession → Scene × BotSession × Option Status
  | _, [], p, b => (p, b, none)
  | n, u :: us, p, b =>
    if !(env n).found then ((p.unwind b).1, (p.unwind b).2, some (StartBotRequest.targetNotFound u))
    else
      match attachBugs (env n).bug (botBugs req u) p b with
      | (p₁, b₁, some st) => (p₁, b₁, some st)
      | (p₁, b₁, none)    => attachTargets env req (n + 1) us p₁ b₁

/-- `BotSession::Attach`. -/
def attachSession (env : Nat → TargetEnv) (p : Scene) (b : BotSession) : Scene × BotSession × Option Status :=
  if b.stopped then (p, b, some ⟨.failedPrecondition, str "bot session stopped"⟩)
  else attachTargets env b.request 0 b.request.targets p b

/-- `BotSession::Stop`. -/
def stopSession (p : Scene) (b : BotSession) : Scene × BotSession :=
  if b.stopped then (p, b) else ((p.unwind b).1, { (p.unwind b).2 with stopped := true })

/-- `~BotSession`: it stops, then its members go, the last declared first. -/
def destroySession (p : Scene) (b : BotSession) : Scene :=
  let q := p.stopSession b
  ((q.1.freeEach q.2.writeContexts).freeEach q.2.readContexts).detachEach q.2.handles

/-- What happens around a `StartBot`. -/
structure BotEnv where
  plane   : Bool
  views   : Nat → Option SessionView
  opened  : Status
  targets : Nat → TargetEnv
  botId   : Bytes

/-- The loop over the targets before anything is opened. -/
def checkBotTargets (env : BotEnv) (lim : BotLimits) (req : StartBotRequest) (p : Scene) :
    Nat → List Bytes → Option Status
  | _, [] => none
  | n, u :: us =>
    if p.bots.channelAtCapacity u lim.maxBotsPerChannel then some StartBotRequest.atCapacity
    else (req.checkSession u (env.views n)).or (checkBotTargets env lim req p (n + 1) us)

def botRefusal (env : BotEnv) (lim : BotLimits) (req : StartBotRequest) (p : Scene) : Option Status :=
  if !env.plane then some ⟨.unavailable, str "media plane not initialised"⟩
  else (req.validate lim).or (p.checkBotTargets env lim req 0 req.targets)

/-- `StartBot`.  A session that does not get into `ActiveBots` is destroyed. -/
def startBot (env : BotEnv) (lim : BotLimits) (req : StartBotRequest) (p : Scene) : Scene × Status :=
  match p.botRefusal env lim req with
  | some st => (p, st)
  | none =>
    if env.opened.code ≠ .ok then (p.destroySession (.new req), env.opened)
    else
      match p.attachSession env.targets (.new req) with
      | (p₁, b, some st) => ((p₁.stopSession b).1.destroySession (p₁.stopSession b).2, st)
      | (p₁, b, none) =>
        match p₁.bots.insert ⟨env.botId, req.targets, [], b⟩ lim.maxBotsPerChannel with
        | (bots, .inserted)             => ({ p₁ with bots := bots }, .okay)
        | (_, .channelCapacityExceeded) => (p₁.destroySession b, StartBotRequest.atCapacity)
        | (_, .duplicateBotId)          => (p₁.destroySession b, StartBotRequest.botIdCollision)

/-- `ActiveBots::Stop`. -/
def stopBot (p : Scene) (k : Bytes) : Scene :=
  match p.bots.take k with
  | (none, _) => p
  | (some b, bots) =>
    let q := { p with bots := bots }.stopSession b.session
    (b.streamIds.foldl remove q.1).destroySession q.2

/-- `StopByChannel`. -/
def stopByChannel (p : Scene) (u : Bytes) : Scene := (p.bots.channelBots u).foldl stopBot p

/-- `OswMediaChannelDestroy`, with the cleanup function the module registers, for a session in `CS_DESTROY`. -/
def channelDestroy (p : Scene) (u : Bytes) : Scene :=
  if u = [] then p else ((p.stopByChannel u).removeForChannel u).detachAll u

/-! ## Runs -/

/-- What is called: the handlers, and FreeSWITCH's callbacks. -/
inductive Call
  | startTts (env : Env) (req : StartMediaRequest)
  | startVoicebot (env : Env) (req : StartMediaRequest)
  | startStt (env : Env) (req : StartMediaRequest)
  | startRecordingRelay (env : Env) (req : StartMediaRequest) (stereo : Bool)
  | startBot (env : BotEnv) (lim : BotLimits) (req : StartBotRequest)
  | stopBot (botId : Bytes)
  | stopStream (streamId : Bytes)
  | close (id : Nat)
  | destroy (channel : Bytes)

def call (p : Scene) : Call → Scene
  | .startTts env req                   => (p.startTts env req).1
  | .startVoicebot env req              => (p.startVoicebot env req).1
  | .startStt env req                   => (p.startStt env req).1
  | .startRecordingRelay env req stereo => (p.startRecordingRelay env req stereo).1
  | .startBot env lim req               => (p.startBot env lim req).1
  | .stopBot k                          => p.stopBot k
  | .stopStream id                      => p.remove id
  | .close id                           => p.close id
  | .destroy u                          => p.channelDestroy u

def calls (p : Scene) (cs : List Call) : Scene := cs.foldl call p

/-! ## The scene without its contexts -/

/-- The registry and the streams, as the handlers of `MediaStreams` see them. -/
def toPlane (p : Scene) : MediaPlane :=
  ⟨p.bugs, p.streams.map (·.toActiveMediaStream), by rw [List.map_map]; exact p.distinct⟩

theorem toPlane_eq {p : Scene} {m : MediaPlane} (hb : p.bugs = m.bugs)
    (hs : p.streams.map (·.toActiveMediaStream) = m.streams) : p.toPlane = m := by
  cases m
  cases hb
  cases hs
  rfl

theorem detachInternal_bugs (remove : Bool) (p : Scene) (id : Nat) :
    (p.detachInternal remove id).bugs = p.bugs.detach id := by
  unfold detachInternal
  split
  · rename_i hnone
    exact (p.bugs.detach_of_none hnone).symm
  · rfl

theorem detachInternal_streams (remove : Bool) (p : Scene) (id : Nat) :
    (p.detachInternal remove id).streams = p.streams := by
  unfold detachInternal
  split <;> rfl

theorem closeEach_bugs : ∀ (ids : List Nat) (p : Scene), (p.closeEach ids).bugs = p.bugs.detachEach ids
  | [], _ => rfl
  | id :: ids, p => (closeEach_bugs ids (p.close id)).trans (by rw [close, detachInternal_bugs]; rfl)

theorem detachEach_toPlane : ∀ (ids : List Nat) (p : Scene),
    (p.detachEach ids).toPlane = p.toPlane.withBugs (p.bugs.detachEach ids)
  | [], _ => rfl
  | id :: ids, p => by
    have hone : (p.detach id).toPlane = p.toPlane.withBugs (p.bugs.detach id) :=
      toPlane_eq (detachInternal_bugs true p id) (by rw [detach, detachInternal_streams]; rfl)
    have hbugs : (p.detach id).bugs = p.bugs.detach id := detachInternal_bugs true p id
    rw [show p.detachEach (id :: ids) = (p.detach id).detachEach ids from rfl, detachEach_toPlane, hone, hbugs]
    rfl

theorem freeEach_toPlane : ∀ (cs : List Nat) (p : Scene), (p.freeEach cs).toPlane = p.toPlane
  | [], _ => rfl
  | c :: cs, p => freeEach_toPlane cs (p.free c)

theorem tearDown_toPlane (p : Scene) (s : StreamObject) :
    (p.tearDown s).toPlane = p.toPlane.tearDown s.toActiveMediaStream := by
  unfold tearDown
  split
  · rename_i relay hr
    rw [freeEach_toPlane, freeEach_toPlane]
    exact detachEach_toPlane s.bugs p
  · rw [freeEach_toPlane, freeEach_toPlane]
    exact detachEach_toPlane s.bugs p

theorem foldl_tearDown_toPlane : ∀ (ss : List StreamObject) (p : Scene),
    (ss.foldl tearDown p).toPlane = p.toPlane.withBugs (p.bugs.detachEach (ss.flatMap (·.bugs)))
  | [], _ => rfl
  | s :: ss, p => by
    have hone := tearDown_toPlane p s
    have hbugs : (p.tearDown s).bugs = p.bugs.detachEach s.bugs := congrArg MediaPlane.bugs hone
    rw [List.foldl_cons, foldl_tearDown_toPlane, hone, hbugs, List.flatMap_cons]
    simp only [BugManager.detachEach, List.foldl_append]
    rfl

theorem removeWriteReplaceForChannel_toPlane (p : Scene) (u : Bytes) :
    (p.removeWriteReplaceForChannel u).toPlane = p.toPlane.removeWriteReplaceForChannel u := by
  unfold removeWriteReplaceForChannel removeWhere
  rw [foldl_tearDown_toPlane]
  have hinj : (p.streams.filter (fun s => MediaPlane.injectsInto u s.toActiveMediaStream)).flatMap (·.bugs)
      = p.toPlane.injectorBugs u := by
    simp only [MediaPlane.injectorBugs, toPlane, List.filter_map, List.flatMap_map]
    rfl
  rw [hinj]
  simp only [MediaPlane.removeWriteReplaceForChannel, MediaPlane.withBugs, toPlane, List.filter_map]
  rfl

theorem registerStream_toPlane (p : Scene) (s : StreamObject) :
    ((p.registerStream s).1.toPlane, (p.registerStream s).2)
      = Control.registerStream p.toPlane s.toActiveMediaStream := by
  have hiff : p.toPlane.collides s.toActiveMediaStream ↔ p.collides s := by
    simp only [MediaPlane.collides, collides, toPlane, List.map_map]
    rfl
  unfold registerStream Control.registerStream MediaPlane.insert
  by_cases hc : p.collides s
  · rw [dif_pos hc, dif_pos (hiff.2 hc)]
    simp only [tearDown_toPlane]
  · rw [dif_neg hc, dif_neg (fun h => hc (hiff.1 h))]
    simp only [toPlane, List.map_append, List.map_cons, List.map_nil]

theorem attachTts_toPlane (env : Env) (req : StartMediaRequest) (p : Scene) (hquiet : env.afterWrite = []) :
    ((attachTts env req p).1.toPlane, (attachTts env req p).2) =
      match p.toPlane.bugs.attach (ttsConfig req) (attachEnv env.second env.write) with
      | (m, .error st) => (p.toPlane.withBugs m, st)
      | (m, .ok id) =>
        Control.registerStream (p.toPlane.withBugs m) ⟨req.channelUuid, env.streamId, .ttsPlayback, [id]⟩ := by
  unfold attachTts attach
  rw [hquiet, show p.toPlane.bugs = p.bugs from rfl]
  obtain ⟨m, r⟩ := p.bugs.attach (ttsConfig req) (attachEnv env.second env.write)
  cases r with
  | error st => rfl
  | ok id => exact registerStream_toPlane _ _

theorem attachVoicebot_toPlane (env : Env) (req : StartMediaRequest) (p : Scene) (hread : env.afterRead = [])
    (hwired : env.afterWired = []) (hwrite : env.afterWrite = []) :
    ((attachVoicebot env req p).1.toPlane, (attachVoicebot env req p).2) =
      match p.toPlane.bugs.attach (voicebotReadConfig req) (attachEnv env.second env.read) with
      | (m, .error st) => (p.toPlane.withBugs m, st)
      | (m, .ok readId) =>
        match m.attach (voicebotWriteConfig req) (attachEnv env.second env.write) with
        | (m', .error st)   => (p.toPlane.withBugs (m'.detach readId), st)
        | (m', .ok writeId) =>
          Control.registerStream (p.toPlane.withBugs m')
            ⟨req.channelUuid, env.streamId, .voicebotDuplex, [readId, writeId]⟩ := by
  unfold attachVoicebot attach
  rw [hread, hwired, hwrite, show p.toPlane.bugs = p.bugs from rfl]
  obtain ⟨m, r⟩ := p.bugs.attach (voicebotReadConfig req) (attachEnv env.second env.read)
  cases r with
  | error st => rfl
  | ok readId =>
    dsimp only [closeEach, List.foldl_nil, newCtx, pass]
    obtain ⟨m', r'⟩ := m.attach (voicebotWriteConfig req) (attachEnv env.second env.write)
    cases r' with
    | error st =>
      refine Prod.ext (toPlane_eq ?_ ?_) rfl
      · exact detachInternal_bugs true _ readId
      · exact congrArg (List.map _) (detachInternal_streams true _ readId)
    | ok writeId => exact registerStream_toPlane _ _

/-- **`StartTts` of the scene is that of the plane**, when FreeSWITCH closes nothing meanwhile. -/
theorem startTts_toPlane (env : Env) (req : StartMediaRequest) (p : Scene) (hquiet : env.afterWrite = []) :
    ((p.startTts env req).1.toPlane, (p.startTts env req).2) = handleStartTts env.toStartEnv req p.toPlane := by
  unfold startTts handleStartTts refusal lateRefusal
  cases checkStartRequest req env.plane with
  | some st => rfl
  | none =>
    cases checkTtsSession req.rate env.first with
    | some st => rfl
    | none =>
      rw [← removeWriteReplaceForChannel_toPlane]
      dsimp only [Option.or]
      split_ifs with hopen
      · rfl
      · cases checkTtsSession req.rate env.second with
        | some st => rfl
        | none => exact attachTts_toPlane env req _ hquiet

theorem startVoicebot_toPlane (env : Env) (req : StartMediaRequest) (p : Scene) (hread : env.afterRead = [])
    (hwired : env.afterWired = []) (hwrite : env.afterWrite = []) :
    ((p.startVoicebot env req).1.toPlane, (p.startVoicebot env req).2)
      = handleStartVoicebot env.toStartEnv req p.toPlane := by
  unfold startVoicebot handleStartVoicebot refusal lateRefusal
  cases checkStartRequest req env.plane with
  | some st => rfl
  | none =>
    cases checkVoicebotSession req.rate env.first with
    | some st => rfl
    | none =>
      rw [← removeWriteReplaceForChannel_toPlane]
      dsimp only [Option.or]
      split_ifs with hopen
      · rfl
      · cases checkVoicebotSession req.rate env.second with
        | some st => rfl
        | none => exact attachVoicebot_toPlane env req _ hread hwired hwrite

end Scene
end Control
end Osw
