import OpenSwitch.BugManager
/-!
# MediaStreams — active media streams, StartTts and StartVoicebot

`ActiveMediaStreams` owns every running stream with the handles of its bugs; tearing a stream down detaches them.  A
stream that injects audio replaces the ones before it on its channel: both handlers remove those first, then open the
upstream, attach one bug (`StartTts`) or two (`StartVoicebot`), and register.
-/
namespace Osw
namespace Control

open Media (BugManager BugConfig Purpose)

/-- `StreamStart::Purpose`. -/
inductive StreamPurpose
  | unspecified
  | ttsPlayback
  | sttTranscribe
  | voicebotDuplex
  | amdDetect
  | recordingRelay
  deriving DecidableEq, Repr

def isWriteReplacePurpose (p : StreamPurpose) : Bool := p == .ttsPlayback || p == .voicebotDuplex

/-- A running stream, with the ids of its bug handles. -/
structure ActiveMediaStream where
  channelUuid : Bytes
  streamId    : Bytes
  purpose     : StreamPurpose
  bugs        : List Nat
  deriving DecidableEq, Repr

/-- The bug registry and the streams, one for each stream id. -/
structure MediaPlane where
  bugs     : BugManager
  streams  : List ActiveMediaStream
  distinct : (streams.map (·.streamId)).Nodup

namespace MediaPlane

def empty : MediaPlane := ⟨.empty, [], List.nodup_nil⟩

/-- The stream injects audio into the channel. -/
def injectsInto (channel : Bytes) (s : ActiveMediaStream) : Bool :=
  s.channelUuid == channel && isWriteReplacePurpose s.purpose

/-- The bugs of the streams that inject into a channel. -/
def injectorBugs (p : MediaPlane) (channel : Bytes) : List Nat :=
  (p.streams.filter (injectsInto channel)).flatMap (·.bugs)

/-- `TearDown` of a stream that is in no map: its bugs are detached. -/
def tearDown (p : MediaPlane) (s : ActiveMediaStream) : MediaPlane := { p with bugs := p.bugs.detachEach s.bugs }

/-- A change of the registry alone. -/
def withBugs (p : MediaPlane) (m : BugManager) : MediaPlane := { p with bugs := m }

def removeWriteReplaceForChannel (p : MediaPlane) (channel : Bytes) : MediaPlane where
  bugs := p.bugs.detachEach (p.injectorBugs channel)
  streams := p.streams.filter (fun s => !injectsInto channel s)
  distinct := p.distinct.sublist (List.Sublist.map _ List.filter_sublist)

/-- The stream has no id, or one that is taken. -/
def collides (p : MediaPlane) (s : ActiveMediaStream) : Prop :=
  s.streamId = [] ∨ s.streamId ∈ p.streams.map (·.streamId)

instance (p : MediaPlane) (s : ActiveMediaStream) : Decidable (p.collides s) := inferInstanceAs (Decidable (_ ∨ _))

/-- `Insert`: a refused stream is torn down. -/
def insert (p : MediaPlane) (s : ActiveMediaStream) : MediaPlane × Bool :=
  if h : p.collides s then (p.tearDown s, false)
  else
    ({ p with
       streams := p.streams ++ [s]
       distinct := by
         rw [List.map_append]
         refine List.nodup_append.2 ⟨p.distinct, by simp, ?_⟩
         rintro x hx y hy rfl
         rw [List.map_singleton, List.mem_singleton] at hy
         exact h (.inr (hy ▸ hx)) }, true)

end MediaPlane

/-! ## Rates -/

/-- A located session: its uuid and the rates of its codecs, 0 when FreeSWITCH has none. -/
structure SessionView where
  uuid      : Bytes
  readRate  : Nat
  writeRate : Nat

/-- `Resampler::Supports`, on the rates as C ints. -/
def resamplerSupports (fromHz toHz : Nat) : Bool :=
  fromHz < 2 ^ 31 && toHz < 2 ^ 31 &&
    (fromHz == toHz || (fromHz == 8000 && toHz == 16000) || (fromHz == 16000 && toHz == 8000))

def validateRatePair (label : Bytes) (fromHz toHz : Nat) : Option Status :=
  if fromHz = 0 ∨ toHz = 0 then some ⟨.failedPrecondition, label ++ str " media rate unavailable"⟩
  else if !resamplerSupports fromHz toHz then
    some ⟨.invalidArgument, label ++ str " unsupported media rate pair " ++ str (toString fromHz) ++ str "->" ++
      str (toString toHz)⟩
  else none

/-! ## The handlers -/

/-- The fields of `StartTtsRequest` and `StartVoicebotRequest` that decide what becomes of the call. -/
structure StartMediaRequest where
  channelUuid      : Bytes
  upstreamEndpoint : Bytes
  sampleRateHz     : Nat
  tenantId         : Bytes

def defaultSampleRateHz : Nat := 16000

def StartMediaRequest.rate (req : StartMediaRequest) : Nat :=
  if req.sampleRateHz ≠ 0 then req.sampleRateHz else defaultSampleRateHz

/-- What happens around a call: whether the media plane is there, the two session lookups, the status of the upstream
open, the attaches, and the id drawn for the stream. -/
structure StartEnv where
  plane    : Bool
  first    : Option SessionView
  opened   : Status
  second   : Option SessionView
  read     : BugManager.AttachEnv
  write    : BugManager.AttachEnv
  streamId : Bytes

/-- The checks both handlers make of the request. -/
def checkStartRequest (req : StartMediaRequest) (plane : Bool) : Option Status :=
  if req.channelUuid = [] then some ⟨.invalidArgument, str "channel_uuid required"⟩
  else if req.upstreamEndpoint = [] then some ⟨.invalidArgument, str "upstream_endpoint required"⟩
  else if req.rate ≠ 8000 ∧ req.rate ≠ 16000 then
    some ⟨.invalidArgument, str "sample_rate_hz must be 8000 or 16000"⟩
  else if !plane then some ⟨.unavailable, str "media plane not initialised"⟩
  else none

def channelNotFound : Status := ⟨.notFound, str "channel not found"⟩

/-- The checks `StartTts` makes of the session it locates, before and after the open. -/
def checkTtsSession (rate : Nat) : Option SessionView → Option Status
  | none   => some channelNotFound
  | some v => validateRatePair (str "StartTts write") rate v.writeRate

def checkVoicebotSession (rate : Nat) : Option SessionView → Option Status
  | none   => some channelNotFound
  | some v =>
    (validateRatePair (str "StartVoicebot read") v.readRate rate).or
      (validateRatePair (str "StartVoicebot write") rate v.writeRate)

/-- The uuid of the located session goes with the attach. -/
def attachEnv (v : Option SessionView) (env : BugManager.AttachEnv) : BugManager.AttachEnv :=
  match v with
  | some v => { env with uuid := v.uuid }
  | none   => { env with uuid := [] }

def ttsConfig (req : StartMediaRequest) : BugConfig := ⟨.ttsPlayback, Media.smbfWriteReplace, req.rate, req.tenantId⟩

def voicebotReadConfig (req : StartMediaRequest) : BugConfig :=
  ⟨.voicebotDuplexRead, Media.smbfReadStream, req.rate, req.tenantId⟩

def voicebotWriteConfig (req : StartMediaRequest) : BugConfig :=
  ⟨.voicebotDuplexWrite, Media.smbfWriteReplace, req.rate, req.tenantId⟩

def streamIdCollision : Status := ⟨.internal, str "stream_id collision"⟩

/-- The end of both handlers. -/
def registerStream (p : MediaPlane) (s : ActiveMediaStream) : MediaPlane × Status :=
  match p.insert s with
  | (p', false) => (p', streamIdCollision)
  | (p', true)  => (p', .okay)

def handleStartTts (env : StartEnv) (req : StartMediaRequest) (p : MediaPlane) : MediaPlane × Status :=
  match checkStartRequest req env.plane with
  | some st => (p, st)
  | none =>
    match checkTtsSession req.rate env.first with
    | some st => (p, st)
    | none =>
      let p₁ := p.removeWriteReplaceForChannel req.channelUuid
      if env.opened.code ≠ .ok then (p₁, env.opened)
      else
        match checkTtsSession req.rate env.second with
        | some st => (p₁, st)
        | none =>
          match p₁.bugs.attach (ttsConfig req) (attachEnv env.second env.write) with
          | (m, .error st) => (p₁.withBugs m, st)
          | (m, .ok id)    => registerStream (p₁.withBugs m) ⟨req.channelUuid, env.streamId, .ttsPlayback, [id]⟩

/-- When the second attach fails, the handle of the first goes out of scope and detaches it. -/
def handleStartVoicebot (env : StartEnv) (req : StartMediaRequest) (p : MediaPlane) : MediaPlane × Status :=
  match checkStartRequest req env.plane with
  | some st => (p, st)
  | none =>
    match checkVoicebotSession req.rate env.first with
    | some st => (p, st)
    | none =>
      let p₁ := p.removeWriteReplaceForChannel req.channelUuid
      if env.opened.code ≠ .ok then (p₁, env.opened)
      else
        match checkVoicebotSession req.rate env.second with
        | some st => (p₁, st)
        | none =>
          match p₁.bugs.attach (voicebotReadConfig req) (attachEnv env.second env.read) with
          | (m, .error st) => (p₁.withBugs m, st)
          | (m, .ok readId) =>
            match m.attach (voicebotWriteConfig req) (attachEnv env.second env.write) with
            | (m', .error st)   => (p₁.withBugs (m'.detach readId), st)
            | (m', .ok writeId) =>
              registerStream (p₁.withBugs m') ⟨req.channelUuid, env.streamId, .voicebotDuplex, [readId, writeId]⟩

end Control
end Osw
