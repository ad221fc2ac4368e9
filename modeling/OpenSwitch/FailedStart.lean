import OpenSwitch.MediaStreams
/-!
# FailedStart — what a failed StartTts or StartVoicebot leaves

A call that fails in its checks leaves everything alone.  A call that fails later has attached nothing that stays, but
it has already removed the streams that inject into its channel: the upstream is opened and the bugs are attached only
after that.  So a failed call leaves the running streams and the registry as they were exactly when there was nothing
to remove or it did not get that far.
-/
namespace Osw
namespace Control

open Media BugManager

/-! ## Statuses of the checks -/

variable {st : Status} {p₁ : MediaPlane}

theorem validateRatePair_code {label : Bytes} {a b : Nat} (h : validateRatePair label a b = some st) :
    st.code ≠ .ok := by
  unfold validateRatePair at h
  split_ifs at h <;> cases h <;> nofun

theorem checkTtsSession_code {rate : Nat} {v : Option SessionView} (h : checkTtsSession rate v = some st) :
    st.code ≠ .ok := by
  cases v with
  | none => cases h; decide
  | some v => exact validateRatePair_code h

theorem checkVoicebotSession_code {rate : Nat} {v : Option SessionView} (h : checkVoicebotSession rate v = some st) :
    st.code ≠ .ok := by
  cases v with
  | none => cases h; decide
  | some v =>
    rcases Option.or_eq_some_iff.1 h with h | ⟨-, h⟩
    · exact validateRatePair_code h
    · exact validateRatePair_code h

theorem attachError_code {cfg : BugConfig} {env : AttachEnv} {ps : List Purpose}
    (h : attachError cfg env ps = some st) : st.code ≠ .ok := by
  unfold attachError at h
  split_ifs at h
  · cases h; decide
  · cases h; decide
  · rcases Option.or_eq_some_iff.1 h with h | ⟨-, h⟩
    · unfold checkAttach at h
      split_ifs at h <;> cases h <;> nofun
    · unfold AttachEnv.failure at h
      split_ifs at h <;> cases h <;> nofun

/-! ## The part after the removal -/

/-- The id of the stream is empty or that of a stream which stays. -/
def idTaken (p : MediaPlane) (channel streamId : Bytes) : Prop :=
  streamId = [] ∨ ∃ s ∈ p.streams, MediaPlane.injectsInto channel s = false ∧ s.streamId = streamId

instance (p : MediaPlane) (channel streamId : Bytes) : Decidable (idTaken p channel streamId) :=
  inferInstanceAs (Decidable (_ ∨ _))

/-- The purposes on the session's channel other than those of the streams that inject into the channel. -/
def otherPurposes (p : MediaPlane) (channel uuid : Bytes) : List Purpose :=
  p.bugs.purposesLeft (p.injectorBugs channel) uuid

def collisionFailure (p : MediaPlane) (channel streamId : Bytes) : Option Status :=
  if idTaken p channel streamId then some streamIdCollision else none

/-- How `StartTts` fails once its first checks have passed, if it does: the open, the second look at the session, the
attach, the registration, in this order. -/
def ttsFailure (env : StartEnv) (req : StartMediaRequest) (p : MediaPlane) : Option Status :=
  if env.opened.code ≠ .ok then some env.opened
  else
    let e := attachEnv env.second env.write
    (checkTtsSession req.rate env.second).or
      ((attachError (ttsConfig req) e (otherPurposes p req.channelUuid e.uuid)).or
        (collisionFailure p req.channelUuid env.streamId))

/-- The same of `StartVoicebot`, with its two attaches. -/
def voicebotFailure (env : StartEnv) (req : StartMediaRequest) (p : MediaPlane) : Option Status :=
  if env.opened.code ≠ .ok then some env.opened
  else
    let r := attachEnv env.second env.read
    let w := attachEnv env.second env.write
    (checkVoicebotSession req.rate env.second).or
      ((attachError (voicebotReadConfig req) r (otherPurposes p req.channelUuid r.uuid)).or
        ((attachError (voicebotWriteConfig req) w (otherPurposes p req.channelUuid w.uuid ++ [.voicebotDuplexRead])).or
          (collisionFailure p req.channelUuid env.streamId)))

/-- `r` is the result of a call that has removed the streams of its channel and fails with `failure`, or succeeds: when
it fails, nothing else has changed. -/
structure Outcome (p₁ : MediaPlane) (failure : Option Status) (r : MediaPlane × Status) : Prop where
  failed : ∀ st, failure = some st →
    r.2 = st ∧ st.code ≠ .ok ∧ r.1.streams = p₁.streams ∧ SameBugs p₁.bugs r.1.bugs
  done : failure = none → r.2.code = .ok

theorem collides_iff (p : MediaPlane) (m : BugManager) (channel : Bytes) (s : ActiveMediaStream) :
    ((p.removeWriteReplaceForChannel channel).withBugs m).collides s ↔ idTaken p channel s.streamId := by
  simp only [MediaPlane.collides, MediaPlane.withBugs, MediaPlane.removeWriteReplaceForChannel, idTaken, List.mem_map,
    List.mem_filter, Bool.not_eq_true', and_assoc]

/-- The registration at the end of both handlers: a refused stream is torn down, so when its bugs were all that was
added, nothing stays. -/
theorem registerStream_outcome (p : MediaPlane) (m : BugManager) (channel : Bytes) (s : ActiveMediaStream)
    (h : SameBugs (p.removeWriteReplaceForChannel channel).bugs (m.detachEach s.bugs)) :
    Outcome (p.removeWriteReplaceForChannel channel) (collisionFailure p channel s.streamId)
      (registerStream ((p.removeWriteReplaceForChannel channel).withBugs m) s) := by
  have hcol := collides_iff p m channel s
  unfold registerStream MediaPlane.insert collisionFailure
  by_cases ht : idTaken p channel s.streamId
  · rw [dif_pos (hcol.2 ht), if_pos ht]
    refine ⟨fun st hst => ?_, fun hn => (by cases hn)⟩
    cases hst
    exact ⟨rfl, by decide, rfl, h⟩
  · rw [dif_neg (fun hc => ht (hcol.1 hc)), if_neg ht]
    exact ⟨fun st hst => (by cases hst), fun _ => rfl⟩

theorem Outcome.stop {p' : MediaPlane} (hst : st.code ≠ .ok) (hstreams : p'.streams = p₁.streams)
    (hbugs : SameBugs p₁.bugs p'.bugs) : Outcome p₁ (some st) (p', st) := by
  refine ⟨fun st' h => ?_, fun h => (by cases h)⟩
  cases h
  exact ⟨rfl, hst, hstreams, hbugs⟩

/-- The open and the second look at the session, before the rest of the call. -/
theorem Outcome.opened (opened : Status) {check rest : Option Status} {r : MediaPlane × Status}
    (hr : Outcome p₁ rest r) : (∀ st, check = some st → st.code ≠ .ok) →
    Outcome p₁ (if opened.code ≠ .ok then some opened else check.or rest)
      (if opened.code ≠ .ok then (p₁, opened) else
        match check with
        | some st => (p₁, st)
        | none    => r) := by
  intro hcheck
  split
  · rename_i hopen
    exact .stop hopen rfl (.rfl' _)
  · cases check with
    | some st => exact .stop (hcheck st rfl) rfl (.rfl' _)
    | none => exact hr

/-- An attach, before the rest of the call.  When it fails, `undo` is what the call still does to the registry. -/
theorem Outcome.attach {m : BugManager} (cfg : BugConfig) (env : AttachEnv) (undo : BugManager → BugManager)
    {k : BugManager → Nat → MediaPlane × Status} {rest : Option Status}
    (hundo : ∀ m', SameBugs m m' → SameBugs p₁.bugs (undo m'))
    (hk : Outcome p₁ rest (k (m.register env.uuid (effectiveConfig cfg)) m.nextId)) :
    Outcome p₁ ((attachError cfg env (m.purposesOn env.uuid)).or rest)
      (match m.attach cfg env with
       | (m', .error st) => (p₁.withBugs (undo m'), st)
       | (m', .ok id)    => k m' id) := by
  rcases m.attach_cases cfg env with ⟨st, he, hr, hsame⟩ | ⟨he, hr⟩
  · rw [he]
    generalize m.attach cfg env = a at hr hsame
    obtain ⟨m', res⟩ := a
    cases hr
    exact .stop (attachError_code he) rfl (hundo m' hsame)
  · rw [he, hr]
    exact hk

theorem attachEnv_uuid (v : Option SessionView) (e e' : AttachEnv) : (attachEnv v e).uuid = (attachEnv v e').uuid := by
  cases v <;> rfl

/-- The purposes a call finds once it has removed the streams of its channel. -/
theorem removed_purposesOn (p : MediaPlane) (channel uuid : Bytes) :
    (p.removeWriteReplaceForChannel channel).bugs.purposesOn uuid = otherPurposes p channel uuid :=
  p.bugs.detachEach_purposesOn (p.injectorBugs channel) uuid

/-- `StartTts` past its first checks. -/
theorem startTts_outcome (env : StartEnv) (req : StartMediaRequest) (p : MediaPlane)
    (hreq : checkStartRequest req env.plane = none) (hfirst : checkTtsSession req.rate env.first = none) :
    Outcome (p.removeWriteReplaceForChannel req.channelUuid) (ttsFailure env req p) (handleStartTts env req p) := by
  unfold handleStartTts ttsFailure
  rw [hreq, hfirst]
  simp only [← removed_purposesOn]
  refine .opened env.opened ?_ (fun _ h => checkTtsSession_code h)
  refine .attach (ttsConfig req) (attachEnv env.second env.write) id (fun _ h => h) ?_
  exact registerStream_outcome p _ req.channelUuid ⟨req.channelUuid, env.streamId, .ttsPlayback, [_]⟩
    (detach_register _ _ _)

/-- `StartVoicebot` past its first checks. -/
theorem startVoicebot_outcome (env : StartEnv) (req : StartMediaRequest) (p : MediaPlane)
    (hreq : checkStartRequest req env.plane = none) (hfirst : checkVoicebotSession req.rate env.first = none) :
    Outcome (p.removeWriteReplaceForChannel req.channelUuid) (voicebotFailure env req p)
      (handleStartVoicebot env req p) := by
  unfold handleStartVoicebot voicebotFailure
  rw [hreq, hfirst]
  -- both attaches go to the session of the second look
  have huuid := attachEnv_uuid env.second env.write env.read
  simp only [huuid, ← removed_purposesOn]
  refine .opened env.opened ?_ (fun _ h => checkVoicebotSession_code h)
  refine .attach (voicebotReadConfig req) (attachEnv env.second env.read) id (fun _ h => h) ?_
  generalize hp₁ : p.removeWriteReplaceForChannel req.channelUuid = p₁
  rw [← huuid]
  have hread := detach_register p₁.bugs (attachEnv env.second env.write).uuid (effectiveConfig (voicebotReadConfig req))
  have hps := register_purposesOn p₁.bugs (attachEnv env.second env.write).uuid
    (effectiveConfig (voicebotReadConfig req))
  rw [effectiveConfig_purpose, show (voicebotReadConfig req).purpose = .voicebotDuplexRead from rfl] at hps
  rw [← hps]
  refine .attach (voicebotWriteConfig req) (attachEnv env.second env.write) (fun m' => m'.detach _)
    (fun _ h => hread.trans (h.detach _)) ?_
  subst hp₁
  refine registerStream_outcome p _ req.channelUuid ⟨req.channelUuid, env.streamId, .voicebotDuplex, [_, _]⟩ ?_
  -- the write bug came last: detaching it first gives back the registry with the read bug
  exact (hread.trans ((detach_register _ _ _).detach _)).trans (detach_comm _ _ _)

/-! ## Failed calls -/

inductive MediaCall
  | startTts
  | startVoicebot
  deriving DecidableEq, Repr

namespace MediaCall

def handle : MediaCall → StartEnv → StartMediaRequest → MediaPlane → MediaPlane × Status
  | .startTts      => handleStartTts
  | .startVoicebot => handleStartVoicebot

/-- The first checks of the call. -/
def refusal (c : MediaCall) (env : StartEnv) (req : StartMediaRequest) : Option Status :=
  (checkStartRequest req env.plane).or
    (match c with
     | .startTts      => checkTtsSession req.rate env.first
     | .startVoicebot => checkVoicebotSession req.rate env.first)

def laterFailure : MediaCall → StartEnv → StartMediaRequest → MediaPlane → Option Status
  | .startTts      => ttsFailure
  | .startVoicebot => voicebotFailure

theorem handle_refused (c : MediaCall) (env : StartEnv) (req : StartMediaRequest) (p : MediaPlane)
    (h : c.refusal env req = some st) : c.handle env req p = (p, st) := by
  cases c with
  | startTts =>
    change handleStartTts env req p = (p, st)
    unfold handleStartTts
    rcases Option.or_eq_some_iff.1 h with h | ⟨hn, h⟩
    · rw [h]
    · dsimp only at h
      rw [hn, h]
  | startVoicebot =>
    change handleStartVoicebot env req p = (p, st)
    unfold handleStartVoicebot
    rcases Option.or_eq_some_iff.1 h with h | ⟨hn, h⟩
    · rw [h]
    · dsimp only at h
      rw [hn, h]

theorem handle_outcome (c : MediaCall) (env : StartEnv) (req : StartMediaRequest) (p : MediaPlane)
    (h : c.refusal env req = none) :
    Outcome (p.removeWriteReplaceForChannel req.channelUuid) (c.laterFailure env req p) (c.handle env req p) := by
  obtain ⟨hreq, hfirst⟩ := Option.or_eq_none_iff.1 h
  cases c with
  | startTts => exact startTts_outcome env req p hreq hfirst
  | startVoicebot => exact startVoicebot_outcome env req p hreq hfirst

end MediaCall

theorem removeWriteReplace_none (p : MediaPlane) (channel : Bytes)
    (h : ∀ s ∈ p.streams, MediaPlane.injectsInto channel s = false) :
    (p.removeWriteReplaceForChannel channel).streams = p.streams ∧
      SameBugs p.bugs (p.removeWriteReplaceForChannel channel).bugs := by
  have hnil : p.streams.filter (MediaPlane.injectsInto channel) = [] :=
    List.filter_eq_nil_iff.2 (fun s hs => by simp [h s hs])
  refine ⟨List.filter_eq_self.2 (fun s hs => by simp [h s hs]), ?_⟩
  rw [MediaPlane.removeWriteReplaceForChannel, MediaPlane.injectorBugs, hnil]
  exact .rfl' _

/-- **A failed call leaves the streams and the bugs as they were, unless it got past its first checks and removed a
stream.** -/
theorem failed_start_unchanged_iff (c : MediaCall) (env : StartEnv) (req : StartMediaRequest) (p : MediaPlane) :
    ((c.handle env req p).2.code ≠ .ok →
      (c.handle env req p).1.streams = p.streams ∧ SameBugs p.bugs (c.handle env req p).1.bugs) ↔
    ¬ (c.refusal env req = none ∧ (∃ s ∈ p.streams, MediaPlane.injectsInto req.channelUuid s = true) ∧
      ∃ st, c.laterFailure env req p = some st) := by
  constructor
  · rintro hsame ⟨href, ⟨s, hs, hinj⟩, st, hfail⟩
    obtain ⟨hst, hcode, hstreams, -⟩ := (c.handle_outcome env req p href).failed st hfail
    have heq := (hsame (hst ▸ hcode)).1
    rw [hstreams] at heq
    -- the stream that injects was there before and is not there after
    have hin : s ∈ (p.removeWriteReplaceForChannel req.channelUuid).streams := heq ▸ hs
    have := (List.mem_filter.1 hin).2
    rw [hinj] at this
    cases this
  · intro hno hcode
    cases href : c.refusal env req with
    | some st =>
      rw [c.handle_refused env req p href]
      exact ⟨rfl, .rfl' _⟩
    | none =>
      have hout := c.handle_outcome env req p href
      cases hfail : c.laterFailure env req p with
      | none => exact absurd (hout.done hfail) hcode
      | some st =>
        obtain ⟨-, -, hstreams, hbugs⟩ := hout.failed st hfail
        obtain ⟨hkeep, hsame⟩ := removeWriteReplace_none p req.channelUuid (fun s hs => by
          by_contra hinj
          exact hno ⟨href, ⟨s, hs, by simpa using hinj⟩, st, hfail⟩)
        exact ⟨hstreams.trans hkeep, hsame.trans hbugs⟩

/-- A call on channel `a`, at the default rate. -/
def startRequest : StartMediaRequest := ⟨str "a", str "tts:50051", 0, []⟩

/-- Everything goes well around a call but for the status of the open. -/
def startEnv (opened : Status) : StartEnv :=
  ⟨true, some ⟨str "a", 8000, 8000⟩, opened, some ⟨str "a", 8000, 8000⟩, ⟨[], true, true, 0, true⟩,
    ⟨[], true, true, 0, true⟩, str "s1"⟩

/-- A call whose upstream cannot be opened fails, and the stream that was playing on its channel is gone with its
bug. -/
theorem failed_open_removes_stream :
    let p := (handleStartTts (startEnv .okay) startRequest .empty).1
    ∀ c : MediaCall,
      let r := c.handle (startEnv ⟨.unavailable, str "connection refused"⟩) startRequest p
      p.streams = [⟨str "a", str "s1", .ttsPlayback, [1]⟩] ∧ (p.bugs.byId 1).isSome = true ∧
        r.2.code = .unavailable ∧ r.1.streams = [] ∧ r.1.bugs.byId 1 = none := by
  intro p c
  cases c <;> decide +kernel

end Control
end Osw
