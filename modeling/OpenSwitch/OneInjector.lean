import OpenSwitch.Run
import OpenSwitch.FailedStart
/-!
# OneInjector — StartTts and StartVoicebot calls on one channel, interleaved

The handlers hold no lock from the removal of earlier streams to the registration of their own: each of the removal, the
open, the attaches and the registration is a step, and calls on one channel take them in any order.  What keeps a second
stream from injecting is `Attach`, and it refuses only a purpose that is there already.  `TTS_PLAYBACK` and
`VOICEBOT_DUPLEX_WRITE` are two purposes of one rank, so a call of each kind may attach.  While no write bug is attached
next to one of the other kind, at most one stream injects into the channel.
-/
namespace Osw
namespace Control

open Media BugManager

/-! ## Calls, step by step -/

/-- A call, with what happens around it. -/
structure Call where
  kind : MediaCall
  env  : StartEnv
  req  : StartMediaRequest

/-- Where a call is: before its first step, past the removal, past the open and the second look at the session, with its
read bug, with all its bugs, back with a status. -/
inductive CallPhase
  | idle
  | cleared
  | opened
  | tapped (readId : Nat)
  | armed (ids : List Nat)
  | returned (st : Status)
  deriving DecidableEq

def CallPhase.isArmed : CallPhase → Bool
  | .armed _ => true
  | _        => false

namespace Call

def checkSession (c : Call) : Option Status :=
  match c.kind with
  | .startTts      => checkTtsSession c.req.rate c.env.second
  | .startVoicebot => checkVoicebotSession c.req.rate c.env.second

def streamPurpose (c : Call) : StreamPurpose :=
  match c.kind with
  | .startTts      => .ttsPlayback
  | .startVoicebot => .voicebotDuplex

/-- The stream the call registers. -/
def stream (c : Call) (ids : List Nat) : ActiveMediaStream := ⟨c.req.channelUuid, c.env.streamId, c.streamPurpose, ids⟩

def readEnv (c : Call) : AttachEnv := attachEnv c.env.second c.env.read

def writeEnv (c : Call) : AttachEnv := attachEnv c.env.second c.env.write

/-- The next step of a call. -/
def next (c : Call) (p : MediaPlane) : CallPhase → Option (MediaPlane × CallPhase)
  | .idle =>
    match c.kind.refusal c.env c.req with
    | some st => some (p, .returned st)
    | none    => some (p.removeWriteReplaceForChannel c.req.channelUuid, .cleared)
  | .cleared =>
    if c.env.opened.code ≠ .ok then some (p, .returned c.env.opened)
    else
      match c.checkSession with
      | some st => some (p, .returned st)
      | none    => some (p, .opened)
  | .opened =>
    match c.kind with
    | .startTts =>
      match p.bugs.attach (ttsConfig c.req) c.writeEnv with
      | (m, .error st) => some (p.withBugs m, .returned st)
      | (m, .ok id)    => some (p.withBugs m, .armed [id])
    | .startVoicebot =>
      match p.bugs.attach (voicebotReadConfig c.req) c.readEnv with
      | (m, .error st) => some (p.withBugs m, .returned st)
      | (m, .ok id)    => some (p.withBugs m, .tapped id)
  | .tapped readId =>
    match p.bugs.attach (voicebotWriteConfig c.req) c.writeEnv with
    | (m, .error st) => some (p.withBugs (m.detach readId), .returned st)
    | (m, .ok id)    => some (p.withBugs m, .armed [readId, id])
  | .armed ids =>
    match registerStream p (c.stream ids) with
    | (p', st) => some (p', .returned st)
  | .returned _ => none

end Call

/-- Calls on one channel; every session located for them is that of the channel. -/
structure ChannelCalls where
  channel   : Bytes
  uuid      : Bytes
  call      : Nat → Call
  onChannel : ∀ i, (call i).req.channelUuid = channel
  onSession : ∀ i v, (call i).env.second = some v → v.uuid = uuid

structure Starts where
  plane : MediaPlane
  phase : Nat → CallPhase

namespace Starts

def init (p : MediaPlane) : Starts := ⟨p, fun _ => .idle⟩

def goto (s : Starts) (i : Nat) (p : MediaPlane) (ph : CallPhase) : Starts := ⟨p, Function.update s.phase i ph⟩

/-- Call `i` makes its next step. -/
def step (cs : ChannelCalls) (s : Starts) (i : Nat) : Option Starts :=
  ((cs.call i).next s.plane (s.phase i)).map (fun r => s.goto i r.1 r.2)

/-- The step attaches no write bug next to one of the other kind. -/
def writesAlone (cs : ChannelCalls) (s : Starts) (i : Nat) : Bool :=
  match s.phase i, (cs.call i).kind with
  | .opened, .startTts => !(s.plane.bugs.purposesOn cs.uuid).contains .voicebotDuplexWrite
  | .tapped _, _       => !(s.plane.bugs.purposesOn cs.uuid).contains .ttsPlayback
  | _, _               => true

/-! ## One call by itself -/

theorem goto_goto (s : Starts) (i : Nat) (p p' : MediaPlane) (ph ph' : CallPhase) :
    (s.goto i p ph).goto i p' ph' = s.goto i p' ph' := by
  simp only [goto, Function.update_idem]

theorem step_goto (cs : ChannelCalls) (s : Starts) (i : Nat) (p : MediaPlane) (ph : CallPhase) :
    step cs (s.goto i p ph) i = ((cs.call i).next p ph).map (fun r => s.goto i r.1 r.2) := by
  simp only [step, goto_goto]
  simp only [goto, Function.update_self]

/-- A call that takes its steps one after another from a phase comes back with a result. -/
inductive Finishes (c : Call) : MediaPlane → CallPhase → MediaPlane × Status → Prop
  | back {p : MediaPlane} {st : Status} : Finishes c p (.returned st) (p, st)
  | next {p p' : MediaPlane} {ph ph' : CallPhase} {r : MediaPlane × Status} (h : c.next p ph = some (p', ph'))
      (hr : Finishes c p' ph' r) : Finishes c p ph r

variable {ph : CallPhase} {cs : ChannelCalls} {p : MediaPlane} {i id : Nat} {req : StartMediaRequest}
  {m m' : BugManager} {s : Starts}

theorem Finishes.exec (s : Starts) {r : MediaPlane × Status} (h : Finishes (cs.call i) p ph r) :
    ∃ n, Run.exec (step cs) (List.replicate n i) (s.goto i p ph) = some (s.goto i r.1 (.returned r.2)) := by
  induction h with
  | back => exact ⟨0, rfl⟩
  | next h _ ih =>
    obtain ⟨n, hn⟩ := ih
    refine ⟨n + 1, ?_⟩
    rw [List.replicate_succ, Run.exec, step_goto, h]
    exact hn

/-- The open and the second look at the session, before the rest of the call. -/
theorem Finishes.opened {c : Call} {r : MediaPlane × Status} (hr : Finishes c p .opened r) :
    Finishes c p .cleared
      (if c.env.opened.code ≠ .ok then (p, c.env.opened) else
        match c.checkSession with
        | some st => (p, st)
        | none    => r) := by
  split
  · rename_i hopen
    exact .next (if_pos hopen) .back
  rename_i hopen
  cases hsecond : c.checkSession with
  | some st => exact .next (by simp only [Call.next, if_neg hopen, hsecond]) .back
  | none => exact .next (by simp only [Call.next, if_neg hopen, hsecond]) hr

theorem finishes_startTts {env : StartEnv} (p : MediaPlane) (hpass : MediaCall.startTts.refusal env req = none) :
    Finishes ⟨.startTts, env, req⟩ p .idle (handleStartTts env req p) := by
  obtain ⟨hreq, hfirst⟩ := Option.or_eq_none_iff.1 hpass
  dsimp only at hfirst
  unfold handleStartTts
  rw [hreq, hfirst]
  refine .next (by simp only [Call.next, hpass]; rfl) ?_
  generalize p.removeWriteReplaceForChannel req.channelUuid = p₁
  refine Finishes.opened (c := ⟨.startTts, env, req⟩) ?_
  rcases hat : p₁.bugs.attach (ttsConfig req) (attachEnv env.second env.write) with ⟨m, st | id⟩
  · exact .next (by simp only [Call.next, Call.writeEnv, hat]) .back
  · refine .next (by simp only [Call.next, Call.writeEnv, hat]; rfl) ?_
    exact .next rfl .back

theorem finishes_startVoicebot {env : StartEnv} (p : MediaPlane)
    (hpass : MediaCall.startVoicebot.refusal env req = none) :
    Finishes ⟨.startVoicebot, env, req⟩ p .idle (handleStartVoicebot env req p) := by
  obtain ⟨hreq, hfirst⟩ := Option.or_eq_none_iff.1 hpass
  dsimp only at hfirst
  unfold handleStartVoicebot
  rw [hreq, hfirst]
  refine .next (by simp only [Call.next, hpass]; rfl) ?_
  generalize p.removeWriteReplaceForChannel req.channelUuid = p₁
  refine Finishes.opened (c := ⟨.startVoicebot, env, req⟩) ?_
  rcases hread : p₁.bugs.attach (voicebotReadConfig req) (attachEnv env.second env.read) with ⟨m, st | readId⟩
  · exact .next (by simp only [Call.next, Call.readEnv, hread]) .back
  · refine .next (by simp only [Call.next, Call.readEnv, hread]; rfl) ?_
    dsimp only
    rcases hwrite : m.attach (voicebotWriteConfig req) (attachEnv env.second env.write) with ⟨m', st | writeId⟩
    · exact .next (by simp only [Call.next, Call.writeEnv, MediaPlane.withBugs, hwrite]) .back
    · refine .next (by simp only [Call.next, Call.writeEnv, MediaPlane.withBugs, hwrite]; rfl) ?_
      exact .next rfl .back

theorem finishes_handle (c : Call) (p : MediaPlane) : Finishes c p .idle (c.kind.handle c.env c.req p) := by
  obtain ⟨kind, env, req⟩ := c
  cases href : kind.refusal env req with
  | some st =>
    rw [kind.handle_refused env req p href]
    exact .next (by simp only [Call.next, href]) .back
  | none =>
    cases kind with
    | startTts => exact finishes_startTts p href
    | startVoicebot => exact finishes_startVoicebot p href

/-- **A call that no other interrupts is its handler.** -/
theorem uninterrupted (cs : ChannelCalls) (s : Starts) (i : Nat) (hidle : s.phase i = .idle) :
    ∃ n, Run.exec (step cs) (List.replicate n i) s =
      let r := (cs.call i).kind.handle (cs.call i).env (cs.call i).req s.plane
      some (s.goto i r.1 (.returned r.2)) := by
  have hs : s.goto i s.plane .idle = s := by rw [← hidle, goto, Function.update_eq_self]
  obtain ⟨n, hn⟩ := (finishes_handle (cs.call i) s.plane).exec s
  rw [hs] at hn
  exact ⟨n, hn⟩

/-! ## Bugs that inject -/

/-- The session has a bug that injects. -/
def HasInject (m : BugManager) (uuid : Bytes) : Prop :=
  ∃ id r, m.byId id = some r ∧ r.channelUuid = uuid ∧ isInject r.config.purpose = true

/-- A drawn id that is not that of a bug that injects. -/
def Silent (m : BugManager) (id : Nat) : Prop :=
  id < m.nextId ∧ ∀ r, m.byId id = some r → isInject r.config.purpose = false

/-- No id that was drawn in `m` has come to be that of a new bug. -/
structure NoRevival (m m' : BugManager) : Prop where
  old   : ∀ id r, id < m.nextId → m'.byId id = some r → m.byId id = some r
  grows : m.nextId ≤ m'.nextId

theorem NoRevival.trans {m'' : BugManager} (h : NoRevival m m') (h' : NoRevival m' m'') : NoRevival m m'' :=
  ⟨fun id r hid hr => h.old id r hid (h'.old id r (hid.trans_le h.grows) hr), h.grows.trans h'.grows⟩

/-- And every bug that injects is still there. -/
structure KeepsInject (m m' : BugManager) : Prop extends NoRevival m m' where
  kept : ∀ id r, m.byId id = some r → isInject r.config.purpose = true → m'.byId id = some r

theorem KeepsInject.hasInject (h : KeepsInject m m') {uuid : Bytes} :
    HasInject m uuid → HasInject m' uuid
  | ⟨id, r, hr, hu, hi⟩ => ⟨id, r, h.kept id r hr hi, hu, hi⟩

theorem keepsInject_refl (m : BugManager) : KeepsInject m m :=
  ⟨⟨fun _ _ _ h => h, Nat.le_refl _⟩, fun _ _ h _ => h⟩

theorem noRevival_detachEach (m : BugManager) (ids : List Nat) : NoRevival m (m.detachEach ids) := by
  refine ⟨fun id r _ h => ?_, Nat.le_of_eq (detachEach_nextId ids m).symm⟩
  rw [detachEach_byId] at h
  split at h
  · cases h
  · exact h

theorem keepsInject_attach (m : BugManager) (cfg : BugConfig) (env : AttachEnv) :
    KeepsInject m (m.attach cfg env).1 := by
  have hgrows := m.attach_nextId cfg env
  rcases m.attach_cases cfg env with ⟨st, -, -, hsame⟩ | ⟨-, hr⟩
  · exact ⟨⟨fun id r _ h => hsame.1 ▸ h, hgrows⟩, fun id r h _ => hsame.1 ▸ h⟩
  · rw [hr] at hgrows ⊢
    refine ⟨⟨fun id r hid h => ?_, hgrows⟩, fun id r h _ => ?_⟩
    · rwa [register_byId_of_ne m (Nat.ne_of_lt hid)] at h
    · rwa [register_byId_of_ne m (Nat.ne_of_lt (m.fresh id r h))]

theorem KeepsInject.detach (h : KeepsInject m m') (hid : Silent m id) : KeepsInject m (m'.detach id) := by
  refine ⟨⟨fun x r hx hr => ?_, ?_⟩, fun x r hr hi => ?_⟩
  · rw [detach_byId] at hr
    by_cases hxi : x = id
    · subst hxi
      rw [Function.update_self] at hr
      cases hr
    · rw [Function.update_of_ne hxi] at hr
      exact h.old x r hx hr
  · rw [detach_nextId]
    exact h.grows
  · have hxi : x ≠ id := by
      rintro rfl
      rw [hid.2 r hr] at hi
      cases hi
    rw [detach_byId, Function.update_of_ne hxi]
    exact h.kept x r hr hi

theorem silent_readBug {env : AttachEnv} (h : m.attach (voicebotReadConfig req) env = (m', .ok id)) : Silent m' id := by
  rcases m.attach_cases (voicebotReadConfig req) env with ⟨st, -, hr, -⟩ | ⟨-, hr⟩
  · rw [h] at hr
    cases hr
  · rw [h] at hr
    cases hr
    refine ⟨Nat.lt_succ_self _, fun r hr => ?_⟩
    rw [register_byId_self] at hr
    cases hr
    rfl

theorem not_hasInject {uuid : Bytes} (ht : Purpose.ttsPlayback ∉ m.purposesOn uuid)
    (hv : Purpose.voicebotDuplexWrite ∉ m.purposesOn uuid) : ¬ HasInject m uuid := by
  rintro ⟨id, r, hr, hu, hi⟩
  have hmem := m.mem_purposesOn.2 ⟨id, r, hr, hu, rfl⟩
  rcases Bool.or_eq_true_iff.1 hi with hp | hp
  · exact ht (eq_of_beq hp ▸ hmem)
  · exact hv (eq_of_beq hp ▸ hmem)

/-! ## At most one holder -/

/-- The streams that inject into the channel. -/
def injectors (cs : ChannelCalls) (s : Starts) : List ActiveMediaStream :=
  s.plane.streams.filter (MediaPlane.injectsInto cs.channel)

/-- The channel has at most one holder, a stream that injects or a call that has its write bug, and while it has one the
session has a bug that injects.  The read bug of a call does not inject. -/
structure Exclusive (cs : ChannelCalls) (s : Starts) : Prop where
  one    : (injectors cs s).length ≤ 1
  single : ∀ i j, (s.phase i).isArmed = true → (s.phase j).isArmed = true → i = j
  vacant : ∀ i, (s.phase i).isArmed = true → injectors cs s = []
  armed  : ∀ i, (s.phase i).isArmed = true → HasInject s.plane.bugs cs.uuid
  backed : injectors cs s ≠ [] → HasInject s.plane.bugs cs.uuid
  taps   : ∀ i id, s.phase i = .tapped id → Silent s.plane.bugs id

theorem goto_phase_self (s : Starts) (i : Nat) (p : MediaPlane) (ph : CallPhase) : (s.goto i p ph).phase i = ph :=
  Function.update_self ..

theorem goto_phase_ne (s : Starts) {j : Nat} (p : MediaPlane) (ph : CallPhase) (h : j ≠ i) :
    (s.goto i p ph).phase j = s.phase j := Function.update_of_ne h ..

theorem armed_of_goto {j : Nat} (hph : ph.isArmed = false) (h : ((s.goto i p ph).phase j).isArmed = true) :
    j ≠ i ∧ (s.phase j).isArmed = true := by
  by_cases hj : j = i
  · subst hj
    rw [goto_phase_self, hph] at h
    cases h
  · rw [goto_phase_ne s p ph hj] at h
    exact ⟨hj, h⟩

theorem Exclusive.taps_goto (hs : Exclusive cs s) (hbugs : NoRevival s.plane.bugs p.bugs)
    (htap : ∀ id, ph = .tapped id → Silent p.bugs id) (j id : Nat) (h : (s.goto i p ph).phase j = .tapped id) :
    Silent p.bugs id := by
  by_cases hj : j = i
  · subst hj
    rw [goto_phase_self] at h
    exact htap id h
  · rw [goto_phase_ne s p ph hj] at h
    obtain ⟨hlt, hno⟩ := hs.taps j id h
    exact ⟨Nat.lt_of_lt_of_le hlt hbugs.grows, fun r hr => hno r (hbugs.old id r hlt hr)⟩

theorem Exclusive.quiet (hs : Exclusive cs s) (i : Nat) (hstreams : p.streams = s.plane.streams)
    (hbugs : KeepsInject s.plane.bugs p.bugs) (hph : ph.isArmed = false)
    (htap : ∀ id, ph = .tapped id → Silent p.bugs id) : Exclusive cs (s.goto i p ph) := by
  have hinj : injectors cs (s.goto i p ph) = injectors cs s := congrArg (List.filter _) hstreams
  refine ⟨hinj ▸ hs.one, fun j k hj hk => ?_, fun j hj => ?_, fun j hj => ?_, fun hne => ?_,
    hs.taps_goto hbugs.toNoRevival htap⟩
  · exact hs.single j k (armed_of_goto hph hj).2 (armed_of_goto hph hk).2
  · rw [hinj]
    exact hs.vacant j (armed_of_goto hph hj).2
  · exact hbugs.hasInject (hs.armed j (armed_of_goto hph hj).2)
  · exact hbugs.hasInject (hs.backed (hinj ▸ hne))

/-- The removal: the streams that inject are gone, and no call is armed while there are any. -/
theorem Exclusive.clear (hs : Exclusive cs s) (i : Nat) :
    Exclusive cs (s.goto i (s.plane.removeWriteReplaceForChannel cs.channel) .cleared) := by
  have hbugs := noRevival_detachEach s.plane.bugs (s.plane.injectorBugs cs.channel)
  by_cases hnil : injectors cs s = []
  · refine hs.quiet i ?_ ⟨hbugs, fun id r hr _ => ?_⟩ rfl nofun
    · exact List.filter_eq_self.2 (fun x hx => by simpa using List.filter_eq_nil_iff.1 hnil x hx)
    · have hids : s.plane.injectorBugs cs.channel = [] := by
        rw [MediaPlane.injectorBugs, show s.plane.streams.filter _ = [] from hnil, List.flatMap_nil]
      rw [MediaPlane.removeWriteReplaceForChannel, hids]
      exact hr
  · have hnone : ∀ j, (s.phase j).isArmed = true → False := fun j hj => hnil (hs.vacant j hj)
    have hgone : injectors cs (s.goto i (s.plane.removeWriteReplaceForChannel cs.channel) .cleared) = [] := by
      refine List.filter_eq_nil_iff.2 (fun x hx => ?_)
      simpa using (List.mem_filter.1 hx).2
    exact ⟨by rw [hgone]; exact Nat.zero_le 1, fun j _ hj => (hnone j (armed_of_goto rfl hj).2).elim,
      fun _ _ => hgone, fun j hj => (hnone j (armed_of_goto rfl hj).2).elim, fun hne => absurd hgone hne,
      hs.taps_goto hbugs nofun⟩

/-- The write bug of a call is attached to a session that has no bug that injects. -/
theorem Exclusive.arm (hs : Exclusive cs s) (i : Nat) {cfg : BugConfig} (hno : ¬ HasInject s.plane.bugs cs.uuid)
    (hcfg : isInject cfg.purpose = true) (ids : List Nat)
    (hbugs : NoRevival s.plane.bugs (s.plane.bugs.register cs.uuid cfg)) :
    Exclusive cs (s.goto i (s.plane.withBugs (s.plane.bugs.register cs.uuid cfg)) (.armed ids)) := by
  have hnil : injectors cs s = [] := by
    by_contra hne
    exact hno (hs.backed hne)
  have honly : ∀ j, ((s.goto i (s.plane.withBugs (s.plane.bugs.register cs.uuid cfg)) (.armed ids)).phase j).isArmed =
      true → j = i := by
    intro j hj
    by_contra hne
    rw [goto_phase_ne s _ _ hne] at hj
    exact hno (hs.armed j hj)
  have hnew : HasInject (s.plane.bugs.register cs.uuid cfg) cs.uuid :=
    ⟨_, _, register_byId_self _ _ _, rfl, hcfg⟩
  refine ⟨?_, fun j k hj hk => (honly j hj).trans (honly k hk).symm, fun _ _ => hnil, fun _ _ => hnew, fun _ => hnew,
    hs.taps_goto hbugs nofun⟩
  change (injectors cs s).length ≤ 1
  rw [hnil]
  exact Nat.zero_le 1

theorem Exclusive.register (hs : Exclusive cs s) (hi : (s.phase i).isArmed = true) (x : ActiveMediaStream) :
    let r := registerStream s.plane x
    Exclusive cs (s.goto i r.1 (.returned r.2)) := by
  have hnil := hs.vacant i hi
  have hnone : ∀ (p : MediaPlane) (st : Status) (j : Nat), ((s.goto i p (.returned st)).phase j).isArmed = true → False := by
    intro p st j hj
    obtain ⟨hne, hj⟩ := armed_of_goto rfl hj
    exact hne (hs.single j i hj hi)
  unfold registerStream MediaPlane.insert
  by_cases hcol : s.plane.collides x
  · rw [dif_pos hcol]
    refine ⟨hs.one, fun j _ hj => (hnone _ _ j hj).elim, fun j hj => (hnone _ _ j hj).elim,
      fun j hj => (hnone _ _ j hj).elim, fun hne => absurd hnil hne, hs.taps_goto (noRevival_detachEach _ _) nofun⟩
  · rw [dif_neg hcol]
    refine ⟨?_, fun j _ hj => (hnone _ _ j hj).elim, fun j hj => (hnone _ _ j hj).elim,
      fun j hj => (hnone _ _ j hj).elim, fun _ => hs.armed i hi, hs.taps_goto (keepsInject_refl _).toNoRevival nofun⟩
    change ((s.plane.streams ++ [x]).filter _).length ≤ 1
    rw [List.filter_append, show s.plane.streams.filter _ = [] from hnil, List.nil_append]
    exact List.length_filter_le _ [x]

theorem writeEnv_uuid (cs : ChannelCalls) (i : Nat) :
    (cs.call i).writeEnv.uuid = cs.uuid ∨ (cs.call i).writeEnv.uuid = [] := by
  unfold Call.writeEnv attachEnv
  cases hv : (cs.call i).env.second with
  | none => exact .inr rfl
  | some v => exact .inl (cs.onSession i v hv)

/-- A write attach that succeeds, when a session without its purpose has no bug that injects. -/
theorem Exclusive.write (hs : Exclusive cs s) (i : Nat) {cfg : BugConfig}
    (hat : s.plane.bugs.attach cfg (cs.call i).writeEnv = (m, .ok id)) (hcfg : isInject cfg.purpose = true)
    (hother : cfg.purpose ∉ s.plane.bugs.purposesOn cs.uuid → ¬ HasInject s.plane.bugs cs.uuid) (ids : List Nat) :
    Exclusive cs (s.goto i (s.plane.withBugs m) (.armed ids)) := by
  have hbugs := keepsInject_attach s.plane.bugs cfg (cs.call i).writeEnv
  have hrelay : cfg.purpose ≠ .recordingRelay := by
    intro hp
    rw [hp] at hcfg
    cases hcfg
  rcases s.plane.bugs.attach_cases cfg (cs.call i).writeEnv with ⟨st, -, hr, -⟩ | ⟨he, hr⟩
  · rw [hat] at hr
    cases hr
  · obtain ⟨hu, hmem⟩ := not_mem_of_attachError he hrelay
    have huuid := (writeEnv_uuid cs i).resolve_right hu
    rw [hr, huuid] at hbugs
    rw [huuid] at hmem
    rw [hat, huuid] at hr
    cases hr
    exact hs.arm i (hother hmem) (by rw [effectiveConfig_purpose]; exact hcfg) ids hbugs.toNoRevival

/-- A step that attaches a bug.  When the attach fails, `undo` is what the call still does to the registry. -/
theorem Exclusive.attach (hs : Exclusive cs s) (i : Nat) (cfg : BugConfig) (env : AttachEnv)
    (undo : BugManager → BugManager) (ph : Nat → CallPhase) {r : MediaPlane × CallPhase}
    (hn : (match s.plane.bugs.attach cfg env with
      | (m, .error st) => some (s.plane.withBugs (undo m), CallPhase.returned st)
      | (m, .ok id)    => some (s.plane.withBugs m, ph id)) = some r)
    (hundo : ∀ m, KeepsInject s.plane.bugs m → KeepsInject s.plane.bugs (undo m))
    (hok : ∀ m id, s.plane.bugs.attach cfg env = (m, .ok id) → Exclusive cs (s.goto i (s.plane.withBugs m) (ph id))) :
    Exclusive cs (s.goto i r.1 r.2) := by
  have hkeep := keepsInject_attach s.plane.bugs cfg env
  rcases hat : s.plane.bugs.attach cfg env with ⟨m, st | id⟩
  · rw [hat] at hn hkeep
    cases hn
    exact hs.quiet i rfl (hundo m hkeep) rfl nofun
  · rw [hat] at hn
    cases hn
    exact hok m id hat

theorem Exclusive.step {s' : Starts} (hs : Exclusive cs s) (hok : writesAlone cs s i = true)
    (h : step cs s i = some s') : Exclusive cs s' := by
  obtain ⟨r, hn, rfl⟩ := Option.map_eq_some_iff.1 h
  unfold writesAlone at hok
  cases hph : s.phase i with
  | idle =>
    rw [hph] at hn
    simp only [Call.next, cs.onChannel i] at hn
    split at hn
    · cases hn
      exact hs.quiet i rfl (keepsInject_refl _) rfl nofun
    · cases hn
      exact hs.clear i
  | cleared =>
    rw [hph] at hn
    simp only [Call.next] at hn
    split at hn
    · cases hn
      exact hs.quiet i rfl (keepsInject_refl _) rfl nofun
    · split at hn <;> cases hn <;> exact hs.quiet i rfl (keepsInject_refl _) rfl nofun
  | opened =>
    rw [hph] at hn
    cases hk : (cs.call i).kind with
    | startTts =>
      rw [hph, hk] at hok
      have hvoicebot : Purpose.voicebotDuplexWrite ∉ s.plane.bugs.purposesOn cs.uuid := by simpa using hok
      simp only [Call.next, hk] at hn
      refine hs.attach i _ _ id (fun id => .armed [id]) hn (fun _ h => h) (fun m id hat => ?_)
      exact hs.write i hat rfl (fun htts => not_hasInject htts hvoicebot) [id]
    | startVoicebot =>
      simp only [Call.next, hk] at hn
      refine hs.attach i _ _ id .tapped hn (fun _ h => h) (fun m id hat => ?_)
      have hkeep := keepsInject_attach s.plane.bugs (voicebotReadConfig (cs.call i).req) (cs.call i).readEnv
      rw [hat] at hkeep
      refine hs.quiet i rfl hkeep rfl (fun id' hid => ?_)
      cases hid
      exact silent_readBug hat
  | tapped readId =>
    rw [hph] at hok hn
    have htts : Purpose.ttsPlayback ∉ s.plane.bugs.purposesOn cs.uuid := by simpa using hok
    refine hs.attach i _ _ (fun m => m.detach readId) (fun id => .armed [readId, id]) hn
      (fun _ h => h.detach (hs.taps i readId hph)) (fun m id hat => ?_)
    exact hs.write i hat rfl (fun hvoicebot => not_hasInject htts hvoicebot) [readId, id]
  | armed ids =>
    rw [hph] at hn
    cases hn
    exact hs.register (by rw [hph]; rfl) _
  | returned st =>
    rw [hph] at hn
    cases hn

theorem exclusive_init (hone : (injectors cs (init p)).length ≤ 1)
    (hbacked : injectors cs (init p) ≠ [] → HasInject p.bugs cs.uuid) : Exclusive cs (init p) :=
  ⟨hone, fun _ _ h => (by cases h), fun _ h => (by cases h), fun _ h => (by cases h), hbacked, fun _ _ h => (by cases h)⟩

/-- **At most one stream injects into the channel** in every state of every run that attaches no write bug next to one of
the other kind, when that is so at the start. -/
theorem one_injecting_stream (cs : ChannelCalls) (p : MediaPlane) (hone : (injectors cs (init p)).length ≤ 1)
    (hbacked : injectors cs (init p) ≠ [] → HasInject p.bugs cs.uuid) (sched : List Nat) (s : Starts)
    (hrun : Run.exec (step cs) sched (init p) = some s)
    (hok : Run.along (step cs) (writesAlone cs) sched (init p) = true) : (injectors cs s).length ≤ 1 := by
  have hstep : ∀ s i s', Exclusive cs s → writesAlone cs s i = true → step cs s i = some s' → Exclusive cs s' :=
    fun _ _ _ hs hok h => hs.step hok h
  exact (Run.exec_inv_along hstep sched (init p) s (exclusive_init hone hbacked) hok hrun).one

/-- A `StartVoicebot` and any number of `StartTts` on channel `a`. -/
def rivals : ChannelCalls where
  channel := str "a"
  uuid := str "a"
  call i := ⟨if i = 0 then .startVoicebot else .startTts,
    { startEnv .okay with streamId := if i = 0 then str "v" else str "t" }, startRequest⟩
  onChannel _ := rfl
  onSession _ _ h := by cases h; rfl

/-- The `StartTts` attaches first: the read bug of the other call comes too late. -/
def ttsFirst : List Nat := [0, 1, 0, 1, 1, 0, 1]

theorem one_injecting_stream_ttsFirst :
    ∃ s, Run.exec (step rivals) ttsFirst (init .empty) = some s ∧
      s.phase 0 = .returned ⟨.failedPrecondition,
        str "out-of-order attach: purpose=voicebot_duplex_read rank=2 already-attached max-rank=3"⟩ ∧
      s.phase 1 = .returned .okay ∧ (injectors rivals s).length ≤ 1 := by
  have hm : (Run.exec (step rivals) ttsFirst (init .empty)).map (fun s => (s.phase 0, s.phase 1)) =
      some (.returned ⟨.failedPrecondition,
        str "out-of-order attach: purpose=voicebot_duplex_read rank=2 already-attached max-rank=3"⟩,
        .returned .okay) := by
    decide +kernel
  obtain ⟨s, hs, hf⟩ := Option.map_eq_some_iff.1 hm
  obtain ⟨h0, h1⟩ := Prod.ext_iff.1 hf
  exact ⟨s, hs, h0, h1, one_injecting_stream rivals .empty (Nat.zero_le 1) (fun h => absurd rfl h) ttsFirst s hs
    (by decide +kernel)⟩

theorem uninterrupted_rivals : ∃ n, Run.exec (step rivals) (List.replicate n 1) (init .empty) =
    let r := MediaCall.startTts.handle (rivals.call 1).env (rivals.call 1).req .empty
    some ((init .empty).goto 1 r.1 (.returned r.2)) :=
  uninterrupted rivals (init .empty) 1 rfl

/-- Both calls remove and open before either attaches, and the read bug comes first: then both write bugs are attached,
and both streams stay. -/
theorem two_injecting_streams :
    (Run.exec (step rivals) [0, 1, 0, 1, 0, 1, 0, 1, 0] (init .empty)).map
      (fun s => (s.phase 0, s.phase 1, (injectors rivals s).map (·.purpose))) =
    some (.returned .okay, .returned .okay, [.ttsPlayback, .voicebotDuplex]) := by
  decide +kernel

end Starts
end Control
end Osw
