import OpenSwitch.Run
import OpenSwitch.EavesdropPolicy
/-!
# Eavesdrop — enforcing a deny policy on a channel

Start calls of any tenants, `osw_eavesdrop` calls, raw eavesdrop attaches and the `MEDIA_BUG_START` detector act on one
channel in any order; every read and write of a channel variable is a step.  `StartTts`, `StartVoicebot` and `StartBot`
mark the channel between attaching their bugs and registering their stream; `StartStt` does not mark it.  The detector
acts on what the marker says when it runs, so a deny policy is enforced against every eavesdropper whose detector runs
after the mark, as long as no weaker tenant writes over it.
-/
namespace Osw
namespace Security

inductive StartKind
  | tts
  | stt
  | voicebot
  | bot
  deriving DecidableEq, Repr

/-- A Start call: its kind, and the tenant and purpose it marks the channel with. -/
structure StartCall where
  kind    : StartKind
  tenant  : Bytes
  purpose : Bytes
  deriving DecidableEq, Repr

/-- Where a Start call is.  A call that is `attached` has written as many variables of the marker. -/
inductive StartPhase
  | idle
  | begun
  | attached (written : Nat)
  | active
  | failed
  | removed
  deriving DecidableEq, Repr

/-- An eavesdropper: through the application (it looked at the mark, it may attach, it was refused) or raw; then its
bug is attached, and the detector runs on it until it has settled. -/
inductive TapPhase
  | idle
  | looked
  | cleared
  | refused
  | attached
  | detecting
  | condemned
  | settled
  deriving DecidableEq, Repr

/-- The channel and everyone who acts on it.  `marks` are the calls that have written their policy, in that order;
`seen j` are those of them that had done so when the detector began to run on tap `j`. -/
structure Watch where
  config : PolicyConfig
  calls  : Nat → StartCall
  chan   : Channel
  phase  : Nat → StartPhase
  tap    : Nat → TapPhase
  marks  : List Nat
  seen   : Nat → List Nat

inductive WatchAct
  | begin (i : Nat)
  | attach (i : Nat)
  | mark (i : Nat)
  | insert (i : Nat)
  | giveUp (i : Nat)
  | appMiss (j : Nat)
  | appLook (j : Nat)
  | appRead (j : Nat)
  | appAttach (j : Nat)
  | rawAttach (j : Nat)
  | detect (j : Nat)
  | detectRead (j : Nat)
  | detectHangup (j : Nat)
  | hangup
  deriving DecidableEq, Repr

namespace Watch

def init (config : PolicyConfig) (calls : Nat → StartCall) (chan : Channel) : Watch :=
  ⟨config, calls, chan, fun _ => .idle, fun _ => .idle, [], fun _ => []⟩

/-- The policy of call `i`'s tenant. -/
def policy (s : Watch) (i : Nat) : EavesdropPolicy := resolveEffectivePolicy s.config (s.calls i).tenant

def setPhase (s : Watch) (i : Nat) (p : StartPhase) : Watch := { s with phase := Function.update s.phase i p }

def setTap (s : Watch) (j : Nat) (p : TapPhase) : Watch := { s with tap := Function.update s.tap j p }

def injects (k : StartKind) : Bool := k == .tts || k == .voicebot

/-- `RemoveWriteReplaceForChannel`: the active TTS and voicebot streams of the channel go. -/
def removeWriteReplace (s : Watch) : Watch :=
  { s with phase := fun k => if injects (s.calls k).kind && s.phase k == .active then .removed else s.phase k }

/-- Nothing is left of the call but to register its stream: it marks nothing, it has written the whole marker, or it is
a `StartBot` that could not lock its target. -/
def ready (s : Watch) (i n : Nat) : Bool :=
  (s.calls i).kind == .stt || n == 4 || ((s.calls i).kind == .bot && s.chan.hungUp)

/-- The next write of `MarkBotSession`. -/
def markStep (s : Watch) (i n : Nat) : Option Watch :=
  match (markWrites (s.calls i).purpose (s.policy i) (s.calls i).tenant)[n]? with
  | none => none
  | some (k, v) =>
    some { s.setPhase i (.attached (n + 1)) with
      chan  := s.chan.setVariable k (cStr v)
      marks := if n = 2 then s.marks ++ [i] else s.marks }

def startStep (s : Watch) : WatchAct → Option Watch
  | .begin i =>
    match s.phase i with
    | .idle => some ((if injects (s.calls i).kind then s.removeWriteReplace else s).setPhase i .begun)
    | _     => none
  | .attach i =>
    match s.phase i with
    | .begun => some (s.setPhase i (.attached 0))
    | _      => none
  | .mark i =>
    match s.phase i with
    | .attached n => if (s.calls i).kind = .stt then none else s.markStep i n
    | _           => none
  | .insert i =>
    match s.phase i with
    | .attached n => if s.ready i n then some (s.setPhase i .active) else none
    | _           => none
  | .giveUp i =>
    match s.phase i with
    | .begun      => some (s.setPhase i .failed)
    | .attached n => if s.ready i n then some (s.setPhase i .failed) else none
    | _           => none
  | _ => none

def tapStep (s : Watch) : WatchAct → Option Watch
  | .appMiss j =>
    match s.tap j with
    | .idle | .cleared => some (s.setTap j .refused)
    | _                => none
  | .appLook j =>
    match s.tap j with
    | .idle => some (s.setTap j (if isMarked s.chan then .looked else .cleared))
    | _     => none
  | .appRead j =>
    match s.tap j with
    | .looked => some (s.setTap j (if readPolicy s.chan = .deny then .refused else .cleared))
    | _       => none
  | .appAttach j =>
    match s.tap j with
    | .cleared => some (s.setTap j .attached)
    | _        => none
  | .rawAttach j =>
    match s.tap j with
    | .idle => some (s.setTap j .attached)
    | _     => none
  | .detect j =>
    match s.tap j with
    | .attached =>
      some { s.setTap j (if isMarked s.chan then .detecting else .settled) with
        seen := Function.update s.seen j s.marks }
    | _ => none
  | .detectRead j =>
    match s.tap j with
    | .detecting => some (s.setTap j (if readPolicy s.chan = .deny then .condemned else .settled))
    | _          => none
  | .detectHangup j =>
    match s.tap j with
    | .condemned => some { s.setTap j .settled with chan := { s.chan with hungUp := true } }
    | _          => none
  | _ => none

def step (s : Watch) (a : WatchAct) : Option Watch :=
  match a with
  | .hangup => some { s with chan := { s.chan with hungUp := true } }
  | .begin _ | .attach _ | .mark _ | .insert _ | .giveUp _ => s.startStep a
  | _ => s.tapStep a

/-- No step is left to a Start call or to an eavesdropper. -/
def Finished (s : Watch) : Prop :=
  (∀ i, s.phase i = .idle ∨ s.phase i = .active ∨ s.phase i = .failed ∨ s.phase i = .removed) ∧
  ∀ j, s.tap j = .idle ∨ s.tap j = .refused ∨ s.tap j = .settled

/-- An eavesdrop bug is on the channel, which is up, with an active stream of a tenant whose policy is deny. -/
def Breached (s : Watch) : Prop :=
  (∃ j, s.tap j = .settled) ∧ (∃ i, s.phase i = .active ∧ s.policy i = .deny) ∧ s.chan.hungUp = false

/-! ## What a step does -/

variable {s s' : Watch} {a : WatchAct} {i n : Nat} {p : StartPhase}

/-- The moves of a Start call other than a write of the marker. -/
inductive Move : StartPhase → StartPhase → Prop
  | stay (p : StartPhase) : Move p p
  | begin : Move .idle .begun
  | attach : Move .begun (.attached 0)
  | insert (n : Nat) : Move (.attached n) .active
  | refuse : Move .begun .failed
  | fail (n : Nat) : Move (.attached n) .failed
  | remove : Move .active .removed

/-- Everything but the phases of the Start calls is as before. -/
structure SamePlace (s s' : Watch) : Prop where
  config : s'.config = s.config
  calls : s'.calls = s.calls
  chan : s'.chan = s.chan
  tap : s'.tap = s.tap
  marks : s'.marks = s.marks
  seen : s'.seen = s.seen

theorem moves_setPhase (h : Move (s.phase i) p) : ∀ k, Move (s.phase k) ((s.setPhase i p).phase k) := by
  intro k
  by_cases hk : k = i
  · subst hk
    simpa only [setPhase, Function.update_self] using h
  · simp only [setPhase, Function.update_of_ne hk]
    exact .stay _

theorem moves_removeWriteReplace (s : Watch) : ∀ k, Move (s.phase k) (s.removeWriteReplace.phase k) := by
  intro k
  simp only [removeWriteReplace]
  split
  · rename_i h
    rw [Bool.and_eq_true, beq_iff_eq] at h
    rw [h.2]
    exact .remove
  · exact .stay _

theorem startStep_cases (h : s.startStep a = some s') :
    (SamePlace s s' ∧ ∀ k, Move (s.phase k) (s'.phase k)) ∨
    ∃ i n, a = .mark i ∧ s.phase i = .attached n ∧ s.markStep i n = some s' := by
  cases a with
  | begin i =>
    simp only [startStep] at h
    split at h
    · rename_i hp
      cases h
      refine .inl ⟨by split <;> exact ⟨rfl, rfl, rfl, rfl, rfl, rfl⟩, fun k => ?_⟩
      by_cases hk : k = i
      · subst hk
        rw [hp]
        simp only [setPhase, Function.update_self]
        exact .begin
      · simp only [setPhase, Function.update_of_ne hk]
        split
        · exact moves_removeWriteReplace s k
        · exact .stay _
    · cases h
  | attach i =>
    simp only [startStep] at h
    split at h
    · rename_i hp
      cases h
      exact .inl ⟨⟨rfl, rfl, rfl, rfl, rfl, rfl⟩, moves_setPhase (hp ▸ .attach)⟩
    · cases h
  | mark i =>
    simp only [startStep] at h
    split at h
    · rename_i n hp
      split at h
      · cases h
      · exact .inr ⟨i, n, rfl, hp, h⟩
    · cases h
  | insert i =>
    simp only [startStep] at h
    split at h
    · rename_i n hp
      split at h
      · cases h
        exact .inl ⟨⟨rfl, rfl, rfl, rfl, rfl, rfl⟩, moves_setPhase (hp ▸ .insert n)⟩
      · cases h
    · cases h
  | giveUp i =>
    simp only [startStep] at h
    split at h
    · rename_i hp
      cases h
      exact .inl ⟨⟨rfl, rfl, rfl, rfl, rfl, rfl⟩, moves_setPhase (hp ▸ .refuse)⟩
    · rename_i n hp
      split at h
      · cases h
        exact .inl ⟨⟨rfl, rfl, rfl, rfl, rfl, rfl⟩, moves_setPhase (hp ▸ .fail n)⟩
      · cases h
    · cases h
  | _ => cases h

/-- What a write of the marker does: the first one marks the channel, the third one sets the policy. -/
theorem markStep_effect (h : s.markStep i n = some s') :
    s' = { s.setPhase i (.attached (n + 1)) with
      chan := s'.chan, marks := if n = 2 then s.marks ++ [i] else s.marks } ∧
    s'.chan.hungUp = s.chan.hungUp ∧
    (n = 0 ∨ isMarked s.chan = true → isMarked s'.chan = true) ∧
    (n = 2 → readPolicy s'.chan = s.policy i) ∧ (n ≠ 2 → readPolicy s'.chan = readPolicy s.chan) := by
  obtain ⟨-, hbp, hbe, hbt⟩ := botSessionVar_ne
  obtain ⟨-, heb, hep, het⟩ := eavesdropPolicyVar_ne
  have hup : ∀ (c : Channel) (k v : Bytes), (c.setVariable k v).hungUp = c.hungUp := by
    intro c k v
    unfold Channel.setVariable
    split <;> rfl
  unfold markStep markWrites at h
  match n, h with
  | 0, h =>
    cases h
    exact ⟨rfl, hup _ _ _, fun _ => isMarked_setVariable_true _, fun h => absurd h (by decide),
      fun _ => readPolicy_setVariable_of_ne _ heb⟩
  | 1, h =>
    cases h
    refine ⟨rfl, hup _ _ _, fun hm => ?_, fun h => absurd h (by decide), fun _ => readPolicy_setVariable_of_ne _ hep⟩
    exact (isMarked_setVariable_of_ne _ hbp).trans (hm.resolve_left (by decide))
  | 2, h =>
    cases h
    refine ⟨rfl, hup _ _ _, fun hm => ?_, fun _ => readPolicy_setVariable_name _ _, fun h => absurd rfl h⟩
    exact (isMarked_setVariable_of_ne _ hbe).trans (hm.resolve_left (by decide))
  | 3, h =>
    cases h
    refine ⟨rfl, hup _ _ _, fun hm => ?_, fun h => absurd h (by decide), fun _ => readPolicy_setVariable_of_ne _ het⟩
    exact (isMarked_setVariable_of_ne _ hbt).trans (hm.resolve_left (by decide))
  | n + 4, h => cases h

theorem tapStep_cases (h : s.tapStep a = some s') :
    (∃ j p, p ≠ .settled ∧ s' = s.setTap j p) ∨
    (∃ j, s' = { s.setTap j (if isMarked s.chan then .detecting else .settled) with
      seen := Function.update s.seen j s.marks }) ∨
    (∃ j, s' = s.setTap j (if readPolicy s.chan = .deny then .condemned else .settled)) ∨
    ∃ j, s' = { s.setTap j .settled with chan := { s.chan with hungUp := true } } := by
  cases a with
  | appMiss j =>
    simp only [tapStep] at h
    split at h <;> cases h
    · exact .inl ⟨j, _, by decide, rfl⟩
    · exact .inl ⟨j, _, by decide, rfl⟩
  | appLook j =>
    simp only [tapStep] at h
    split at h <;> cases h
    exact .inl ⟨j, _, by split <;> decide, rfl⟩
  | appRead j =>
    simp only [tapStep] at h
    split at h <;> cases h
    exact .inl ⟨j, _, by split <;> decide, rfl⟩
  | appAttach j =>
    simp only [tapStep] at h
    split at h <;> cases h
    exact .inl ⟨j, _, by decide, rfl⟩
  | rawAttach j =>
    simp only [tapStep] at h
    split at h <;> cases h
    exact .inl ⟨j, _, by decide, rfl⟩
  | detect j =>
    simp only [tapStep] at h
    split at h <;> cases h
    exact .inr (.inl ⟨j, rfl⟩)
  | detectRead j =>
    simp only [tapStep] at h
    split at h <;> cases h
    exact .inr (.inr (.inl ⟨j, rfl⟩))
  | detectHangup j =>
    simp only [tapStep] at h
    split at h <;> cases h
    exact .inr (.inr (.inr ⟨j, rfl⟩))
  | _ => cases h

/-! ## The marker stands -/

/-- A deny call that is between its attach and its end. -/
def standing (s : Watch) (i : Nat) : Bool :=
  s.policy i == .deny &&
    (match s.phase i with
     | .attached _ | .active => true
     | _ => false)

/-- No call of a weaker tenant writes its policy while a deny call that has written its own is standing. -/
def keepsDeny (s : Watch) : WatchAct → Bool
  | .mark i => s.phase i != .attached 2 || s.policy i == .deny || !s.marks.any s.standing
  | _ => true

/-- The phases of a call that has written its policy. -/
def past : StartPhase → Bool
  | .attached n => 3 ≤ n
  | .active | .failed | .removed => true
  | _ => false

/-- The policy of every standing deny call that was written is on the channel, and every tap whose detector ran after
that write is settled only on a channel that was hung up. -/
structure Enforced (s : Watch) : Prop where
  past : ∀ i ∈ s.marks, past (s.phase i) = true
  begun : ∀ i n, s.phase i = .attached (n + 1) → isMarked s.chan = true
  marker : ∀ i ∈ s.marks, s.standing i = true → isMarked s.chan = true ∧ readPolicy s.chan = .deny
  seen : ∀ j, ∀ i ∈ s.seen j, i ∈ s.marks
  caught : ∀ j, s.tap j = .settled → ∀ i ∈ s.seen j, s.standing i = true → s.chan.hungUp = true

theorem enforced_init (config : PolicyConfig) (calls : Nat → StartCall) (chan : Channel) :
    Enforced (init config calls chan) := by
  refine ⟨fun i h => ?_, fun i n h => ?_, fun i h => ?_, fun j i h => ?_, fun j h => ?_⟩
  · cases h
  · cases h
  · cases h
  · cases h
  · cases h

theorem past_of_move {q : StartPhase} (h : Move p q) (hp : past p = true) : past q = true := by
  cases h <;> simp_all [past]

theorem standing_of_move (hs : SamePlace s s') {k : Nat} (hm : Move (s.phase k) (s'.phase k))
    (hp : past (s.phase k) = true) (h : s'.standing k = true) : s.standing k = true := by
  simp only [standing, policy, hs.config, hs.calls, Bool.and_eq_true] at h ⊢
  refine ⟨h.1, ?_⟩
  have h2 := h.2
  generalize s.phase k = p at hm hp ⊢
  generalize s'.phase k = q at hm h2
  cases hm <;> simp_all [past]

theorem attached_of_move (h : Move p (.attached (n + 1))) : p = .attached (n + 1) := by
  cases h
  rfl

theorem Enforced.start (hi : Enforced s) (hs : SamePlace s s') (hm : ∀ k, Move (s.phase k) (s'.phase k)) :
    Enforced s' := by
  have hst : ∀ k ∈ s.marks, s'.standing k = true → s.standing k = true :=
    fun k hk => standing_of_move hs (hm k) (hi.past k hk)
  refine ⟨fun i h => ?_, fun i n h => ?_, fun i h hst' => ?_, fun j i h => ?_, fun j h i hj hst' => ?_⟩
  · rw [hs.marks] at h
    exact past_of_move (hm i) (hi.past i h)
  · rw [hs.chan]
    exact hi.begun i n (attached_of_move (h ▸ hm i))
  · rw [hs.marks] at h
    rw [hs.chan]
    exact hi.marker i h (hst i h hst')
  · rw [hs.seen] at h
    rw [hs.marks]
    exact hi.seen j i h
  · rw [hs.tap] at h
    rw [hs.seen] at hj
    rw [hs.chan]
    exact hi.caught j h i hj (hst i (hi.seen j i hj) hst')

theorem standing_setPhase_of_ne {k : Nat} {chan : Channel} {marks : List Nat} (hk : k ≠ i) :
    standing { s.setPhase i (.attached n) with chan := chan, marks := marks } k = s.standing k := by
  simp only [standing, policy, setPhase, Function.update_of_ne hk]

theorem Enforced.mark (hi : Enforced s) (hp : s.phase i = .attached n) (h : s.markStep i n = some s')
    (hg : s.keepsDeny (.mark i) = true) : Enforced s' := by
  obtain ⟨hs, hup, hmk, hpol, hsame⟩ := markStep_effect h
  generalize s'.chan = c at hs hup hmk hpol hsame
  subst hs
  -- a call that has written its policy is past it, so the next write of call `i` is not a second policy
  have hstand : s.standing i = true ↔ s.policy i = .deny := by simp [standing, hp]
  have hmarked : isMarked c = true := by
    refine hmk ?_
    cases n with
    | zero => exact .inl rfl
    | succ n => exact .inr (hi.begun i n hp)
  have hnew : ∀ k, k ∈ (if n = 2 then s.marks ++ [i] else s.marks) → k ∈ s.marks ∨ (k = i ∧ n = 2) := by
    intro k hk
    split at hk
    · rename_i hn
      rcases List.mem_append.1 hk with hk | hk
      · exact .inl hk
      · exact .inr ⟨List.mem_singleton.1 hk, hn⟩
    · exact .inl hk
  have hst : ∀ k, standing { s.setPhase i (.attached (n + 1)) with
      chan := c, marks := if n = 2 then s.marks ++ [i] else s.marks } k = true → s.standing k = true := by
    intro k hk
    by_cases hki : k = i
    · subst hki
      simp only [standing, policy, setPhase, Function.update_self, Bool.and_true, beq_iff_eq] at hk
      exact hstand.2 hk
    · rw [standing_setPhase_of_ne hki] at hk
      exact hk
  refine ⟨fun k hk => ?_, fun k m hk => hmarked, fun k hk hks => ⟨hmarked, ?_⟩, fun j k hk => ?_,
    fun j hj k hk hks => ?_⟩
  · by_cases hki : k = i
    · subst hki
      simp only [setPhase, Function.update_self, Watch.past, decide_eq_true_eq]
      rcases hnew k hk with hk | ⟨-, rfl⟩
      · have := hi.past k hk
        rw [hp] at this
        simp only [Watch.past, decide_eq_true_eq] at this
        omega
      · omega
    · simp only [setPhase, Function.update_of_ne hki]
      exact hi.past k ((hnew k hk).resolve_right (fun h => hki h.1))
  · have hold := hst k hks
    by_cases hn : n = 2
    · show readPolicy c = .deny
      rw [hpol hn]
      rcases hnew k hk with hkm | ⟨rfl, -⟩
      · -- a standing deny call has written: the guard lets only a deny call write now
        subst hn
        have : s.marks.any s.standing = true := List.any_eq_true.2 ⟨k, hkm, hold⟩
        simpa [keepsDeny, hp, this] using hg
      · exact hstand.1 hold
    · show readPolicy c = .deny
      rw [hsame hn]
      exact (hi.marker k ((hnew k hk).resolve_right (fun h => hn h.2)) hold).2
  · show k ∈ (if n = 2 then s.marks ++ [i] else s.marks)
    have := hi.seen j k hk
    split
    · exact List.mem_append_left _ this
    · exact this
  · show c.hungUp = true
    rw [hup]
    exact hi.caught j hj k hk (hst k hks)

theorem Enforced.tap (hi : Enforced s) (h : s.tapStep a = some s') : Enforced s' := by
  rcases tapStep_cases h with ⟨j, p, hp, rfl⟩ | ⟨j, rfl⟩ | ⟨j, rfl⟩ | ⟨j, rfl⟩
  · refine ⟨hi.past, hi.begun, hi.marker, hi.seen, fun k hk => ?_⟩
    by_cases hkj : k = j
    · subst hkj
      simp only [setTap, Function.update_self] at hk
      exact absurd hk hp
    · simp only [setTap, Function.update_of_ne hkj] at hk
      exact hi.caught k hk
  · refine ⟨hi.past, hi.begun, hi.marker, fun k i hk => ?_, fun k hk i hik hst => ?_⟩
    · by_cases hkj : k = j
      · subst hkj
        simp only [Function.update_self] at hk
        exact hk
      · simp only [Function.update_of_ne hkj] at hk
        exact hi.seen k i hk
    · by_cases hkj : k = j
      · subst hkj
        -- the detector found no mark, so no deny call that has written is standing
        simp only [Function.update_self] at hik
        have hm := (hi.marker i hik hst).1
        simp only [setTap, Function.update_self, hm, if_true] at hk
        cases hk
      · simp only [setTap, Function.update_of_ne hkj] at hk hik
        exact hi.caught k hk i hik hst
  · refine ⟨hi.past, hi.begun, hi.marker, hi.seen, fun k hk i hik hst => ?_⟩
    by_cases hkj : k = j
    · subst hkj
      -- it found a policy other than deny: the same
      have hd := (hi.marker i (hi.seen k i hik) hst).2
      simp only [setTap, Function.update_self, hd, if_true] at hk
      cases hk
    · simp only [setTap, Function.update_of_ne hkj] at hk
      exact hi.caught k hk i hik hst
  · exact ⟨hi.past, hi.begun, hi.marker, hi.seen, fun _ _ _ _ _ => rfl⟩

theorem Enforced.step (hi : Enforced s) (hg : s.keepsDeny a = true) (h : s.step a = some s') : Enforced s' := by
  have hstart : s.startStep a = some s' → Enforced s' := by
    intro h
    rcases startStep_cases h with ⟨hs, hm⟩ | ⟨i, n, rfl, hp, hmark⟩
    · exact hi.start hs hm
    · exact hi.mark hp hmark hg
  unfold Watch.step at h
  split at h
  · cases h
    exact ⟨hi.past, hi.begun, hi.marker, hi.seen, fun _ _ _ _ _ => rfl⟩
  · exact hstart h
  · exact hstart h
  · exact hstart h
  · exact hstart h
  · exact hstart h
  · exact hi.tap h

/-- **A deny policy is enforced after its mark.**  In every run in which no weaker tenant writes over a standing deny
mark: a channel with an active stream of a deny tenant, on which the detector has run on an eavesdrop bug after that
tenant's policy was written, was hung up. -/
theorem deny_enforced_after_mark (config : PolicyConfig) (calls : Nat → StartCall) (chan : Channel)
    (as : List WatchAct) (s : Watch) (hrun : Run.exec step as (init config calls chan) = some s)
    (hok : Run.along step keepsDeny as (init config calls chan) = true) :
    ∀ i j, s.phase i = .active → s.policy i = .deny → s.tap j = .settled → i ∈ s.seen j → s.chan.hungUp = true := by
  have hi : Enforced s :=
    Run.exec_inv_along (fun _ _ _ hi hg hs => Enforced.step hi hg hs) as _ s (enforced_init config calls chan) hok hrun
  intro i j hact hdeny hset hseen
  exact hi.caught j hset i hseen (by simp [standing, hact, hdeny])

/-- The module default is deny; tenant `qc` may eavesdrop. -/
def denyConfig : PolicyConfig := ⟨str "deny", str "qc:allow"⟩

/-- Every call is a `StartTts` of tenant `acme`. -/
def ttsCalls : Nat → StartCall := fun _ => ⟨.tts, str "acme", str "tts"⟩

/-- A stream is started, and then a raw eavesdrop attaches. -/
def ttsThenTap : List WatchAct :=
  [.begin 0, .attach 0, .mark 0, .mark 0, .mark 0, .mark 0, .insert 0, .rawAttach 0, .detect 0, .detectRead 0,
   .detectHangup 0]

theorem deny_enforced_after_mark_ttsThenTap :
    Run.along step keepsDeny ttsThenTap (init denyConfig ttsCalls (.up fun _ => none)) = true ∧
    ∃ s, Run.exec step ttsThenTap (init denyConfig ttsCalls (.up fun _ => none)) = some s ∧
      s.phase 0 = .active ∧ s.policy 0 = .deny ∧ s.tap 0 = .settled ∧ 0 ∈ s.seen 0 ∧ s.chan.hungUp = true := by
  have hok : Run.along step keepsDeny ttsThenTap (init denyConfig ttsCalls (.up fun _ => none)) = true := by
    decide +kernel
  have hm : (Run.exec step ttsThenTap (init denyConfig ttsCalls (.up fun _ => none))).map
      (fun s => decide (s.phase 0 = .active ∧ s.policy 0 = .deny ∧ s.tap 0 = .settled ∧ 0 ∈ s.seen 0)) = some true := by
    decide +kernel
  obtain ⟨s, hs, hf⟩ := Option.map_eq_some_iff.1 hm
  obtain ⟨hact, hdeny, hset, hseen⟩ := of_decide_eq_true hf
  refine ⟨hok, s, hs, hact, hdeny, hset, hseen, ?_⟩
  exact deny_enforced_after_mark denyConfig ttsCalls _ ttsThenTap s hs hok 0 0 hact hdeny hset hseen

/-- Every call is a `StartStt` of tenant `acme`. -/
def sttCalls : Nat → StartCall := fun _ => ⟨.stt, str "acme", str "stt"⟩

/-- A raw eavesdrop attaches and its event is handled before a `StartTts` writes its marks. -/
def tapThenTts : List WatchAct :=
  [.begin 0, .attach 0, .rawAttach 0, .detect 0, .mark 0, .mark 0, .mark 0, .mark 0, .insert 0]

/-- `StartStt` of a deny tenant leaves the channel unmarked, so the detector passes over a raw eavesdrop on it.  And it
passes over one that is there before the marks are, whose bug stays when a deny tenant's `StartTts` has written them. -/
theorem stt_stream_eavesdropped :
    (∃ s, Run.exec step [.begin 0, .attach 0, .insert 0, .rawAttach 0, .detect 0]
        (init denyConfig sttCalls (.up fun _ => none)) = some s ∧ s.Finished ∧ s.Breached) ∧
    ∃ s, Run.exec step tapThenTts (init denyConfig ttsCalls (.up fun _ => none)) = some s ∧ s.Finished ∧ s.Breached := by
  have hdeny : resolveEffectivePolicy denyConfig (str "acme") = .deny := by decide +kernel
  constructor
  · refine ⟨_, rfl, ⟨fun i => ?_, fun j => ?_⟩, ⟨0, rfl⟩, ⟨0, rfl, hdeny⟩, rfl⟩
    · match i with
      | 0 => exact .inr (.inl rfl)
      | _ + 1 => exact .inl rfl
    · match j with
      | 0 => exact .inr (.inr rfl)
      | _ + 1 => exact .inl rfl
  · have hup : (Run.exec step tapThenTts (init denyConfig ttsCalls (.up fun _ => none))).map (·.chan.hungUp)
        = some false := by decide +kernel
    refine ⟨_, rfl, ⟨fun i => ?_, fun j => ?_⟩, ⟨0, rfl⟩, ⟨0, rfl, hdeny⟩, Option.some.inj hup⟩
    · match i with
      | 0 => exact .inr (.inl rfl)
      | _ + 1 => exact .inl rfl
    · match j with
      | 0 => exact .inr (.inr rfl)
      | _ + 1 => exact .inl rfl

end Watch
end Security
end Osw
