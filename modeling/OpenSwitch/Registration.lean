import OpenSwitch.PlaneSteps
/-!
# Registration — the roster and who holds its mutex

A `SubscribeEvents` call, seen from the roster, is outside it, holds `roster_mu_` while it replays, was refused by the
replay, streams, is leaving, or is gone (`RegPhase`).  `step_reg` says which of these moves a step of the plane can
make, and `Registered` what they keep: one holder of the mutex, no duplicate in the roster, exactly the streaming and
the leaving calls in it, and a closed subscriber wherever a call is refused or leaving.
-/
namespace Osw
namespace Events

inductive RegPhase
  | outside
  | holding
  | refused
  | streaming
  | leaving
  | gone
  deriving DecidableEq, Repr

def Handler.phase : Handler → RegPhase
  | .absent | .created .. => .outside
  | .replaying .. | .joining _ _ true => .holding
  | .joining _ _ false => .refused
  | .top | .waiting | .gotNothing | .writing _ | .cancelling _ => .streaming
  | .removing .. => .leaving
  | .returned _ => .gone

namespace Plane

variable {s s' : Plane} {i : Nat} {a : PlaneAct}

def phase (s : Plane) (i : Nat) : RegPhase := (s.handler i).phase

def closed (s : Plane) (i : Nat) : Prop := (s.feeds i).sub.isClosed = true

/-- A move of registration `i`. -/
inductive RegMove (s s' : Plane) (i : Nat) : Prop
  | stay (hp : s'.phase i = s.phase i) (hr : s'.roster = s.roster) (hm : s'.rosterMu = s.rosterMu)
      (ha : s'.accepted = s.accepted)
  | reject (hp : s.phase i = .outside) (hp' : s'.phase i = .gone) (hr : s'.roster = s.roster)
      (hm : s'.rosterMu = s.rosterMu) (ha : s'.accepted = s.accepted)
  | lock (hp : s.phase i = .outside) (hp' : s'.phase i = .holding) (hr : s'.roster = s.roster)
      (hm : s.rosterMu = none) (hm' : s'.rosterMu = some i) (ha : s'.accepted = s.accepted)
  | refuse (hp : s.phase i = .holding) (hp' : s'.phase i = .refused) (hc : s'.closed i) (hr : s'.roster = s.roster)
      (hm : s'.rosterMu = s.rosterMu) (ha : s'.accepted = s.accepted)
  | add (hp : s.phase i = .outside) (hp' : s'.phase i = .streaming) (hr : s'.roster = s.roster ++ [i])
      (hm : s.rosterMu = none) (hm' : s'.rosterMu = none) (ha : s'.accepted = s.accepted)
  | enter (sinceSeq : Nat) (tiers : List Tier) (hh : s.handler i = .joining sinceSeq tiers true)
      (hp' : s'.phase i = .streaming) (hr : s'.roster = s.roster ++ [i]) (hm' : s'.rosterMu = none)
      (ha : s'.accepted = Function.update s.accepted i (some (sinceSeq, tiers)))
  | withdraw (hp : s.phase i = .refused) (hp' : s'.phase i = .leaving) (hr : s'.roster = s.roster ++ [i])
      (hm' : s'.rosterMu = none) (ha : s'.accepted = s.accepted)
  | leave (hp : s.phase i = .streaming) (hp' : s'.phase i = .leaving) (hc : s'.closed i) (hr : s'.roster = s.roster)
      (hm : s'.rosterMu = s.rosterMu) (ha : s'.accepted = s.accepted)
  | remove (hp : s.phase i = .leaving) (hp' : s'.phase i = .gone)
      (hr : s'.roster = s.roster.filter (fun j => decide (j ≠ i))) (hm : s.rosterMu = none) (hm' : s'.rosterMu = none)
      (ha : s'.accepted = s.accepted)

theorem phase_update (s : Plane) (i : Nat) (h : Handler) (H : s'.handler = Function.update s.handler i h) :
    s'.phase i = h.phase := by
  simp only [phase, H, Function.update_self]

theorem handlerStep_reg {c : Client} (h : s.handlerStep i c = some s') : RegMove s s' i := by
  cases turn_of_handlerStep h with
  | lock sinceSeq tiers hh hm =>
    refine .lock (by rw [phase, hh]; rfl) ?_ rfl hm rfl rfl
    rw [phase_update s i _ rfl]
    split <;> rfl
  | replay sinceSeq tiers t todo r hh =>
    by_cases hok : (replayTier r t sinceSeq (s.feeds i)).1 = true
    · refine .stay ?_ rfl rfl rfl
      rw [phase_update s i _ rfl, phase, hh, if_pos hok]
      rfl
    · refine .refuse (by rw [phase, hh]; rfl) (by rw [phase_update s i _ rfl, if_neg hok]; rfl) ?_ rfl rfl rfl
      simp only [closed, Function.update_self]
      exact (replayTier_spec r t sinceSeq (s.feeds i)).2.2.2 (by simpa using hok)
  | join sinceSeq tiers replayOk hh =>
    cases replayOk with
    | true => exact .enter sinceSeq tiers hh (by rw [phase_update s i _ rfl]; rfl) rfl rfl rfl
    | false => exact .withdraw (by rw [phase, hh]; rfl) (by rw [phase_update s i _ rfl]; rfl) rfl rfl rfl
  | poll hh =>
    refine .stay ?_ rfl rfl rfl
    rw [phase_update s i _ rfl, phase, hh]
    split <;> rfl
  | leave hh hc => exact .leave (by rw [phase, hh]; rfl) (by rw [phase_update s i _ rfl]; rfl) hc rfl rfl rfl
  | cancelled st hh hlast =>
    refine .leave (by rw [phase, hh]; rfl) (by rw [phase_update s i _ rfl]; rfl) ?_ rfl rfl rfl
    cases st with
    | queue =>
      simp only [closed, Plane.leave, Function.update_self]
      exact Feed.closeStep_queue_closed _
    | reason r => cases hlast
    | flag => cases hlast
  | remove _ _ hh hm => exact .remove (by rw [phase, hh]; rfl) (by rw [phase_update s i _ rfl]; rfl) rfl hm hm rfl
  | replayed _ _ hh | skip _ _ _ _ hh | idle hh | take _ _ hh | again hh | wrote _ hh | unparsed _ hh | lost _ hh
  | cancel _ _ hh => exact .stay (by rw [phase_update s i _ rfl, phase, hh]; rfl) rfl rfl rfl

/-- **Which registration a step moves, and how.** -/
theorem step_reg (h : s.step a = some s') : ∃ i, RegMove s s' i ∧ ∀ j, j ≠ i → s'.handler j = s.handler j := by
  cases a with
  | subscribe i req =>
    obtain ⟨habs, ⟨st, rfl⟩ | ⟨filter, c, tiers, rfl⟩⟩ := subscribe_cases h
    · exact ⟨i, .reject (by rw [phase, habs]; rfl) (by rw [phase_update s i _ rfl]; rfl) rfl rfl rfl,
        fun j hj => Function.update_of_ne hj ..⟩
    · exact ⟨i, .stay (by rw [phase_update s i _ rfl, phase, habs]; rfl) rfl rfl rfl,
        fun j hj => Function.update_of_ne hj ..⟩
  | addSubscriber i filter c =>
    obtain ⟨habs, hm, rfl⟩ := addSubscriber_cases h
    exact ⟨i, .add (by rw [phase, habs]; rfl) (by rw [phase_update s i _ rfl]; rfl) rfl hm hm rfl,
      fun j hj => Function.update_of_ne hj ..⟩
  | handler i c => exact ⟨i, handlerStep_reg h, fun j hj => (handlerStep_ne h hj).1⟩
  | _ =>
    have hs := step_sameRegistrations h rfl
    exact ⟨0, .stay (by rw [phase, phase, hs.handler]) hs.roster hs.rosterMu hs.accepted, fun j _ => by rw [hs.handler]⟩

/-- The roster and its mutex, over any run. -/
structure Registered (s : Plane) : Prop where
  mu       : ∀ i, s.rosterMu = some i ↔ s.phase i = .holding ∨ s.phase i = .refused
  nodup    : s.roster.Nodup
  member   : ∀ i, i ∈ s.roster ↔ s.phase i = .streaming ∨ s.phase i = .leaving
  closed   : ∀ i, s.phase i = .refused ∨ s.phase i = .leaving → s.closed i
  accepted : ∀ i p, s.accepted i = some p → s.phase i = .streaming ∨ (s.phase i = .leaving ∨ s.phase i = .gone) ∧ s.closed i

theorem registered_init (m c : Nat) (capacity : Tier → Nat) : Registered (init m c capacity) :=
  ⟨fun _ => ⟨nofun, by rintro (h | h) <;> cases h⟩, .nil, fun _ => ⟨nofun, by rintro (h | h) <;> cases h⟩,
    fun _ => (by rintro (h | h) <;> cases h), nofun⟩

theorem ne_absent_of_phase (h : s.phase i ≠ .outside) : s.handler i ≠ .absent :=
  fun ha => h (by rw [phase, ha]; rfl)

theorem step_closed (h : s.step a = some s') (hp : s.phase i ≠ .outside) (hc : s.closed i) : s'.closed i :=
  (step_feed_keeps h (fun ha => absurd ha (ne_absent_of_phase hp))).2 hc

theorem Registered.step (hs : Registered s) (h : s.step a = some s') : Registered s' := by
  obtain ⟨i, hmove, hne⟩ := step_reg h
  have hphase : ∀ j, j ≠ i → s'.phase j = s.phase j := fun j hj => by rw [phase, phase, hne j hj]
  have hcl : ∀ j, s.phase j ≠ .outside → s.closed j → s'.closed j := fun j => step_closed h
  obtain ⟨hmu, hnd, hmem, hclosed, hacc⟩ := hs
  -- in every move the phase of `i` is known before and after, and nobody else's changes
  cases hmove with
  | stay hp hr hm ha =>
    have hp' : ∀ j, s'.phase j = s.phase j := fun j => if hj : j = i then hj ▸ hp else hphase j hj
    refine ⟨?_, ?_, ?_, ?_, ?_⟩ <;> grind
  | reject hp hp' hr hm ha => refine ⟨?_, ?_, ?_, ?_, ?_⟩ <;> grind
  | lock hp hp' hr hm hm' ha => refine ⟨?_, ?_, ?_, ?_, ?_⟩ <;> grind
  | refuse hp hp' hc hr hm ha => refine ⟨?_, ?_, ?_, ?_, ?_⟩ <;> grind
  | add hp hp' hr hm hm' ha => refine ⟨?_, ?_, ?_, ?_, ?_⟩ <;> grind
  | enter sinceSeq tiers hh hp' hr hm' ha =>
    have hp : s.phase i = .holding := by rw [phase, hh]; rfl
    have ha' : ∀ j, s'.accepted j = if j = i then some (sinceSeq, tiers) else s.accepted j := fun j => by
      rw [ha, Function.update_apply]
    refine ⟨?_, ?_, ?_, ?_, ?_⟩ <;> grind
  | withdraw hp hp' hr hm' ha => refine ⟨?_, ?_, ?_, ?_, ?_⟩ <;> grind
  | leave hp hp' hc hr hm ha => refine ⟨?_, ?_, ?_, ?_, ?_⟩ <;> grind
  | remove hp hp' hr hm hm' ha => refine ⟨?_, ?_, ?_, ?_, ?_⟩ <;> grind

end Plane
end Events
end Osw
