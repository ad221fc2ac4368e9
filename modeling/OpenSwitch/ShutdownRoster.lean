import OpenSwitch.GapFree
/-!
# ShutdownRoster — whom `Broadcaster::Stop` closes

`Stop` closes the subscribers of a roster snapshot it takes after the workers have gone, and neither `AddSubscriber` nor
`AddSubscriberAtomic` looks at the stop flag: an open subscriber that joins after the snapshot stays open.  When every
open subscriber joins before it, all of the roster is closed once `Stop` has returned (`stop_closes_roster`).
-/
namespace Osw
namespace Events

/-- The subscribers `Stop` has still to close, once it has its snapshot. -/
def Stopper.toKick : Stopper → Option (List Nat)
  | .kicking todo _ => some todo
  | .done => some []
  | _ => none

/-- A step of the plane, or a `RemoveSubscriber` from elsewhere than the handler of the subscriber. -/
inductive RosterAct
  | plane (a : PlaneAct)
  | remove (i : Nat)
  deriving DecidableEq, Repr

namespace Plane

variable {s s' : Plane} {i : Nat} {a : PlaneAct}

def rosterStep (s : Plane) : RosterAct → Option Plane
  | .plane a  => s.step a
  | .remove i => s.removeSubscriber i

/-- A subscriber that joins the roster is closed already, or joins before the snapshot of `Stop`. -/
def joinsInTime (s : Plane) : RosterAct → Bool
  | .plane (.addSubscriber _ _ _) => s.stopper.toKick.isNone
  | .plane (.handler i _) =>
    match s.handler i with
    | .joining _ _ _ => (s.feeds i).sub.isClosed || s.stopper.toKick.isNone
    | _ => true
  | _ => true

theorem handlerStep_roster {c : Client} (h : s.handlerStep i c = some s') {j : Nat} (hj : j ∈ s'.roster) :
    j ∈ s.roster ∨ j = i ∧ ∃ sinceSeq tiers replayOk, s.handler i = .joining sinceSeq tiers replayOk := by
  cases turn_of_handlerStep h with
  | join sinceSeq tiers replayOk hh =>
    rcases List.mem_append.1 hj with hj | hj
    · exact .inl hj
    · exact .inr ⟨List.mem_singleton.1 hj, sinceSeq, tiers, replayOk, hh⟩
  | remove => exact .inl (List.mem_filter.1 hj).1
  | _ => exact .inl hj

theorem step_roster (h : s.step a = some s') (hi : i ∈ s'.roster) :
    i ∈ s.roster ∨ (∃ filter c, a = .addSubscriber i filter c) ∨
    ∃ c sinceSeq tiers replayOk, a = .handler i c ∧ s.handler i = .joining sinceSeq tiers replayOk := by
  cases a with
  | subscribe j req =>
    obtain ⟨-, ⟨st, rfl⟩ | ⟨filter, c, tiers, rfl⟩⟩ := subscribe_cases h <;> exact .inl hi
  | addSubscriber j filter c =>
    obtain ⟨-, -, rfl⟩ := addSubscriber_cases h
    rcases List.mem_append.1 hi with hi | hi
    · exact .inl hi
    · obtain rfl := List.mem_singleton.1 hi
      exact .inr (.inl ⟨filter, c, rfl⟩)
  | handler j c =>
    rcases handlerStep_roster h hi with hi | ⟨rfl, sinceSeq, tiers, replayOk, hh⟩
    · exact .inl hi
    · exact .inr (.inr ⟨c, sinceSeq, tiers, replayOk, rfl, hh⟩)
  | _ => exact .inl ((step_sameRegistrations h rfl).roster ▸ hi)

/-- What a step of `Stop` leaves to close: the roster, when it takes its snapshot; after that, what it had to close
less what it has closed. -/
theorem stopStep_toKick (h : s.stopStep = some s') {todo' : List Nat} (htodo : s'.stopper.toKick = some todo') :
    todo' = s.roster ∨ ∃ todo, s.stopper.toKick = some todo ∧ ∀ i ∈ todo, i ∈ todo' ∨ s'.closed i := by
  cases stopStep_move h with
  | asks | closes | joins => cases htodo
  | snapshots hst hleft =>
    cases htodo
    exact .inl rfl
  | ends hst => exact .inr ⟨[], by rw [hst]; rfl, by simp⟩
  | kicks hst =>
    rename_i j todo st
    refine .inr ⟨j :: todo, by rw [hst]; rfl, fun i hi => ?_⟩
    cases st with
    | reason r =>
      cases htodo
      exact .inl hi
    | flag =>
      cases htodo
      exact .inl hi
    | queue =>
      cases htodo
      rcases List.mem_cons.1 hi with rfl | hi
      · refine .inr ?_
        simp only [closed, Function.update_self]
        exact Feed.closeStep_queue_closed _
      · exact .inl hi

/-- Whoever is in the roster has registered, and is closed or still to be closed once `Stop` has its snapshot. -/
structure Kicked (s : Plane) : Prop where
  present : ∀ i ∈ s.roster, (s.phase i).joined = true
  kicked  : ∀ todo, s.stopper.toKick = some todo → ∀ i ∈ s.roster, s.closed i ∨ i ∈ todo

theorem kicked_init (m c : Nat) (capacity : Tier → Nat) : Kicked (init m c capacity) := ⟨nofun, nofun⟩

theorem Kicked.present_step (hs : Kicked s) (h : s.step a = some s') : ∀ i ∈ s'.roster, (s'.phase i).joined = true := by
  intro i hi
  rcases step_roster h hi with hi | ⟨filter, c, rfl⟩ | ⟨c, sinceSeq, tiers, replayOk, rfl, hh⟩
  · exact step_joined h (hs.present i hi)
  · obtain ⟨-, -, rfl⟩ := addSubscriber_cases h
    rw [phase_update s i _ rfl]
    rfl
  · simp only [step, handlerStep, hh] at h
    cases h
    rw [phase_update s i _ rfl]
    cases replayOk <;> rfl

theorem Kicked.closed_step (hs : Kicked s) (h : s.step a = some s') (hi : i ∈ s.roster) (hc : s.closed i) :
    s'.closed i :=
  (step_feed_keeps h (fun ha => absurd ha (ne_absent_of_joined (hs.present i hi)))).2 hc

theorem Kicked.kicked_step (hs : Kicked s) (hg : s.joinsInTime (.plane a) = true) (h : s.step a = some s')
    {todo' : List Nat} (htodo : s'.stopper.toKick = some todo') : ∀ i ∈ s'.roster, s'.closed i ∨ i ∈ todo' := by
  intro i hi
  by_cases ha : a = .stop
  · subst ha
    have hr : s'.roster = s.roster := (stopStep_calls h).roster
    rw [hr] at hi
    rcases stopStep_toKick h htodo with rfl | ⟨todo, hk, hleft⟩
    · exact .inr hi
    · rcases hs.kicked todo hk i hi with hc | hmem
      · exact .inl (hs.closed_step h hi hc)
      · exact (hleft i hmem).symm
  · rw [(step_stopper h ha).1] at htodo
    rcases step_roster h hi with hi | ⟨filter, c, rfl⟩ | ⟨c, sinceSeq, tiers, replayOk, rfl, hh⟩
    · exact (hs.kicked todo' htodo i hi).imp_left (hs.closed_step h hi)
    · rw [joinsInTime, htodo] at hg
      cases hg
    · simp only [joinsInTime, hh, htodo, Option.isNone_some, Bool.or_false] at hg
      refine .inl (step_closed h ?_ hg)
      rw [phase, hh]
      cases replayOk <;> simp [Handler.phase]

theorem Kicked.remove (hs : Kicked s) (h : s.removeSubscriber i = some s') : Kicked s' := by
  unfold removeSubscriber at h
  split at h <;> cases h
  exact ⟨fun j hj => hs.present j (List.mem_filter.1 hj).1,
    fun todo htodo j hj => hs.kicked todo htodo j (List.mem_filter.1 hj).1⟩

theorem Kicked.step {a : RosterAct} (hs : Kicked s) (hg : s.joinsInTime a = true) (h : s.rosterStep a = some s') :
    Kicked s' := by
  cases a with
  | plane a => exact ⟨hs.present_step h, fun _ => hs.kicked_step hg h⟩
  | remove i => exact hs.remove h

/-- **Every subscriber is closed after `Stop`**: in every run in which every open subscriber joins before `Stop` takes
its snapshot, all of the roster is closed once `Stop` has returned. -/
theorem stop_closes_roster (m c : Nat) (capacity : Tier → Nat) (as : List RosterAct) (s : Plane)
    (hrun : Run.exec rosterStep as (init m c capacity) = some s)
    (hjoins : Run.along rosterStep joinsInTime as (init m c capacity) = true) (hdone : s.stopper = .done) :
    ∀ i ∈ s.roster, s.closed i := by
  have hs := Run.exec_inv_along (I := Kicked) (fun _ _ _ hi hg hs => hi.step hg hs) as _ s
    (kicked_init m c capacity) hjoins hrun
  intro i hi
  rcases hs.kicked [] (by rw [hdone]; rfl) i hi with hc | hmem
  · exact hc
  · cases hmem

/-- A `SubscribeEvents` call that has its subscriber and joins after `n` of the steps of a `Stop`; subscriber 1 is added
and removed meanwhile. -/
def joinDuringStop (n : Nat) : List RosterAct :=
  let stop : List PlaneAct := [.stop, .stop, .stop, .stop, .stop, .worker .critical, .worker .state, .worker .ephemeral,
    .stop, .stop, .stop, .stop, .stop]
  [.plane (.subscribe 0 ⟨[], [], [], [], 0⟩), .plane (.addSubscriber 1 ⟨[], [], [], []⟩ 4)] ++
    (stop.take n).map .plane ++ [.plane (.handler 0 .ok), .plane (.handler 0 .ok), .remove 1] ++ (stop.drop n).map .plane

theorem stop_closes_roster_joinDuringStop :
    (Run.exec rosterStep (joinDuringStop 5) (init 0 0 (fun _ => 4))).map (fun s => (s.stopper, s.roster))
      = some (.done, [0]) ∧
    ∀ s, Run.exec rosterStep (joinDuringStop 5) (init 0 0 (fun _ => 4)) = some s → s.stopper = .done →
      ∀ i ∈ s.roster, s.closed i :=
  ⟨by decide +kernel, fun s hs hd => stop_closes_roster 0 0 (fun _ => 4) (joinDuringStop 5) s hs (by decide +kernel) hd⟩

/-- The call joins after the snapshot: its subscriber is in the roster, and open. -/
theorem joinDuringStop_open :
    (Run.exec rosterStep (joinDuringStop 9) (init 0 0 (fun _ => 4))).map (fun s =>
        (s.stopper, s.roster.map (fun i => (i, (s.feeds i).sub.isClosed))))
      = some (.done, [(0, false)]) := by
  decide +kernel

end Plane
end Events
end Osw
