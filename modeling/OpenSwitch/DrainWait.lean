import OpenSwitch.Ring
import OpenSwitch.Routing
import OpenSwitch.Run
/-!
# DrainWait — waiting for the three rings to drain (`RingSet::WaitUntilAllEmpty`, `ring_set.cc`)

A pop that leaves its ring empty bumps `drain_generation_` and wakes the waiters, with the ring's mutex held.  A waiter
reads the three sizes, and only then takes the generation it waits to see changed.  The producers have stopped, so each
ring notifies at most once more: when the last notification comes between a waiter's look at a ring that is not empty
and its snapshot of the generation, nobody is left to wake it.  In every run in which that does not happen, no waiter
sleeps with nobody left to notify it (`no_lost_wakeup`).
-/
namespace Osw
namespace Events

/-- The tiers of `RingSet`, in the order of `AllEmpty`. -/
def ringTiers : List Tier := [.critical, .state, .ephemeral]

/-- Where a `WaitUntilAllEmpty` call is.  `checking last todo` is in `AllEmpty`, the one after the deadline if `last`;
`snapped` holds `drain_mu_`; `woken` is to take it back and look at the generation, `late` after the deadline. -/
inductive Waiter
  | idle
  | checking (last : Bool) (todo : List Tier)
  | busy
  | snapped (seen : Nat)
  | asleep (seen : Nat)
  | woken (late : Bool) (seen : Nat)
  | returned (drained : Bool)
  deriving DecidableEq, Repr

/-- The generation a waiter waits to see changed. -/
def Waiter.seen : Waiter → Option Nat
  | .snapped g | .asleep g | .woken _ g => some g
  | _ => none

def Waiter.notify : Waiter → Waiter
  | .asleep g => .woken false g
  | w => w

/-- The members of `RingSet`, with `n` threads in `WaitUntilAllEmpty`.  A tier is `notifying` while a pop that has emptied
its ring still holds the ring's mutex; `expired` are the waiters whose deadline is over; `notified` counts the
notifications. -/
structure RingSet (n : Nat) where
  rings           : Tier → Ring
  notifying       : Tier → Bool
  drainGeneration : Nat
  drainMu         : Option (Fin n)
  waiter          : Fin n → Waiter
  expired         : Fin n → Bool
  notified        : Nat

inductive DrainAct (n : Nat)
  | pop (t : Tier) (maxBatch : Nat)
  | notify (t : Tier)
  | waiter (w : Fin n)
  | spurious (w : Fin n)
  | deadline (w : Fin n)
  | timeout (w : Fin n)
  deriving DecidableEq, Repr

namespace RingSet

variable {n k : Nat} {s s' : RingSet n} {t : Tier} {w : Fin n}

/-- The rings as the producers left them; of the tiers in `mid` whose ring is empty, a pop is yet to notify. -/
def init (n : Nat) (rings : Tier → Ring) (mid : Tier → Bool) (generation : Nat) : RingSet n where
  rings           := rings
  notifying       := fun t => mid t && ringTiers.contains t && (rings t).q.isEmpty
  drainGeneration := generation % 2 ^ 64
  drainMu         := none
  waiter          := fun _ => .idle
  expired         := fun _ => false
  notified        := 0

/-- `TryPop` (with a batch of 1) and `WaitAndPopBatch` once it is past its wait, under the ring's mutex. -/
def pop (s : RingSet n) (t : Tier) (maxBatch : Nat) : Option (RingSet n) :=
  if t ∉ ringTiers ∨ s.notifying t = true then none
  else if (s.rings t).q = [] then some s
  else some { s with
    rings := Function.update s.rings t ((s.rings t).popBatch maxBatch).2
    notifying := Function.update s.notifying t ((s.rings t).popBatch maxBatch).2.q.isEmpty }

/-- `NotifyDrainTransition`, and the pop that called it is over. -/
def notifyDrainTransition (s : RingSet n) (t : Tier) : Option (RingSet n) :=
  if s.notifying t = true ∧ s.drainMu = none then
    some { s with
      notifying := Function.update s.notifying t false
      drainGeneration := (s.drainGeneration + 1) % 2 ^ 64
      waiter := fun w => (s.waiter w).notify
      notified := s.notified + 1 }
  else none

def goto (s : RingSet n) (w : Fin n) (p : Waiter) : RingSet n := { s with waiter := Function.update s.waiter w p }

/-- One access of `WaitUntilAllEmpty`.  `Size` takes the ring's mutex; `wait_until` looks at the generation and goes to
sleep under `drain_mu_`. -/
def waiterStep (s : RingSet n) (w : Fin n) : Option (RingSet n) :=
  match s.waiter w with
  | .idle => some (s.goto w (.checking false ringTiers))
  | .checking _ [] => some (s.goto w (.returned true))
  | .checking last (t :: todo) =>
    if s.notifying t = true then none
    else if (s.rings t).q = [] then some (s.goto w (.checking last todo))
    else some (s.goto w (if last then .returned false else .busy))
  | .busy => if s.drainMu = none then some ({ s with drainMu := some w }.goto w (.snapped s.drainGeneration)) else none
  | .snapped seen =>
    some ({ s with drainMu := none }.goto w
      (if s.drainGeneration ≠ seen then .checking false ringTiers else .asleep seen))
  | .asleep _ => none
  | .woken late seen =>
    if s.drainMu = none then
      some (s.goto w
        (if s.drainGeneration ≠ seen then .checking false ringTiers
         else if late then .checking true ringTiers
         else .asleep seen))
    else none
  | .returned _ => none

/-- A sleeping waiter wakes without a notification, or, when its deadline is over, at its timeout. -/
def wake (s : RingSet n) (w : Fin n) (late : Bool) : Option (RingSet n) :=
  match s.waiter w with
  | .asleep seen => if late = true ∧ s.expired w = false then none else some (s.goto w (.woken late seen))
  | _ => none

def step (s : RingSet n) : DrainAct n → Option (RingSet n)
  | .pop t maxBatch => s.pop t maxBatch
  | .notify t       => s.notifyDrainTransition t
  | .waiter w       => s.waiterStep w
  | .spurious w     => s.wake w false
  | .deadline w     => some { s with expired := Function.update s.expired w true }
  | .timeout w      => s.wake w true

/-! ## Notifications to come -/

/-- A notification of tier `t` is to come: its ring is not empty, or the pop that emptied it has not notified yet. -/
def undrained (s : RingSet n) (t : Tier) : Bool := !(s.rings t).q.isEmpty || s.notifying t

/-- A notification is to come. -/
def due (s : RingSet n) : Bool := ringTiers.any s.undrained

/-- How many notifications are to come, at most. -/
def pending (s : RingSet n) : Nat := ringTiers.countP s.undrained

/-- A waiter is asleep before its deadline, all three rings are empty, and no pop has a notification to make. -/
def Lost (s : RingSet n) (w : Fin n) : Prop :=
  (∃ seen, s.waiter w = .asleep seen) ∧ s.expired w = false ∧
    ∀ t ∈ ringTiers, (s.rings t).q = [] ∧ s.notifying t = false

/-- The last notification does not come while a waiter has found a ring not empty and has no generation yet. -/
def lastInTime (s : RingSet n) : DrainAct n → Bool
  | .notify t => decide ((∃ w, s.waiter w = .busy) → ∃ t' ∈ ringTiers, t' ≠ t ∧ s.undrained t' = true)
  | _ => true

theorem due_iff : s.due = true ↔ ∃ t ∈ ringTiers, s.undrained t = true := List.any_eq_true

theorem pop_undrained (h : s.pop t k = some s') :
    s'.undrained = s.undrained ∧ s'.waiter = s.waiter ∧ s'.drainGeneration = s.drainGeneration ∧ s'.notified = s.notified := by
  unfold pop at h
  split at h
  · cases h
  · split at h <;> cases h
    · exact ⟨rfl, rfl, rfl, rfl⟩
    · rename_i hn hq
      refine ⟨funext (fun t' => ?_), rfl, rfl, rfl⟩
      by_cases ht : t' = t
      · subst ht
        have hne : (s.rings t').q.isEmpty = false := by simpa using hq
        simp only [undrained, Function.update_self, hne, Bool.not_false, Bool.true_or, Bool.not_or_self]
      · simp only [undrained, Function.update_of_ne ht]

theorem notify_eq (h : s.notifyDrainTransition t = some s') :
    s.notifying t = true ∧ s' = { s with
      notifying := Function.update s.notifying t false
      drainGeneration := (s.drainGeneration + 1) % 2 ^ 64
      waiter := fun w => (s.waiter w).notify
      notified := s.notified + 1 } := by
  unfold notifyDrainTransition at h
  split at h
  · rename_i hc
    exact ⟨hc.1, (Option.some.inj h).symm⟩
  · cases h

theorem notify_undrained (hq : (s.rings t).q = []) (h : s.notifyDrainTransition t = some s') (t' : Tier) :
    s'.undrained t' = (decide (t' ≠ t) && s.undrained t') := by
  obtain ⟨-, rfl⟩ := notify_eq h
  by_cases ht : t' = t
  · subst ht
    simp [undrained, hq]
  · simp [undrained, ht]

theorem notify_pending (ht : t ∈ ringTiers) (hq : (s.rings t).q = []) (h : s.notifyDrainTransition t = some s') :
    s'.pending + 1 = s.pending := by
  have hn : s.undrained t = true := by rw [undrained, (notify_eq h).1, Bool.or_true]
  simp only [pending, ringTiers, List.countP_cons, List.countP_nil, notify_undrained hq h]
  cases t with
  | unspecified => simp [ringTiers] at ht
  | critical => simp [hn]
  | state => simp [hn]; omega
  | ephemeral => simp [hn]; omega

/-! ## The invariant -/

/-- What is known of a waiter after `notified` notifications, when `due` says whether another one is to come: the ones
that have looked at a generation looked at one since the start, and if it is the current one, or they sleep, another
one is to come. -/
def safe (g notified : Nat) (due : Bool) : Waiter → Prop
  | .checking _ todo => ∀ t ∈ todo, t ∈ ringTiers
  | .busy => due = true
  | .snapped k | .woken _ k => ∃ m ≤ notified, k = (g + m) % 2 ^ 64 ∧ (m = notified → due = true)
  | .asleep k => k = (g + notified) % 2 ^ 64 ∧ due = true
  | _ => True

structure Sound (g : Nat) (s : RingSet n) : Prop where
  generation : s.drainGeneration = (g + s.notified) % 2 ^ 64
  budget     : s.notified + s.pending ≤ 3
  emptied    : ∀ t, s.notifying t = true → t ∈ ringTiers ∧ (s.rings t).q = []
  waiters    : ∀ w, safe g s.notified s.due (s.waiter w)

theorem sound_init (n : Nat) (rings : Tier → Ring) (mid : Tier → Bool) (g : Nat) : Sound g (init n rings mid g) where
  generation := rfl
  budget := by
    rw [show (init n rings mid g).notified = 0 from rfl, Nat.zero_add]
    exact List.countP_le_length
  emptied := fun t ht => by
    simp only [init, Bool.and_eq_true] at ht
    exact ⟨by simpa using ht.1.2, List.isEmpty_iff.1 ht.2⟩
  waiters := fun _ => trivial

variable {g : Nat}

theorem Sound.goto (hs : Sound g s) (mu : Option (Fin n)) {p : Waiter} (hp : safe g s.notified s.due p) :
    Sound g ({ s with drainMu := mu }.goto w p) where
  generation := hs.generation
  budget := hs.budget
  emptied := hs.emptied
  waiters := fun w' => by
    by_cases hw : w' = w
    · subst hw
      simp only [RingSet.goto, Function.update_self]
      exact hp
    · simp only [RingSet.goto, Function.update_of_ne hw]
      exact hs.waiters w'

/-- A waiter that looks at the generation and finds it unchanged still has a notification to come: fewer than `2 ^ 64`
of them have been made since. -/
theorem Sound.unchanged (hs : Sound g s) (hk : ∃ m ≤ s.notified, k = (g + m) % 2 ^ 64 ∧ (m = s.notified → s.due = true))
    (he : s.drainGeneration = k) : k = (g + s.notified) % 2 ^ 64 ∧ s.due = true := by
  obtain ⟨m, hm, rfl, hdue⟩ := hk
  have hgen := hs.generation
  have hbudget := hs.budget
  have hmn : m = s.notified := by omega
  exact ⟨by rw [hmn], hdue hmn⟩

theorem Sound.pop (hs : Sound g s) (h : s.pop t k = some s') : Sound g s' := by
  obtain ⟨hu, hw, hg, hn⟩ := pop_undrained h
  have hdue : s'.due = s.due := by rw [due, due, hu]
  refine ⟨by rw [hg, hn]; exact hs.generation, by rw [pending, hu, hn]; exact hs.budget, ?_, ?_⟩
  · unfold RingSet.pop at h
    split at h
    · cases h
    · rename_i hc
      split at h <;> cases h
      · exact hs.emptied
      · intro t' ht'
        by_cases ht : t' = t
        · subst ht
          simp only [Function.update_self] at ht' ⊢
          exact ⟨Classical.byContradiction (fun hne => hc (.inl hne)), List.isEmpty_iff.1 ht'⟩
        · simp only [Function.update_of_ne ht] at ht' ⊢
          exact hs.emptied t' ht'
  · intro w
    rw [hw, hn, hdue]
    exact hs.waiters w

theorem safe_notify {notified : Nat} {due due' : Bool} {p : Waiter} (hp : safe g notified due p)
    (hbusy : p = .busy → due' = true) : safe g (notified + 1) due' p.notify := by
  cases p with
  | busy => exact hbusy rfl
  | asleep k => exact ⟨notified, Nat.le_succ _, hp.1, fun h => absurd h (Nat.ne_of_lt (Nat.lt_succ_self _))⟩
  | snapped k | woken late k =>
    obtain ⟨m, hm, hk, _⟩ := hp
    exact ⟨m, Nat.le_succ_of_le hm, hk, fun h => by omega⟩
  | checking last todo => exact hp
  | idle | returned drained => trivial

theorem Sound.notify (hs : Sound g s) (hlast : s.lastInTime (.notify t) = true)
    (h : s.notifyDrainTransition t = some s') : Sound g s' := by
  obtain ⟨hn, heq⟩ := notify_eq h
  obtain ⟨ht, hq⟩ := hs.emptied t hn
  have hu := notify_undrained hq h
  have hpending := notify_pending ht hq h
  have hbusy : (∃ w, s.waiter w = .busy) → s'.due = true := fun hw => by
    obtain ⟨t', ht', hne, hu'⟩ := of_decide_eq_true hlast hw
    exact due_iff.2 ⟨t', ht', by rw [hu t', hu', decide_eq_true hne]; rfl⟩
  have hgen := hs.generation
  have hbudget := hs.budget
  subst heq
  refine ⟨?_, ?_, ?_, fun w => safe_notify (hs.waiters w) (fun hw => hbusy ⟨w, hw⟩)⟩
  · simp only
    omega
  · simp only
    omega
  · intro t' ht'
    by_cases he : t' = t
    · subst he
      simp at ht'
    · simp only [Function.update_of_ne he] at ht'
      exact hs.emptied t' ht'

theorem Sound.waiterStep (hs : Sound g s) (h : s.waiterStep w = some s') : Sound g s' := by
  have hw := hs.waiters w
  have hstart : ∀ last, safe g s.notified s.due (.checking last ringTiers) := fun _ _ ht => ht
  unfold RingSet.waiterStep at h
  split at h
  · cases h
    exact hs.goto s.drainMu (hstart false)
  · cases h
    exact hs.goto s.drainMu trivial
  · rename_i last t todo hp
    rw [hp] at hw
    split at h
    · cases h
    · split at h <;> cases h
      · exact hs.goto s.drainMu (fun t' ht' => hw t' (List.mem_cons_of_mem t ht'))
      · rename_i hq
        refine hs.goto s.drainMu ?_
        cases last with
        | true => trivial
        | false =>
          refine due_iff.2 ⟨t, hw t List.mem_cons_self, ?_⟩
          have hne : (s.rings t).q.isEmpty = false := by simpa using hq
          rw [undrained, hne]
          rfl
  · rename_i hp
    rw [hp] at hw
    split at h <;> cases h
    exact hs.goto (some w) ⟨s.notified, Nat.le_refl _, hs.generation, fun _ => hw⟩
  · rename_i seen hp
    rw [hp] at hw
    cases h
    refine hs.goto none ?_
    split
    · exact hstart false
    · rename_i he
      exact hs.unchanged hw (Classical.not_not.1 he)
  · cases h
  · rename_i late seen hp
    rw [hp] at hw
    split at h <;> cases h
    refine hs.goto s.drainMu ?_
    split
    · exact hstart false
    · rename_i he
      split
      · exact hstart true
      · exact hs.unchanged hw (Classical.not_not.1 he)
  · cases h

theorem Sound.wake {late : Bool} (hs : Sound g s) (h : s.wake w late = some s') : Sound g s' := by
  have hw := hs.waiters w
  unfold RingSet.wake at h
  split at h
  · rename_i seen hp
    rw [hp] at hw
    split at h <;> cases h
    exact hs.goto s.drainMu ⟨s.notified, Nat.le_refl _, hw.1, fun _ => hw.2⟩
  · cases h

theorem Sound.step {a : DrainAct n} (hs : Sound g s) (hlast : s.lastInTime a = true) (h : s.step a = some s') :
    Sound g s' := by
  cases a with
  | pop t k => exact hs.pop h
  | notify t => exact hs.notify hlast h
  | waiter w => exact hs.waiterStep h
  | spurious w => exact hs.wake h
  | deadline w =>
    cases h
    exact ⟨hs.generation, hs.budget, hs.emptied, hs.waiters⟩
  | timeout w => exact hs.wake h

/-- **No drain wake-up is lost**: from any contents of the rings and any generation, in every run of any number of
waiters with pops on the three rings in which the last notification never comes between a waiter's look at a ring that
is not empty and its snapshot of the generation, no waiter is left asleep. -/
theorem no_lost_wakeup (n : Nat) (rings : Tier → Ring) (mid : Tier → Bool) (g : Nat) (as : List (DrainAct n))
    (s : RingSet n) (hrun : Run.exec step as (init n rings mid g) = some s)
    (hlast : Run.along step lastInTime as (init n rings mid g) = true) (w : Fin n) : ¬ s.Lost w := by
  rintro ⟨⟨seen, hasleep⟩, _, hempty⟩
  have hs := Run.exec_inv_along (I := Sound g) (fun _ _ _ hi hg hs => hi.step hg hs) as _ s
    (sound_init n rings mid g) hlast hrun
  have hw := hs.waiters w
  rw [hasleep] at hw
  obtain ⟨t, ht, hu⟩ := due_iff.1 hw.2
  obtain ⟨hq, hn⟩ := hempty t ht
  rw [undrained, hq, hn] at hu
  cases hu

/-- Tier 1 holds one entry, the waiter finds it, and the pop and its notification come before (`true`) or after (`false`)
the snapshot. -/
def popAroundSnapshot (before : Bool) : List (DrainAct 1) :=
  let drain : List (DrainAct 1) := [.pop .critical 64, .notify .critical]
  [.waiter 0, .waiter 0] ++ (if before then drain else []) ++ [.waiter 0, .waiter 0] ++ (if before then [] else drain)

def oneEntry (t : Tier) : Ring := if t = .critical then (Ring.make 4).push ⟨1, some [1]⟩ else .make 4

theorem no_lost_wakeup_popAroundSnapshot :
    (Run.exec step (popAroundSnapshot false) (init 1 oneEntry (fun _ => false) 0)).map (fun s => (s.waiter 0, s.due))
      = some (.woken false 0, false) ∧
    ∀ s, Run.exec step (popAroundSnapshot false) (init 1 oneEntry (fun _ => false) 0) = some s → ¬ s.Lost 0 :=
  ⟨by decide +kernel, fun s hs => no_lost_wakeup 1 oneEntry (fun _ => false) 0 (popAroundSnapshot false) s hs
    (by decide +kernel) 0⟩

/-- The last notification comes before the snapshot: the waiter sleeps with nothing left to wake it. -/
theorem popAroundSnapshot_lost :
    (Run.exec step (popAroundSnapshot true) (init 1 oneEntry (fun _ => false) 0)).map (fun s =>
        (s.waiter 0, s.expired 0, ringTiers.map (fun t => ((s.rings t).q, s.notifying t))))
      = some (.asleep 1, false, [([], false), ([], false), ([], false)]) := by
  decide +kernel

end RingSet
end Events
end Osw
