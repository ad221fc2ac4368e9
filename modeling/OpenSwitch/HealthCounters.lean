import OpenSwitch.Publish
import OpenSwitch.Run
import OpenSwitch.PlaneSteps
/-!
# HealthCounters — what `Health` shows of the event plane (`binder.cc`, `broadcaster.cc`, `health.h`)

At the end of `HandleEvent` the counters of the binder are loaded and stored in `Health`, one after another and without
a lock; `AddSubscriber`, `AddSubscriberAtomic` and `RemoveSubscriber` take the size of the roster under `roster_mu_` and
store it after they have let go of it.  An older value can be stored last and stay.  When none is, `Health` is right as
soon as nobody is in between (`health_right_at_rest`).
-/
namespace Osw
namespace Events

/-- The counters of `Health`. -/
structure HealthCounters where
  eventsEmittedTotal : Nat
  subscriberCount    : Nat
  ringFillPct        : Tier → Nat
  droppedTotal       : Tier → Nat

/-- The fields `IncrementHealthCounters` stores. -/
inductive HealthField
  | eventsEmitted
  | ringFill (t : Tier)
  | dropped (t : Tier)
  deriving DecidableEq, Repr

/-- The fields in the order they are stored. -/
def healthFields : List HealthField :=
  [.eventsEmitted, .ringFill .critical, .ringFill .state, .ringFill .ephemeral, .dropped .critical, .dropped .state,
    .dropped .ephemeral]

/-- The fields that are copies of a counter of the binder. -/
def counterFields : List HealthField := [.eventsEmitted, .dropped .critical, .dropped .state, .dropped .ephemeral]

namespace HealthCounters

def init : HealthCounters := ⟨0, 0, fun _ => 0, fun _ => 0⟩

/-- A field as it is shown. -/
def get (h : HealthCounters) : HealthField → Nat
  | .eventsEmitted => h.eventsEmittedTotal
  | .ringFill t    => h.ringFillPct t
  | .dropped t     => h.droppedTotal t

/-- The store of a field. -/
def set (h : HealthCounters) (v : Nat) : HealthField → HealthCounters
  | .eventsEmitted => { h with eventsEmittedTotal := v }
  | .ringFill t    => { h with ringFillPct := Function.update h.ringFillPct t v }
  | .dropped t     => { h with droppedTotal := Function.update h.droppedTotal t v }

theorem get_set_self (h : HealthCounters) (v : Nat) (f : HealthField) : (h.set v f).get f = v := by
  cases f <;> simp [set, get]

theorem get_set_of_ne {f g : HealthField} (h : HealthCounters) (v : Nat) (hne : g ≠ f) : (h.set v f).get g = h.get g := by
  cases f <;> cases g <;> simp_all [set, get]

theorem set_subscriberCount (h : HealthCounters) (v : Nat) (f : HealthField) :
    (h.set v f).subscriberCount = h.subscriberCount := by
  cases f <;> rfl

end HealthCounters

namespace Plane

variable {s s' : Plane}

/-- What is loaded for a field. -/
def read (s : Plane) : HealthField → Nat
  | .eventsEmitted => s.eventsEmitted
  | .ringFill t    =>
    let r := (s.lanes t).ring
    if r.capacity = 0 then 0 else r.q.length * 100 / r.capacity % 2 ^ 32
  | .dropped t     => s.dropped t

/-- The call whose section of the roster ends with a step. -/
def rosterCall (s : Plane) : PlaneAct → Option Nat
  | .addSubscriber i _ _ => some i
  | .handler i _ =>
    match s.handler i with
    | .joining _ _ _ => some i
    | .removing _ _  => some i
    | _ => none
  | _ => none

/-- The call that goes on to `IncrementHealthCounters` with a step. -/
def emitting (s : Plane) : PlaneAct → Option Nat
  | .count n => if s.calls.lookup n = some .counted then some n else none
  | _ => none

theorem step_roster_same {a : PlaneAct} (h : s.step a = some s') (hr : s.rosterCall a = none) : s'.roster = s.roster := by
  cases a with
  | subscribe j req => obtain ⟨-, ⟨st, rfl⟩ | ⟨filter, c, tiers, rfl⟩⟩ := subscribe_cases h <;> rfl
  | addSubscriber j filter c => cases hr
  | handler j c =>
    simp only [step, handlerStep] at h
    simp only [rosterCall] at hr
    split at h
    · cases h
    · split at h <;> cases h
      rfl
    · cases h
      rfl
    · cases h
      unfold replayStep
      split <;> rfl
    · rename_i hh
      rw [hh] at hr
      cases hr
    · cases h
      rfl
    · cases h
      unfold writerPop
      split <;> rfl
    iterate 3 · split at h <;> cases h <;> rfl
    · rename_i hh
      rw [hh] at hr
      cases hr
    · cases h
  | _ => exact (step_sameRegistrations h rfl).roster

/-- The counters of the binder and the calls that have counted their drop are as they were, and no call but a new one
has come. -/
structure SameCounters (s s' : Plane) (a : PlaneAct) : Prop where
  dropped       : s'.dropped = s.dropped
  eventsEmitted : s'.eventsEmitted = s.eventsEmitted
  counted       : ∀ n, s'.calls.lookup n = some .counted ↔ s.calls.lookup n = some .counted
  came          : ∀ n, s'.calls.lookup n ≠ none → s.calls.lookup n ≠ none ∨ ∃ t, a = .alloc n t

theorem SameCounters.of_calls {a : PlaneAct} (hd : s'.dropped = s.dropped) (he : s'.eventsEmitted = s.eventsEmitted)
    (hc : s'.calls = s.calls) : SameCounters s s' a :=
  ⟨hd, he, fun n => by rw [hc], fun n hn => .inl (by rwa [hc] at hn)⟩

theorem SameCounters.of_insert {a : PlaneAct} {n : Nat} {c : Call} (hd : s'.dropped = s.dropped)
    (he : s'.eventsEmitted = s.eventsEmitted) (hcalls : s'.calls = s.calls.insert n c) (hc : c ≠ .counted)
    (hn : s.calls.lookup n ≠ some .counted) (hcame : s.calls.lookup n ≠ none ∨ ∃ t, a = .alloc n t) :
    SameCounters s s' a := by
  refine ⟨hd, he, fun k => ?_, fun k hk => ?_⟩
  · rw [hcalls]
    by_cases hkn : k = n
    · subst hkn
      rw [AList.lookup_insert]
      exact ⟨fun heq => absurd (Option.some.inj heq) hc, fun heq => absurd heq hn⟩
    · rw [AList.lookup_insert_ne hkn]
  · by_cases hkn : k = n
    · subst hkn
      exact hcame
    · rw [hcalls, AList.lookup_insert_ne hkn] at hk
      exact .inl hk

theorem step_counters {a : PlaneAct} (h : s.step a = some s') :
    (∃ n t d, s.emitting a = none ∧ s.calls.lookup n = some (.pushed t d) ∧
      s'.dropped = Function.update s.dropped t (s.dropped t + d) ∧ s'.eventsEmitted = s.eventsEmitted ∧
      s'.calls = s.calls.insert n .counted) ∨
    (∃ n, s.emitting a = some n ∧ s.calls.lookup n = some .counted ∧ s'.dropped = s.dropped ∧
      s'.eventsEmitted = s.eventsEmitted + 1 ∧ s'.calls = s.calls.erase n) ∨
    (s.emitting a = none ∧ SameCounters s s' a) := by
  cases a with
  | alloc n t =>
    simp only [step, alloc] at h
    split at h <;> cases h
    rename_i hfree
    have hnone : s.calls.lookup n = none := AList.lookup_eq_none.2 fun hn => hfree (.inr hn)
    exact .inr (.inr ⟨rfl, .of_insert rfl rfl rfl (by simp) (by simp [hnone]) (.inr ⟨t, rfl⟩)⟩)
  | build n bytes =>
    simp only [step, build] at h
    split at h
    · rename_i hc
      split at h <;> cases h
      · refine .inr (.inr ⟨rfl, rfl, rfl, fun k => ?_, fun k hk => ?_⟩)
        · by_cases hkn : k = n
          · subst hkn
            rw [AList.lookup_erase, hc]
            simp
          · rw [AList.lookup_erase_ne hkn]
        · by_cases hkn : k = n
          · subst hkn
            exact absurd (AList.lookup_erase ..) hk
          · rw [AList.lookup_erase_ne hkn] at hk
            exact .inl hk
      · exact .inr (.inr ⟨rfl, .of_insert rfl rfl rfl (by simp) (by simp [hc]) (.inl (by simp [hc]))⟩)
    · cases h
  | push n =>
    simp only [step, push] at h
    split at h <;> cases h
    rename_i hc
    exact .inr (.inr ⟨rfl, .of_insert rfl rfl rfl (by simp) (by simp [hc]) (.inl (by simp [hc]))⟩)
  | count n =>
    simp only [step, count] at h
    split at h <;> cases h
    · rename_i t d hc
      exact .inl ⟨n, t, d, if_neg (by simp [hc]), hc, rfl, rfl, rfl⟩
    · rename_i hc
      exact .inr (.inl ⟨n, if_pos hc, hc, rfl, rfl, rfl⟩)
  | worker t =>
    refine .inr (.inr ⟨rfl, ?_⟩)
    rcases workerStep_cases h with ⟨_, rfl⟩ | ⟨_, rfl⟩ | ⟨_, rfl⟩ | ⟨e, es, _, _, rfl⟩ | ⟨roster, e, es, stage, _, rfl⟩ |
      ⟨roster, e, es, i, rest, stage, _, rfl⟩
    iterate 4 · exact .of_calls rfl rfl rfl
    · cases es <;> exact .of_calls rfl rfl rfl
    · rcases s.dispatchTo_cases t roster e es i rest stage with ⟨_, _, hd⟩ | ⟨_, _, _, hd⟩ | ⟨_, f, _, hd⟩ | ⟨_, _, hd⟩ |
        ⟨st, _, hd⟩ | ⟨_, hd⟩ <;> rw [hd] <;> exact .of_calls rfl rfl rfl
  | subscribe i req =>
    obtain ⟨-, ⟨st, rfl⟩ | ⟨filter, c, tiers, rfl⟩⟩ := subscribe_cases h <;>
      exact .inr (.inr ⟨rfl, .of_calls rfl rfl rfl⟩)
  | addSubscriber i filter c =>
    obtain ⟨-, -, rfl⟩ := addSubscriber_cases h
    exact .inr (.inr ⟨rfl, .of_calls rfl rfl rfl⟩)
  | handler i c =>
    obtain ⟨_, _, _, _, _, rfl⟩ := handlerStep_onlyCall h
    exact .inr (.inr ⟨rfl, .of_calls rfl rfl rfl⟩)
  | requestClose n i r =>
    simp only [step, requestClose] at h
    split at h <;> cases h
    exact .inr (.inr ⟨rfl, .of_calls rfl rfl rfl⟩)
  | closer n =>
    simp only [step, closerStep] at h
    split at h <;> cases h
    exact .inr (.inr ⟨rfl, .of_calls rfl rfl rfl⟩)
  | stop =>
    obtain ⟨_, _, _, _, rfl, _, _⟩ := stopStep_frame h
    exact .inr (.inr ⟨rfl, .of_calls rfl rfl rfl⟩)

end Plane

/-! ## The plane with `Health` -/

/-- Where `IncrementHealthCounters` is: the fields still to store, and the value loaded for the first of them. -/
structure Publishing where
  todo : List HealthField
  held : Option Nat
  deriving DecidableEq, Repr

/-- The plane, `Health`, the calls in `IncrementHealthCounters`, and the counts of the roster taken and not yet stored,
each with the number of the section it was taken in.  `sections` counts the sections; `shown` is the one whose count
`Health` shows. -/
structure HealthPlane where
  plane    : Plane
  health   : HealthCounters
  jobs     : Nat → Publishing
  counts   : Nat → Option (Nat × Nat)
  sections : Nat
  shown    : Nat

/-- A step of the plane, a `RemoveSubscriber` of a thread that is not the handler of the subscriber, or a step of what
follows in `Health`. -/
inductive HealthAct
  | plane (a : PlaneAct)
  | removeSubscriber (n i : Nat)
  | publish (n : Nat)
  | setSubscriberCount (i : Nat)
  deriving DecidableEq, Repr

namespace HealthPlane

def init (maxSubscribers queueCapacity : Nat) (capacity : Tier → Nat) : HealthPlane :=
  ⟨.init maxSubscribers queueCapacity capacity, .init, fun _ => ⟨[], none⟩, fun _ => none, 0, 0⟩

/-- A thread takes its next step only when it is done with `Health`. -/
def busy (s : HealthPlane) : PlaneAct → Bool
  | .alloc n _   => decide ((s.jobs n).todo ≠ [])
  | .handler i _ => (s.counts i).isSome
  | .addSubscriber i _ _ => (s.counts i).isSome
  | _ => false

/-- A step of the plane; the counters go on to be published. -/
def planeStep (s : HealthPlane) (a : PlaneAct) : Option HealthPlane :=
  if s.busy a then none
  else (s.plane.step a).map fun p =>
    { s with
      plane := p
      jobs := match s.plane.emitting a with
        | none   => s.jobs
        | some n => Function.update s.jobs n ⟨healthFields, none⟩
      counts := match s.plane.rosterCall a with
        | none   => s.counts
        | some i => Function.update s.counts i (some (s.sections + 1, p.roster.length))
      sections := match s.plane.rosterCall a with
        | none   => s.sections
        | some _ => s.sections + 1 }

/-- `RemoveSubscriber` of the subscriber `i` on the thread `n`. -/
def removeSubscriber (s : HealthPlane) (n i : Nat) : Option HealthPlane :=
  if (s.counts n).isSome then none
  else (s.plane.removeSubscriber i).map fun p =>
    { s with
      plane := p
      counts := Function.update s.counts n (some (s.sections + 1, p.roster.length))
      sections := s.sections + 1 }

/-- The next load or store of `IncrementHealthCounters`. -/
def publish (s : HealthPlane) (n : Nat) : Option HealthPlane :=
  match s.jobs n with
  | ⟨[], _⟩ => none
  | ⟨f :: fs, none⟩ => some { s with jobs := Function.update s.jobs n ⟨f :: fs, some (s.plane.read f)⟩ }
  | ⟨f :: fs, some v⟩ =>
    some { s with health := s.health.set v f, jobs := Function.update s.jobs n ⟨fs, none⟩ }

/-- `SetSubscriberCount`, in 32 bits. -/
def setSubscriberCount (s : HealthPlane) (i : Nat) : Option HealthPlane :=
  match s.counts i with
  | none => none
  | some (v, c) =>
    some { s with
      health := { s.health with subscriberCount := c % 2 ^ 32 }
      counts := Function.update s.counts i none
      shown := v }

def step (s : HealthPlane) : HealthAct → Option HealthPlane
  | .plane a              => s.planeStep a
  | .removeSubscriber n i => s.removeSubscriber n i
  | .publish n            => s.publish n
  | .setSubscriberCount i => s.setSubscriberCount i

/-- No store takes `Health` back: a counter is stored when it is not below the one shown, and a count of the roster when
it was not taken before the one shown. -/
def inOrder (s : HealthPlane) : HealthAct → Bool
  | .plane _ | .removeSubscriber _ _ => true
  | .publish n =>
    match s.jobs n with
    | ⟨f :: _, some v⟩ => !counterFields.contains f || decide (s.health.get f ≤ v)
    | _ => true
  | .setSubscriberCount i =>
    match s.counts i with
    | some (v, _) => decide (s.shown ≤ v)
    | none => true

/-! ## The invariant -/

end HealthPlane

/-- What a call in `IncrementHealthCounters` has still to do for a field. -/
def Publishing.due (job : Publishing) (f : HealthField) : Option Due :=
  match job with
  | ⟨[], _⟩ => none
  | ⟨g :: gs, held⟩ =>
    if f = g then
      match held with
      | none   => some .load
      | some v => some (.store v)
    else if f ∈ gs then some .load else none

theorem Publishing.due_fresh (todo : List HealthField) (f : HealthField) :
    Publishing.due ⟨todo, none⟩ f = if f ∈ todo then some .load else none := by
  cases todo with
  | nil => rfl
  | cons g gs =>
    simp only [due, List.mem_cons]
    by_cases hf : f = g
    · simp [hf]
    · simp [hf]

theorem Publishing.due_of_ne {f g : HealthField} (gs : List HealthField) (held : Option Nat) (h : f ≠ g) :
    Publishing.due ⟨g :: gs, held⟩ f = Publishing.due ⟨gs, none⟩ f := by
  rw [due_fresh]
  simp only [due, if_neg h]

namespace HealthPlane

variable {s s' : HealthPlane} {f : HealthField} {p : Plane} {a : PlaneAct} {i n : Nat}

/-- What a call of `HandleEvent` has still to do for a field, from the count of its drop on. -/
def due (s : HealthPlane) (f : HealthField) (n : Nat) : Option Due :=
  if s.plane.calls.lookup n = some .counted then some .load else (s.jobs n).due f

/-- What a section of the roster has still to do. -/
def countDue (s : HealthPlane) (i : Nat) : Option Due := (s.counts i).map fun p => .store p.1

structure Inv (s : HealthPlane) : Prop where
  nodup  : ∀ n, (s.jobs n).todo.Nodup
  idle   : ∀ n, s.plane.calls.lookup n ≠ none → (s.jobs n).todo = []
  fields : ∀ f ∈ counterFields, Fresh (s.plane.read f) (s.health.get f) (s.due f)
  roster : Fresh s.sections s.shown s.countDue
  taken  : ∀ i v c, s.counts i = some (v, c) → v = s.sections → c = s.plane.roster.length
  showsLast : s.shown = s.sections → s.health.subscriberCount = s.plane.roster.length % 2 ^ 32

theorem inv_init (m c : Nat) (capacity : Tier → Nat) : Inv (init m c capacity) where
  nodup  := fun _ => .nil
  idle   := fun _ _ => rfl
  fields := fun f hf => by
    have hzero : (init m c capacity).plane.read f = 0 ∧ (init m c capacity).health.get f = 0 := by
      simp only [counterFields, List.mem_cons, List.not_mem_nil, or_false] at hf
      rcases hf with rfl | rfl | rfl | rfl <;> exact ⟨rfl, rfl⟩
    rw [hzero.1, hzero.2]
    exact .start fun _ => rfl
  roster := .start fun _ => rfl
  taken  := nofun
  showsLast := fun _ => rfl

theorem mem_healthFields (h : f ∈ counterFields) : f ∈ healthFields := by
  simp only [counterFields, List.mem_cons, List.not_mem_nil, or_false] at h
  rcases h with rfl | rfl | rfl | rfl <;> decide

theorem read_same {p' : Plane} (hf : f ∈ counterFields) (hd : p'.dropped = p.dropped)
    (he : p'.eventsEmitted = p.eventsEmitted) : p'.read f = p.read f := by
  simp only [counterFields, List.mem_cons, List.not_mem_nil, or_false] at hf
  rcases hf with rfl | rfl | rfl | rfl
  · exact he
  all_goals simp only [Plane.read, hd]

theorem read_le {p' : Plane} (hf : f ∈ counterFields) (hd : ∀ t, p.dropped t ≤ p'.dropped t)
    (he : p.eventsEmitted ≤ p'.eventsEmitted) : p.read f ≤ p'.read f := by
  simp only [counterFields, List.mem_cons, List.not_mem_nil, or_false] at hf
  rcases hf with rfl | rfl | rfl | rfl
  · exact he
  all_goals exact hd _

theorem Inv.planeFields (h : Inv s) (hp : s.plane.step a = some p) {jobs : Nat → Publishing}
    (hstay : s.plane.emitting a = none → jobs = s.jobs)
    (hemit : ∀ n, s.plane.emitting a = some n → jobs = Function.update s.jobs n ⟨healthFields, none⟩) :
    ∀ f ∈ counterFields, Fresh (p.read f) (s.health.get f)
      (fun n => if p.calls.lookup n = some .counted then some .load else (jobs n).due f) := by
  intro f hf
  rcases Plane.step_counters hp with ⟨n, t, d, hem, -, hd, he, hcalls⟩ | ⟨n, hem, -, hd, he, hcalls⟩ | ⟨hem, hsame⟩
  · -- the call has counted its drop, and is to load every field
    obtain rfl := hstay hem
    refine (h.fields f hf).change (read_le hf (fun t' => ?_) (Nat.le_of_eq he.symm)) (i := n) ?_ fun k hk => ?_
    · rw [hd]
      by_cases ht : t' = t
      · subst ht
        rw [Function.update_self]
        omega
      · rw [Function.update_of_ne ht]
    · rw [hcalls, AList.lookup_insert, if_pos rfl]
    · simp only [hcalls, AList.lookup_insert_ne hk, due]
  · obtain rfl := hemit n hem
    refine (h.fields f hf).change (read_le hf (fun t' => by rw [hd]) (by omega)) (i := n) ?_ fun k hk => ?_
    · rw [hcalls, AList.lookup_erase, if_neg nofun, Function.update_self, Publishing.due_fresh,
        if_pos (mem_healthFields hf)]
    · simp only [hcalls, AList.lookup_erase_ne hk, Function.update_of_ne hk, due]
  · obtain rfl := hstay hem
    rw [read_same hf hsame.dropped hsame.eventsEmitted]
    simp only [hsame.counted]
    exact h.fields f hf

theorem Inv.planeIdle (h : Inv s) (hp : s.plane.step a = some p) (hbusy : s.busy a = false) {jobs : Nat → Publishing}
    (hstay : s.plane.emitting a = none → jobs = s.jobs)
    (hemit : ∀ n, s.plane.emitting a = some n → jobs = Function.update s.jobs n ⟨healthFields, none⟩) :
    (∀ n, (jobs n).todo.Nodup) ∧ ∀ n, p.calls.lookup n ≠ none → (jobs n).todo = [] := by
  rcases Plane.step_counters hp with ⟨n, t, d, hem, hc, -, -, hcalls⟩ | ⟨n, hem, -, -, -, hcalls⟩ | ⟨hem, hsame⟩
  · obtain rfl := hstay hem
    refine ⟨h.nodup, fun k hk => h.idle k ?_⟩
    by_cases hkn : k = n
    · subst hkn
      rw [hc]
      nofun
    · rwa [hcalls, AList.lookup_insert_ne hkn] at hk
  · obtain rfl := hemit n hem
    refine ⟨fun k => ?_, fun k hk => ?_⟩
    · by_cases hkn : k = n
      · subst hkn
        rw [Function.update_self]
        decide
      · rw [Function.update_of_ne hkn]
        exact h.nodup k
    · by_cases hkn : k = n
      · subst hkn
        rw [hcalls] at hk
        exact absurd (AList.lookup_erase ..) hk
      · rw [Function.update_of_ne hkn]
        rw [hcalls, AList.lookup_erase_ne hkn] at hk
        exact h.idle k hk
  · obtain rfl := hstay hem
    refine ⟨h.nodup, fun k hk => ?_⟩
    rcases hsame.came k hk with hk | ⟨t, rfl⟩
    · exact h.idle k hk
    · simpa [busy] using hbusy

/-- A section of the roster ends: its count is the newest, and every other one is of an earlier section. -/
theorem Inv.section {jobs : Nat → Publishing} (h : Inv s) (hnodup : ∀ n, (jobs n).todo.Nodup)
    (hidle : ∀ n, p.calls.lookup n ≠ none → (jobs n).todo = [])
    (hfields : ∀ f ∈ counterFields, Fresh (p.read f) (s.health.get f)
      (fun n => if p.calls.lookup n = some .counted then some .load else (jobs n).due f)) :
    Inv { s with
      plane := p
      jobs := jobs
      counts := Function.update s.counts i (some (s.sections + 1, p.roster.length))
      sections := s.sections + 1 } := by
  refine
    { nodup := hnodup
      idle := hidle
      fields := hfields
      roster := h.roster.changeTake (Nat.le_succ _) (i := i) ?_ fun j hj => ?_
      taken := fun j v c hc hv => ?_
      showsLast := fun he => ?_ }
  · simp only [countDue, Function.update_self, Option.map_some]
  · simp only [countDue, Function.update_of_ne hj]
  · by_cases hj : j = i
    · subst hj
      simp only [Function.update_self, Option.some.injEq, Prod.mk.injEq] at hc
      exact hc.2.symm
    · simp only [Function.update_of_ne hj] at hc
      have hle := h.roster.held_le j v (by rw [countDue, hc]; rfl)
      have hv' : v = s.sections + 1 := hv
      omega
  · have hle := h.roster.shown_le
    have he' : s.shown = s.sections + 1 := he
    omega

theorem Inv.planeStep (h : Inv s) (hs : s.planeStep a = some s') : Inv s' := by
  unfold HealthPlane.planeStep at hs
  split at hs
  · cases hs
  rename_i hbusy
  have hbusy' : s.busy a = false := by simpa using hbusy
  obtain ⟨p, hp, he⟩ := Option.map_eq_some_iff.1 hs
  have hstay : s.plane.emitting a = none → s'.jobs = s.jobs := fun hem => by simp only [← he, hem]
  have hemit : ∀ n, s.plane.emitting a = some n → s'.jobs = Function.update s.jobs n ⟨healthFields, none⟩ :=
    fun n hem => by simp only [← he, hem]
  obtain ⟨hnodup, hidle⟩ := h.planeIdle hp hbusy' hstay hemit
  have hfields := h.planeFields hp hstay hemit
  subst he
  cases hr : s.plane.rosterCall a with
  | none =>
    have hroster := Plane.step_roster_same hp hr
    exact
      { nodup := hnodup
        idle := hidle
        fields := hfields
        roster := h.roster
        taken := fun i v c hc hv => by rw [hroster]; exact h.taken i v c hc hv
        showsLast := fun he => by rw [hroster]; exact h.showsLast he }
  | some i => exact h.section hnodup hidle hfields

theorem Inv.removeSubscriber (h : Inv s) (hs : s.removeSubscriber n i = some s') : Inv s' := by
  unfold HealthPlane.removeSubscriber at hs
  split at hs
  · cases hs
  obtain ⟨p, hp, rfl⟩ := Option.map_eq_some_iff.1 hs
  unfold Plane.removeSubscriber at hp
  split at hp
  · cases hp
    exact h.section h.nodup h.idle fun f hf => by
      rw [read_same hf rfl rfl]
      exact h.fields f hf
  · cases hp

/-- A call goes on with its fields: the others, and what is due for another field, stay as they are. -/
theorem due_update (job : Publishing) (health : HealthCounters) (hf : job.due f = (s.jobs n).due f) :
    HealthPlane.due { s with health := health, jobs := Function.update s.jobs n job } f = s.due f := by
  funext k
  by_cases hk : k = n
  · subst hk
    simp only [due, Function.update_self, hf]
  · simp only [due, Function.update_of_ne hk]

theorem Inv.jobs {fs : List HealthField} {held : Option Nat} (h : Inv s) (hj : s.jobs n = ⟨f :: fs, held⟩)
    (job : Publishing) (hnodup : job.todo.Nodup) :
    (∀ k, (Function.update s.jobs n job k).todo.Nodup) ∧
    ∀ k, s.plane.calls.lookup k ≠ none → (Function.update s.jobs n job k).todo = [] := by
  constructor
  · intro k
    by_cases hk : k = n
    · rw [hk, Function.update_self]
      exact hnodup
    · rw [Function.update_of_ne hk]
      exact h.nodup k
  · intro k hk
    have hkn : k ≠ n := by
      rintro rfl
      have hnil := h.idle k hk
      rw [hj] at hnil
      cases hnil
    rw [Function.update_of_ne hkn]
    exact h.idle k hk

theorem Inv.publish (h : Inv s) (hg : s.inOrder (.publish n) = true) (hs : s.publish n = some s') : Inv s' := by
  -- the call has left the plane
  have hleft : ∀ g gs held, s.jobs n = ⟨g :: gs, held⟩ → s.plane.calls.lookup n ≠ some .counted := by
    intro g gs held hj hc
    have hnil := h.idle n (by rw [hc]; nofun)
    rw [hj] at hnil
    cases hnil
  unfold HealthPlane.publish at hs
  split at hs
  · cases hs
  · rename_i f fs hj
    cases hs
    have hnd := h.nodup n
    rw [hj] at hnd
    obtain ⟨hnodup, hidle⟩ := h.jobs hj ⟨f :: fs, some (s.plane.read f)⟩ hnd
    refine ⟨hnodup, hidle, fun g hg' => ?_, h.roster, h.taken, h.showsLast⟩
    by_cases hgf : g = f
    · subst hgf
      refine (h.fields g hg').take (i := n) ?_ fun k hk => ?_
      · simp only [due, if_neg (hleft _ _ _ hj), Function.update_self, Publishing.due, if_true]
      · simp only [due, Function.update_of_ne hk]
    · rw [due_update _ s.health (by rw [hj, Publishing.due_of_ne fs _ hgf, Publishing.due_of_ne fs _ hgf])]
      exact h.fields g hg'
  · rename_i f fs v hj
    cases hs
    have hnd := h.nodup n
    rw [hj] at hnd
    obtain ⟨hnew, hrest⟩ := List.nodup_cons.1 hnd
    obtain ⟨hnodup, hidle⟩ := h.jobs hj ⟨fs, none⟩ hrest
    refine ⟨hnodup, hidle, fun g hg' => ?_, h.roster, h.taken,
      fun he => by rw [HealthCounters.set_subscriberCount]; exact h.showsLast he⟩
    by_cases hgf : g = f
    · subst hgf
      have hle : s.health.get g ≤ v := by
        simp only [inOrder, hj] at hg
        simpa [hg'] using hg
      simp only [HealthCounters.get_set_self]
      refine (h.fields g hg').put (i := n) ?_ hle ?_ fun k hk => ?_
      · simp only [due, if_neg (hleft _ _ _ hj), hj, Publishing.due, if_true]
      · simp only [due, if_neg (hleft _ _ _ hj), Function.update_self, Publishing.due_fresh, if_neg hnew]
      · simp only [due, Function.update_of_ne hk]
    · rw [due_update _ (s.health.set v f) (by rw [hj, Publishing.due_of_ne fs _ hgf])]
      simp only [HealthCounters.get_set_of_ne _ _ hgf]
      exact h.fields g hg'

theorem Inv.setSubscriberCount (h : Inv s) (hg : s.inOrder (.setSubscriberCount i) = true)
    (hs : s.setSubscriberCount i = some s') : Inv s' := by
  unfold HealthPlane.setSubscriberCount at hs
  split at hs
  · cases hs
  rename_i v c hc
  cases hs
  simp only [inOrder, hc, decide_eq_true_eq] at hg
  refine
    { nodup := h.nodup
      idle := h.idle
      fields := fun f hf => ?_
      roster := h.roster.put (i := i) (by rw [countDue, hc]; rfl) hg ?_ fun j hj => ?_
      taken := fun j w d hd hw => ?_
      showsLast := fun he => ?_ }
  · have hget : ({ s.health with subscriberCount := c % 2 ^ 32 } : HealthCounters).get f = s.health.get f := by
      cases f <;> rfl
    rw [hget]
    exact h.fields f hf
  · simp only [countDue, Function.update_self, Option.map_none]
  · simp only [countDue, Function.update_of_ne hj]
  · by_cases hj : j = i
    · subst hj
      simp only [Function.update_self] at hd
      cases hd
    · simp only [Function.update_of_ne hj] at hd
      exact h.taken j w d hd hw
  · simp only [h.taken i v c hc he]

theorem Inv.step {a : HealthAct} (h : Inv s) (hg : s.inOrder a = true) (hs : s.step a = some s') : Inv s' := by
  cases a with
  | plane a => exact h.planeStep hs
  | removeSubscriber n i => exact h.removeSubscriber hs
  | publish n => exact h.publish hg hs
  | setSubscriberCount i => exact h.setSubscriberCount hg hs

/-- Nobody is in `HandleEvent`, and nobody has a count of the roster to store. -/
structure Resting (s : HealthPlane) : Prop where
  calls  : ∀ n, s.plane.calls.lookup n = none
  jobs   : ∀ n, (s.jobs n).todo = []
  counts : ∀ i, s.counts i = none

theorem resting_of_exec {as : List HealthAct} {init : HealthPlane} (hs : Run.exec step as init = some s)
    (hcalls : (Run.exec step as init).map (fun s => s.plane.calls.entries) = some [])
    (hjobs : ∀ n, (Run.exec step as init).map (fun s => (s.jobs n).todo) = some [])
    (hcounts : ∀ i, (Run.exec step as init).map (fun s => s.counts i) = some none) : Resting s := by
  rw [hs, Option.map_some, Option.some.injEq] at hcalls
  simp only [hs, Option.map_some, Option.some.injEq] at hjobs hcounts
  exact ⟨fun n => by rw [AList.lookup, hcalls]; rfl, hjobs, hcounts⟩

/-- `Health` shows the counters of the binder and the size of the roster. -/
structure HealthRight (s : HealthPlane) : Prop where
  emitted     : s.health.eventsEmittedTotal = s.plane.eventsEmitted
  dropped     : ∀ t, t ≠ .unspecified → s.health.droppedTotal t = s.plane.dropped t
  subscribers : s.health.subscriberCount = s.plane.roster.length

/-- **`Health` is right at rest**: in every run in which no store takes `Health` back, once nobody is in between, its
counters are those of the binder and its subscriber count is the size of a roster that fits 32 bits. -/
theorem health_right_at_rest (m c : Nat) (capacity : Tier → Nat) (as : List HealthAct) (s : HealthPlane)
    (hrun : Run.exec step as (init m c capacity) = some s)
    (horder : Run.along step inOrder as (init m c capacity) = true) (hrest : Resting s)
    (hsize : s.plane.roster.length < 2 ^ 32) : HealthRight s := by
  have h : Inv s := Run.exec_inv_along (I := Inv) (fun _ _ _ hx hg hs => hx.step hg hs) as _ s (inv_init m c capacity)
    horder hrun
  have hfield : ∀ f ∈ counterFields, s.health.get f = s.plane.read f := fun f hf =>
    (h.fields f hf).shown_eq fun n => by
      rw [due, hrest.calls n, if_neg nofun]
      cases hj : s.jobs n with
      | mk todo held =>
        have hnil := hrest.jobs n
        rw [hj] at hnil
        simp only at hnil
        rw [hnil]
        rfl
  have hshown : s.shown = s.sections := h.roster.shown_eq fun i => by rw [countDue, hrest.counts i]; rfl
  refine ⟨hfield .eventsEmitted (by decide), fun t ht => ?_, ?_⟩
  · cases t with
    | unspecified => exact absurd rfl ht
    | critical => exact hfield (.dropped .critical) (by decide)
    | state => exact hfield (.dropped .state) (by decide)
    | ephemeral => exact hfield (.dropped .ephemeral) (by decide)
  · rw [h.showsLast hshown, Nat.mod_eq_of_lt hsize]

/-- A call of `HandleEvent` up to its stores in `Health`. -/
def handleEvent (n : Nat) : List HealthAct :=
  [.plane (.alloc n .critical), .plane (.build n (some [1])), .plane (.push n), .plane (.count n), .plane (.count n)]

/-- One call of `HandleEvent` after another, each with its stores, and a subscriber. -/
def oneByOneRun : List HealthAct :=
  handleEvent 0 ++ List.replicate 14 (.publish 0) ++ handleEvent 1 ++ List.replicate 14 (.publish 1) ++
  [.plane (.addSubscriber 0 ⟨[], [], [], []⟩ 1), .setSubscriberCount 0]

theorem health_right_at_rest_oneByOne :
    (Run.exec step oneByOneRun (init 0 0 (fun _ => 1))).map (fun s =>
        (s.health.eventsEmittedTotal, s.health.droppedTotal .critical, s.health.subscriberCount)) = some (2, 1, 1) ∧
    ∀ s, Run.exec step oneByOneRun (init 0 0 (fun _ => 1)) = some s → HealthRight s := by
  refine ⟨by decide +kernel, fun s hs => ?_⟩
  have hrest : Resting s := by
    refine resting_of_exec hs (by decide +kernel) ?_ ?_
    · rintro (_ | _ | n) <;> rfl
    · rintro (_ | i) <;> rfl
  have hsize : (Run.exec step oneByOneRun (init 0 0 (fun _ => 1))).map (fun s => s.plane.roster.length) = some 1 := by
    decide +kernel
  rw [hs, Option.map_some, Option.some.injEq] at hsize
  exact health_right_at_rest 0 0 (fun _ => 1) oneByOneRun s hs (by decide +kernel) hrest (by rw [hsize]; decide)

/-- The first call loads the counter, the second counts, loads and stores, and the first stores what it loaded. -/
def lateStoreRun : List HealthAct :=
  handleEvent 0 ++ [.publish 0] ++ handleEvent 1 ++ List.replicate 14 (.publish 1) ++ List.replicate 13 (.publish 0)

/-- Two subscribers, whose counts are stored in the other order. -/
def lateCountRun : List HealthAct :=
  [.plane (.addSubscriber 0 ⟨[], [], [], []⟩ 1), .plane (.addSubscriber 1 ⟨[], [], [], []⟩ 1), .setSubscriberCount 1,
    .setSubscriberCount 0]

/-- With nobody in between `Health` shows one event of two, and one subscriber of two. -/
theorem health_left_behind :
    (Run.exec step lateStoreRun (init 0 0 (fun _ => 1))).map (fun s =>
        (s.health.eventsEmittedTotal, s.plane.eventsEmitted)) = some (1, 2) ∧
    (∀ s, Run.exec step lateStoreRun (init 0 0 (fun _ => 1)) = some s → Resting s ∧ ¬ HealthRight s) ∧
    (Run.exec step lateCountRun (init 0 0 (fun _ => 1))).map (fun s =>
        (s.health.subscriberCount, s.plane.roster)) = some (1, [0, 1]) ∧
    ∀ s, Run.exec step lateCountRun (init 0 0 (fun _ => 1)) = some s → Resting s ∧ ¬ HealthRight s := by
  have hstored : (Run.exec step lateStoreRun (init 0 0 (fun _ => 1))).map (fun s =>
      (s.health.eventsEmittedTotal, s.plane.eventsEmitted)) = some (1, 2) := by decide +kernel
  have hcounted : (Run.exec step lateCountRun (init 0 0 (fun _ => 1))).map (fun s =>
      (s.health.subscriberCount, s.plane.roster)) = some (1, [0, 1]) := by decide +kernel
  refine ⟨hstored, fun s hs => ⟨?_, fun hright => ?_⟩, hcounted, fun s hs => ⟨?_, fun hright => ?_⟩⟩
  · refine resting_of_exec hs (by decide +kernel) ?_ ?_
    · rintro (_ | _ | n) <;> rfl
    · exact fun _ => rfl
  · rw [hs, Option.map_some, Option.some.injEq, Prod.mk.injEq, hright.emitted] at hstored
    omega
  · refine resting_of_exec hs (by decide +kernel) (fun _ => rfl) ?_
    rintro (_ | _ | i) <;> rfl
  · rw [hs, Option.map_some, Option.some.injEq, Prod.mk.injEq, hright.subscribers] at hcounted
    rw [hcounted.2] at hcounted
    exact absurd hcounted.1 (by decide)

end HealthPlane
end Events
end Osw
