import OpenSwitch.Run
import OpenSwitch.IdempotencyCache
/-!
# SingleExecutor — concurrent callers of the idempotency cache

Any number of handler threads call `LookupOrReserve`, and `Store` or `Cancel` once they were told `kMiss`.  A step is
one critical section of `mu_`; a lookup that found a reservation waits, and may come out of its wait at any later step
its wake condition or its deadline allows.  A caller that was told `kMiss` and has not stored or cancelled is
*executing*: it is running the action the key protects.

A reservation covers the executor it was made for.  The one branch of the source that answers `kMiss` and leaves no
reservation is a wake-up that finds neither an entry nor a reservation, which is what `Cancel` wakes its waiters into.
-/
namespace Osw
namespace Control

open IdempotencyCache (Readings Wf)

/-- Where a caller is. -/
inductive Phase
  | idle
  | waiting (k : Bytes) (deadline : Nat)
  | executing (k : Bytes)
  deriving DecidableEq, Repr

/-- A caller that got its answer runs the action on a miss only. -/
def Phase.told (k : Bytes) (r : LookupResult) : Phase :=
  match r.state with
  | .miss => .executing k
  | _     => .idle

/-- The cache and its callers. -/
structure Callers where
  cache : IdempotencyCache
  phase : Nat → Phase

inductive CallerAct
  | lookup (i : Nat) (k : Bytes) (now later : Nat)
  | wake (i : Nat) (r : Readings)
  | store (i : Nat) (e : Entry)
  | cancel (i : Nat)

namespace Callers

def init (capacity ttl wait : Nat) : Callers := ⟨.empty capacity ttl wait, fun _ => .idle⟩

/-- Caller `i` leaves its step in phase `p`, with the cache as `c`. -/
def put (s : Callers) (i : Nat) (c : IdempotencyCache) (p : Phase) : Callers :=
  ⟨c, Function.update s.phase i p⟩

def step (s : Callers) : CallerAct → Option Callers
  | .lookup i k now later =>
    match s.phase i with
    | .idle =>
      match s.cache.lookupOrReserve k now later with
      | .answered r c => some (s.put i c (.told k r))
      | .blocked d c  => some (s.put i c (.waiting k d))
    | _ => none
  | .wake i r =>
    match s.phase i with
    | .waiting k d => (s.cache.resume k d r).map (fun a => s.put i a.2 (.told k a.1))
    | _ => none
  | .store i e =>
    match s.phase i with
    | .executing k => some (s.put i (s.cache.store k e) .idle)
    | _ => none
  | .cancel i =>
    match s.phase i with
    | .executing k => some (s.put i (s.cache.cancel k) .idle)
    | _ => none

/-- The clock reads `t` before every deadline and every expiry the cache holds. -/
def quietAt (s : Callers) (t : Nat) : Bool :=
  s.cache.inFlight.entries.all (fun r => decide (t < r.2)) && s.cache.lruList.all (fun n => decide (t < n.2.expiresAt))

/-- **No reservation deadline and no entry expiry passes**: every clock reading of the step is before all of them, and
before the deadline the woken lookup waited for. -/
def quiet (s : Callers) : CallerAct → Bool
  | .lookup _ _ now later => s.quietAt now && s.quietAt later
  | .wake i r =>
    [r.wake, r.now2, r.after, r.fresh].all (fun t => s.quietAt t &&
      (match s.phase i with
       | .waiting _ d => decide (t < d)
       | _ => true))
  | _ => true

/-- A lookup that comes out of its wait finds an entry or a reservation for its key. -/
def covered (s : Callers) : CallerAct → Bool
  | .wake i _ =>
    match s.phase i with
    | .waiting k _ => (s.cache.inFlight.lookup k).isSome || decide (k ∈ s.cache.index)
    | _ => true
  | _ => true

variable {i d now t : Nat} {k : Bytes} {s s' : Callers} {r : Readings} {c : IdempotencyCache}

theorem put_phase_self (s : Callers) (i : Nat) (c : IdempotencyCache) (p : Phase) : (s.put i c p).phase i = p := by
  simp only [put, Function.update_self]

theorem put_phase_ne (s : Callers) {j : Nat} (h : j ≠ i) (c : IdempotencyCache) (p : Phase) :
    (s.put i c p).phase j = s.phase j := by
  simp only [put, Function.update_of_ne h]

theorem quietAt_reservation (h : s.quietAt t = true) (hd : s.cache.inFlight.lookup k = some d) : t < d := by
  simp only [quietAt, Bool.and_eq_true, List.all_eq_true] at h
  exact of_decide_eq_true (h.1 ⟨k, d⟩ (List.of_mem_dlookup hd))

theorem quietAt_entry (h : s.quietAt t = true) {e : Entry} (he : s.cache.find k = some e) : t < e.expiresAt := by
  simp only [quietAt, Bool.and_eq_true, List.all_eq_true] at h
  exact of_decide_eq_true (h.2 (k, e) (IdempotencyCache.find_mem he).2)

/-- What a lookup does while nothing expires: it hits, it reserves a free key, or it waits. -/
theorem lookup_quiet (hk : k ≠ []) (hq : s.quietAt now = true) (later : Nat) :
    (∃ e, s.cache.lookupOrReserve k now later = .answered ⟨.hit, e⟩ (s.cache.promote k)) ∨
    (k ∉ s.cache.inFlight ∧
      s.cache.lookupOrReserve k now later = .answered ⟨.miss, .empty⟩ (s.cache.reserve k now)) ∨
    ∃ d, s.cache.lookupOrReserve k now later = .blocked d s.cache := by
  unfold IdempotencyCache.lookupOrReserve
  rw [if_neg hk]
  cases hf : s.cache.find k with
  | some e =>
    have he := quietAt_entry hq hf
    exact .inl ⟨e, by simp only [if_neg (Nat.not_le.2 he)]⟩
  | none =>
    rcases s.cache.reserveOrWait_cases k now later with ⟨hr, hd⟩ | ⟨d, _, _, hr⟩
    · refine .inr (.inl ⟨fun hm => ?_, hr⟩)
      obtain ⟨d, hl⟩ := Option.isSome_iff_exists.1 (AList.lookup_isSome.2 hm)
      have hlt := quietAt_reservation hq hl
      have hle := hd d hl
      omega
    · exact .inr (.inr ⟨_, hr⟩)

/-- A wake-up while nothing expires, that finds an entry or a reservation, hits. -/
theorem wake_quiet (hwf : s.cache.Wf) (hp : s.phase i = .waiting k d) (hq : s.quiet (.wake i r) = true)
    (hc : s.covered (.wake i r) = true) {a : LookupResult × IdempotencyCache} (ha : s.cache.resume k d r = some a) :
    ∃ e, a = (⟨.hit, e⟩, s.cache.promote k) := by
  simp only [quiet, hp, List.all_cons, List.all_nil, Bool.and_eq_true, decide_eq_true_eq] at hq
  obtain ⟨⟨hwake, hwd⟩, ⟨hnow2, _⟩, _⟩ := hq
  simp only [covered, hp, Bool.or_eq_true, decide_eq_true_eq] at hc
  have hin : s.cache.wakeCondition k r.wake = true → k ∈ s.cache.index := by
    intro hw
    simp only [IdempotencyCache.wakeCondition, Bool.or_eq_true, decide_eq_true_eq] at hw
    rcases hw with hw | hw
    · cases hl : s.cache.inFlight.lookup k with
      | none => simpa [hl] using hc
      | some d' => simp [hl, quietAt_reservation hwake hl] at hw
    · exact hw
  unfold IdempotencyCache.resume at ha
  by_cases hw : s.cache.wakeCondition k r.wake = true
  · obtain ⟨e, hf, _⟩ := hwf.find_of_mem (hin hw)
    rw [if_pos hw, hf] at ha
    simp only [if_pos (quietAt_entry hnow2 hf), Option.some.injEq] at ha
    exact ⟨e, ha.symm⟩
  · rw [if_neg hw, if_neg (by omega)] at ha
    cases ha

/-! ## One executor -/

/-- Every executor of a key holds its reservation, and no key has two. -/
structure Sole (s : Callers) : Prop where
  wf       : s.cache.Wf
  reserved : ∀ i k, k ≠ [] → s.phase i = .executing k → k ∈ s.cache.inFlight
  unique   : ∀ i j k, k ≠ [] → s.phase i = .executing k → s.phase j = .executing k → i = j

/-- A step of caller `i` keeps the invariant when the other executors keep their reservations and `i` starts to
execute only a key that had none. -/
theorem Sole.put (h : Sole s) {p : Phase} (hwf : c.Wf)
    (hkeep : ∀ j k, j ≠ i → k ≠ [] → s.phase j = .executing k → k ∈ c.inFlight)
    (hnew : ∀ k, k ≠ [] → p = .executing k → k ∈ c.inFlight ∧ k ∉ s.cache.inFlight) : Sole (s.put i c p) := by
  -- an executor other than `i` keeps `i` from starting on its key
  have hother : ∀ j k, j ≠ i → k ≠ [] → s.phase j = .executing k → p ≠ .executing k :=
    fun j k _ hk hj hp => (hnew k hk hp).2 (h.reserved j k hk hj)
  refine ⟨hwf, ?_, ?_⟩
  · intro j k hk hj
    by_cases hji : j = i
    · subst hji
      rw [put_phase_self] at hj
      exact (hnew k hk hj).1
    · rw [put_phase_ne s hji] at hj
      exact hkeep j k hji hk hj
  · intro j j' k hk hj hj'
    by_cases hji : j = i <;> by_cases hji' : j' = i
    · rw [hji, hji']
    · subst hji
      rw [put_phase_self] at hj
      rw [put_phase_ne s hji'] at hj'
      exact absurd hj (hother j' k hji' hk hj')
    · subst hji'
      rw [put_phase_self] at hj'
      rw [put_phase_ne s hji] at hj
      exact absurd hj' (hother j k hji hk hj)
    · rw [put_phase_ne s hji] at hj
      rw [put_phase_ne s hji'] at hj'
      exact h.unique j j' k hk hj hj'

theorem Sole.lookup (h : Sole s) (i : Nat) (k : Bytes) {later : Nat} (hq : s.quietAt now = true)
    (hs : s.step (.lookup i k now later) = some s') : Sole s' := by
  simp only [step] at hs
  split at hs
  · by_cases hk : k = []
    · -- the empty key opts out: the caller runs its action and the cache stays as it is
      subst hk
      simp only [IdempotencyCache.lookupOrReserve, if_true, Option.some.injEq] at hs
      subst hs
      exact h.put h.wf (fun j k' _ hk' hj => h.reserved j k' hk' hj) (fun k' hk' hp => by cases hp; exact absurd rfl hk')
    · rcases lookup_quiet hk hq later with ⟨e, hr⟩ | ⟨hfree, hr⟩ | ⟨d, hr⟩ <;> rw [hr] at hs <;> cases hs
      · exact h.put (h.wf.promote k) (fun j k' _ hk' hj => h.reserved j k' hk' hj) (fun k' _ hp => by cases hp)
      · refine h.put (h.wf.of_eq rfl rfl) (fun j k' _ hk' hj => ?_) (fun k' _ hp => ?_)
        · exact AList.mem_insert _ |>.2 (.inr (h.reserved j k' hk' hj))
        · cases hp
          exact ⟨AList.mem_insert _ |>.2 (.inl rfl), hfree⟩
      · exact h.put h.wf (fun j k' _ hk' hj => h.reserved j k' hk' hj) (fun k' _ hp => by cases hp)
  · cases hs

theorem Sole.wake (h : Sole s) (i : Nat) (hq : s.quiet (.wake i r) = true) (hc : s.covered (.wake i r) = true)
    (hs : s.step (.wake i r) = some s') : Sole s' := by
  simp only [step] at hs
  split at hs
  · rename_i k d hp
    obtain ⟨a, ha, rfl⟩ := Option.map_eq_some_iff.1 hs
    obtain ⟨e, rfl⟩ := wake_quiet h.wf hp hq hc ha
    exact h.put (h.wf.promote k) (fun j k' _ hk' hj => h.reserved j k' hk' hj) (fun k' _ hp => by cases hp)
  · cases hs

/-- An executor that stores or cancels takes its own reservation away and nobody else's. -/
theorem Sole.release (h : Sole s) (hi : s.phase i = .executing k) (hwf : c.Wf)
    (hc : k ≠ [] → c.inFlight = s.cache.inFlight.erase k) (hempty : k = [] → c = s.cache) : Sole (s.put i c .idle) := by
  refine h.put hwf (fun j k' hji hk' hj => ?_) (fun k' _ hp => by cases hp)
  by_cases hk : k = []
  · rw [hempty hk]
    exact h.reserved j k' hk' hj
  · have hne : k' ≠ k := fun he => hji (h.unique j i k hk (he ▸ hj) hi)
    rw [hc hk, AList.mem_erase]
    exact ⟨hne, h.reserved j k' hk' hj⟩

theorem Sole.step (h : Sole s) (a : CallerAct) (s' : Callers) (hg : (s.quiet a && s.covered a) = true)
    (hs : s.step a = some s') : Sole s' := by
  rw [Bool.and_eq_true] at hg
  cases a with
  | lookup i k now later =>
    have hq := hg.1
    simp only [quiet, Bool.and_eq_true] at hq
    exact h.lookup i k hq.1 hs
  | wake i r => exact h.wake i hg.1 hg.2 hs
  | store i e =>
    simp only [Callers.step] at hs
    split at hs
    · rename_i k hi
      cases hs
      exact h.release hi (h.wf.store k e) (fun hk => s.cache.store_inFlight hk e)
        (fun hk => by rw [IdempotencyCache.store, if_pos hk])
    · cases hs
  | cancel i =>
    simp only [Callers.step] at hs
    split at hs
    · rename_i k hi
      cases hs
      by_cases hk : k = []
      · exact h.release hi (by rw [IdempotencyCache.cancel, if_pos hk]; exact h.wf) (fun h' => absurd hk h')
          (fun _ => by rw [IdempotencyCache.cancel, if_pos hk])
      · exact h.release hi (h.wf.of_eq (by rw [IdempotencyCache.cancel, if_neg hk])
          (by rw [IdempotencyCache.cancel, if_neg hk])) (fun _ => s.cache.cancel_inFlight hk) (fun h' => absurd h' hk)
    · cases hs

theorem Sole.init (capacity ttl wait : Nat) : Sole (init capacity ttl wait) :=
  ⟨Wf.empty capacity ttl wait, nofun, nofun⟩

/-- **One executor per key**: in every run in which nothing expires and every lookup that comes out of its wait finds
an entry or a reservation for its key, at most one caller executes a non-empty key. -/
theorem single_executor (capacity ttl wait : Nat) (as : List CallerAct) (s : Callers)
    (hrun : Run.exec step as (init capacity ttl wait) = some s)
    (hguard : Run.along step (fun s a => s.quiet a && s.covered a) as (init capacity ttl wait) = true)
    (k : Bytes) (hk : k ≠ []) (i j : Nat) (hi : s.phase i = .executing k) (hj : s.phase j = .executing k) : i = j :=
  (Run.exec_inv_along (fun _ a s' h hg hs => h.step a s' hg hs) as _ s (Sole.init capacity ttl wait) hguard
    hrun).unique i j k hk hi hj

/-- A stored response answers the caller that waited for it; a third caller executes another key alone. -/
def storeRun : List CallerAct :=
  [.lookup 0 (str "k") 0 0, .lookup 1 (str "k") 0 0, .store 0 ⟨Status.okay, [], 300⟩, .wake 1 ⟨0, 0, 0, 0⟩,
    .lookup 2 (str "j") 1 1]

theorem single_executor_storeRun :
    (Run.exec step storeRun (init 16 300 10)).map (fun s => (s.phase 1, s.phase 2))
      = some (.idle, .executing (str "j")) ∧
    ∀ s, Run.exec step storeRun (init 16 300 10) = some s →
      ∀ j, s.phase 2 = .executing (str "j") → s.phase j = .executing (str "j") → 2 = j :=
  ⟨by decide +kernel, fun s hs j h2 hj =>
    single_executor 16 300 10 storeRun s hs (by decide +kernel) (str "j") (by decide +kernel) 2 j h2 hj⟩

/-- Two callers wait for a third, which cancels. -/
def cancelRun : List CallerAct :=
  [.lookup 0 (str "k") 0 0, .lookup 1 (str "k") 0 0, .lookup 2 (str "k") 0 0, .cancel 0, .wake 1 ⟨0, 0, 0, 0⟩,
    .wake 2 ⟨0, 0, 0, 0⟩]

/-- The waiters a `Cancel` wakes are both told `kMiss`, and neither of them reserves the key. -/
theorem cancelRun_two_executors :
    (Run.exec step cancelRun (init 16 300 10)).map (fun s => (s.phase 1, s.phase 2))
      = some (.executing (str "k"), .executing (str "k")) ∧
    Run.along step quiet cancelRun (init 16 300 10) = true := by
  decide +kernel

end Callers
end Control
end Osw
