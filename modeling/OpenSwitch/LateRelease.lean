import OpenSwitch.SingleExecutor
import OpenSwitch.CacheMap
/-!
# LateRelease — reservations that are taken over

A reservation of the cache names a key and a deadline and no caller.  Once the deadline has passed, the next caller
takes the key over with a fresh reservation ("this caller now owns a fresh one"), while the first is still executing;
its `Store` or `Cancel`, when it comes, erases by key whatever reservation it finds.

`Claims` keeps what the cache does not: whose the current reservation of a key is.  A claim ends with its owner's own
`Store` or `Cancel`, with the next reservation of the key, or when a call on the key reads the clock at its deadline or
later.  While it lasts the key should be *covered*: the reservation stands, or an entry that outlives it does.
-/
namespace Osw
namespace Control

open IdempotencyCache (Readings Wf Bounded)

/-- The callers of a cache and, for each key, the owner and the deadline of its current reservation. -/
structure Claims where
  callers : Callers
  claim   : Bytes → Option (Nat × Nat)

/-- The clock readings of a step. -/
def CallerAct.readings : CallerAct → List Nat
  | .lookup _ _ now later => [now, later]
  | .wake _ r             => [r.wake, r.now2, r.after, r.fresh]
  | _                     => []

/-- What is left of a claim once the clock was read at these times. -/
def unlapsed (readings : List Nat) (claim : Option (Nat × Nat)) : Option (Nat × Nat) :=
  claim.filter (fun c => readings.all (fun t => decide (t < c.2)))

/-- The key a step answers `kMiss` for. -/
def Callers.missed (s : Callers) : CallerAct → Option Bytes
  | .lookup _ k now later =>
    match s.cache.lookupOrReserve k now later with
    | .answered r _ => if r.state = .miss then some k else none
    | .blocked _ _  => none
  | .wake i r =>
    match s.phase i with
    | .waiting k d =>
      match s.cache.resume k d r with
      | some a => if a.1.state = .miss then some k else none
      | none   => none
    | _ => none
  | _ => none

/-- The claim a step leaves on the key it is about: a `kMiss` with a fresh reservation makes one for its caller, a
`Store` or `Cancel` ends the caller's own. -/
def Callers.claimAfter (s : Callers) (claim : Bytes → Option (Nat × Nat)) (a : CallerAct) :
    Bytes → Option (Nat × Nat) :=
  match a with
  | .lookup i k now _ =>
    Function.update claim k
      (if s.missed a = some k ∧ k ≠ [] then some (i, now + s.cache.inFlightMaxWait)
       else unlapsed a.readings (claim k))
  | .wake i r =>
    match s.phase i with
    | .waiting k _ =>
      Function.update claim k
        (match s.cache.inFlight.lookup k with
         | some d =>
           if s.missed a = some k ∧ d ≤ r.after then some (i, r.fresh + s.cache.inFlightMaxWait)
           else unlapsed a.readings (claim k)
         | none => unlapsed a.readings (claim k))
    | _ => claim
  | .store i _ | .cancel i =>
    match s.phase i with
    | .executing k => Function.update claim k ((claim k).filter (fun c => decide (c.1 ≠ i)))
    | _ => claim

namespace Claims

def init (capacity ttl wait : Nat) : Claims := ⟨.init capacity ttl wait, fun _ => none⟩

def step (s : Claims) (a : CallerAct) : Option Claims :=
  (s.callers.step a).map (fun t => ⟨t, s.callers.claimAfter s.claim a⟩)

/-- The key has an entry until `d` at least. -/
def outlives (c : IdempotencyCache) (k : Bytes) (d : Nat) : Bool :=
  match c.find k with
  | some e => decide (d ≤ e.expiresAt)
  | none   => false

/-- **No step uncovers a claim of another caller**: a `Store` of the key leaves an entry that outlives the claim, a
`Cancel` of the key finds one, and no `Store` pushes out the entry of a key that has a claim. -/
def considerate (s : Claims) : CallerAct → Bool
  | .store i e =>
    match s.callers.phase i with
    | .executing k =>
      (s.claim k).all (fun c => decide (c.1 = i) || decide (c.2 ≤ e.expiresAt)) &&
        s.callers.cache.keys.all (fun v => !s.callers.cache.pushesOut k v || (s.claim v).isNone)
    | _ => true
  | .cancel i =>
    match s.callers.phase i with
    | .executing k => (s.claim k).all (fun c => decide (c.1 = i) || outlives s.callers.cache k c.2)
    | _ => true
  | _ => true

/-! ## Covered keys -/

/-- What the cache has for one key, against the claim on it: an entry and a reservation exclude each other, and a claim
has its reservation or an entry that outlives it. -/
structure Covered (entry : Option Entry) (reservation : Option Nat) (claim : Option (Nat × Nat)) : Prop where
  apart : reservation.isSome = true → entry = none
  cover : ∀ j d, claim = some (j, d) → reservation = some d ∨ ∃ e, entry = some e ∧ d ≤ e.expiresAt

variable {claim : Option (Nat × Nat)} {k : Bytes} {s s' : Claims} {i : Nat}

theorem Covered.weaken {entry : Option Entry} {reservation : Option Nat} {claim' : Option (Nat × Nat)}
    (h : Covered entry reservation claim) (hle : ∀ c, claim' = some c → claim = some c) :
    Covered entry reservation claim' :=
  ⟨h.apart, fun j d hc => h.cover j d (hle _ hc)⟩

theorem unlapsed_eq_some {readings : List Nat} {c : Nat × Nat} (h : unlapsed readings claim = some c) :
    claim = some c ∧ ∀ t ∈ readings, t < c.2 := by
  obtain ⟨hc, hall⟩ := Option.filter_eq_some_iff.1 h
  exact ⟨hc, by simpa using hall⟩

theorem Covered.fresh (i d : Nat) : Covered none (some d) (some (i, d)) :=
  ⟨fun _ => rfl, fun j d' h => by cases h; exact .inl rfl⟩

/-- An entry that had expired goes: what is left of the claim has its reservation. -/
theorem Covered.expire {entry : Option Entry} {reservation : Option Nat} (h : Covered entry reservation claim)
    {readings : List Nat} {now : Nat} (hnow : now ∈ readings) (hexp : ∀ e, entry = some e → e.expiresAt ≤ now) :
    Covered none reservation (unlapsed readings claim) := by
  refine ⟨fun _ => rfl, ?_⟩
  intro j d hc
  obtain ⟨hc, hall⟩ := unlapsed_eq_some hc
  rcases h.cover j d hc with hr | ⟨e, he, hle⟩
  · exact .inl hr
  · have hlt := hall now hnow
    have hle' := hexp e he
    simp only at hlt
    omega

/-- Every key is covered. -/
structure Inv (s : Claims) : Prop where
  bounded : s.callers.cache.Bounded
  covered : ∀ k, Covered (s.callers.cache.find k) (s.callers.cache.inFlight.lookup k) (s.claim k)

theorem Inv.init (capacity ttl wait : Nat) : (init capacity ttl wait).Inv :=
  ⟨.empty capacity ttl wait, fun _ => ⟨nofun, nofun⟩⟩

/-- A step about the key `k` keeps the cover of the others when it leaves their entries and reservations alone. -/
theorem Inv.update (h : s.Inv) {c : IdempotencyCache} (hb : c.Bounded)
    (hfind : ∀ k', k' ≠ k → c.find k' = s.callers.cache.find k')
    (hres : ∀ k', k' ≠ k → c.inFlight.lookup k' = s.callers.cache.inFlight.lookup k')
    (hk : Covered (c.find k) (c.inFlight.lookup k) claim) (i : Nat) (p : Phase) :
    Inv ⟨s.callers.put i c p, Function.update s.claim k claim⟩ := by
  refine ⟨hb, fun k' => ?_⟩
  show Covered (c.find k') (c.inFlight.lookup k') (Function.update s.claim k claim k')
  by_cases hkk : k' = k
  · subst hkk
    rw [Function.update_self]
    exact hk
  · rw [Function.update_of_ne hkk, hfind k' hkk, hres k' hkk]
    exact h.covered k'

section lookup

variable {c : IdempotencyCache} {k k' : Bytes}

theorem find_reserve (t : Nat) : (c.reserve k t).find k' = c.find k' :=
  (IdempotencyCache.SameEntries.reserve c k t).find k'

theorem lookup_reserve_self (t : Nat) : (c.reserve k t).inFlight.lookup k = some (t + c.inFlightMaxWait) := by
  rw [IdempotencyCache.reserve_inFlight, AList.lookup_insert]

theorem lookup_reserve_of_ne (t : Nat) (h : k' ≠ k) : (c.reserve k t).inFlight.lookup k' = c.inFlight.lookup k' := by
  rw [IdempotencyCache.reserve_inFlight, AList.lookup_insert_ne h]

end lookup

theorem Inv.lookup (h : s.Inv) {now later : Nat} (hs : s.step (.lookup i k now later) = some s') : s'.Inv := by
  obtain ⟨t, ht, rfl⟩ := Option.map_eq_some_iff.1 hs
  have hwf := h.bounded.toWf
  simp only [Callers.step] at ht
  split at ht
  case h_2 => cases ht
  simp only [Callers.claimAfter, CallerAct.readings]
  by_cases hk : k = []
  · -- the empty key: nothing is reserved
    subst hk
    simp only [IdempotencyCache.lookupOrReserve, if_true, Option.some.injEq] at ht
    subst ht
    refine h.update h.bounded (fun _ _ => rfl) (fun _ _ => rfl) ?_ i _
    simp only [ne_eq, not_true_eq_false, and_false, if_false]
    exact (h.covered []).weaken (fun c hc => (unlapsed_eq_some hc).1)
  rcases IdempotencyCache.lookupOrReserve_cases hwf hk now later with ⟨e, hf, hlt, hr⟩ | ⟨hexp, hr⟩
  · have hmiss : s.callers.missed (.lookup i k now later) = none := by simp [Callers.missed, hr]
    rw [hr] at ht
    cases ht
    refine h.update (h.bounded.promote k) (fun k' _ => IdempotencyCache.find_promote hwf k k') (fun _ _ => rfl) ?_ i _
    simp only [hmiss, reduceCtorEq, false_and, if_false]
    rw [IdempotencyCache.find_promote hwf k k]
    exact (h.covered k).weaken (fun c hc => (unlapsed_eq_some hc).1)
  rw [hr] at ht
  rcases (s.callers.cache.erase k).reserveOrWait_cases k now later with ⟨hr', -⟩ | ⟨d, hd, hnow, hr'⟩
  · -- the key is reserved for this caller
    have hmiss : s.callers.missed (.lookup i k now later) = some k := by simp [Callers.missed, hr, hr']
    rw [hr'] at ht
    cases ht
    refine h.update ((IdempotencyCache.SameEntries.reserve _ k now).bounded (h.bounded.erase k)) ?_ ?_ ?_ i _
    · intro k' hne
      rw [find_reserve, hwf.find_erase_of_ne hne]
    · intro k' hne
      rw [lookup_reserve_of_ne now hne, IdempotencyCache.erase_inFlight]
    · rw [find_reserve, hwf.find_erase_self, lookup_reserve_self, if_pos ⟨hmiss, hk⟩]
      exact .fresh i _
  · -- the caller waits
    have hmiss : s.callers.missed (.lookup i k now later) = none := by simp [Callers.missed, hr, hr']
    rw [hr'] at ht
    cases ht
    refine h.update (h.bounded.erase k) (fun k' hne => hwf.find_erase_of_ne hne) (fun _ _ => rfl) ?_ i _
    rw [hwf.find_erase_self, IdempotencyCache.erase_inFlight]
    simp only [hmiss, reduceCtorEq, false_and, if_false]
    exact (h.covered k).expire (by simp) hexp

theorem Inv.wake (h : s.Inv) {r : Readings} (hs : s.step (.wake i r) = some s') : s'.Inv := by
  obtain ⟨t, ht, rfl⟩ := Option.map_eq_some_iff.1 hs
  have hwf := h.bounded.toWf
  simp only [Callers.step] at ht
  split at ht
  case h_2 => cases ht
  rename_i k d hp
  obtain ⟨a, ha, rfl⟩ := Option.map_eq_some_iff.1 ht
  simp only [Callers.claimAfter, CallerAct.readings, hp]
  rcases IdempotencyCache.resume_cases hwf ha with ⟨e, hf, hlt, rfl⟩ | ⟨hexp, rfl, -⟩
  · have hmiss : s.callers.missed (.wake i r) = none := by simp [Callers.missed, hp, ha]
    refine h.update (h.bounded.promote k) (fun k' _ => IdempotencyCache.find_promote hwf k k') (fun _ _ => rfl) ?_ i _
    rw [IdempotencyCache.find_promote hwf k k]
    refine (h.covered k).weaken (fun c hc => ?_)
    simp only [hmiss, reduceCtorEq, if_false, false_and] at hc
    split at hc <;> exact (unlapsed_eq_some hc).1
  have hmiss : s.callers.missed (.wake i r) = some k := by simp [Callers.missed, hp, ha]
  have herase := fun k' (hne : k' ≠ k) => hwf.find_erase_of_ne hne
  have hb := h.bounded.erase k
  simp only [hmiss, true_and]
  -- the claim and the reservation are replaced together, or both stay
  unfold IdempotencyCache.afterWait
  rw [IdempotencyCache.erase_inFlight]
  cases hl : s.callers.cache.inFlight.lookup k with
  | none =>
    simp only
    refine h.update hb herase (fun _ _ => rfl) ?_ i _
    rw [hwf.find_erase_self, IdempotencyCache.erase_inFlight]
    exact (h.covered k).expire (by simp) hexp
  | some d' =>
    simp only
    by_cases hle : d' ≤ r.after
    · rw [if_pos hle, if_pos hle]
      refine h.update ((IdempotencyCache.SameEntries.reserve _ k r.fresh).bounded hb) ?_ ?_ ?_ i _
      · intro k' hne
        rw [find_reserve, herase k' hne]
      · intro k' hne
        rw [lookup_reserve_of_ne r.fresh hne, IdempotencyCache.erase_inFlight]
      · rw [find_reserve, hwf.find_erase_self, lookup_reserve_self]
        exact .fresh i _
    · rw [if_neg hle, if_neg hle]
      refine h.update hb herase (fun _ _ => rfl) ?_ i _
      rw [hwf.find_erase_self, IdempotencyCache.erase_inFlight]
      exact (h.covered k).expire (by simp) hexp

theorem filter_owner {j d : Nat} (h : claim.filter (fun c => decide (c.1 ≠ i)) = some (j, d)) :
    claim = some (j, d) ∧ j ≠ i := by
  obtain ⟨hc, hne⟩ := Option.filter_eq_some_iff.1 h
  exact ⟨hc, by simpa using hne⟩

theorem Inv.store (h : s.Inv) {e : Entry} (hg : s.considerate (.store i e) = true)
    (hs : s.step (.store i e) = some s') : s'.Inv := by
  obtain ⟨t, ht, rfl⟩ := Option.map_eq_some_iff.1 hs
  simp only [Callers.step] at ht
  split at ht
  case h_2 => cases ht
  rename_i k hp
  cases ht
  simp only [Callers.claimAfter, hp]
  by_cases hk : k = []
  · simp only [IdempotencyCache.store, if_pos hk]
    exact h.update h.bounded (fun _ _ => rfl) (fun _ _ => rfl)
      ((h.covered k).weaken (fun c hc => (Option.filter_eq_some_iff.1 hc).1)) i _
  simp only [considerate, hp, Bool.and_eq_true, Option.all_eq_true, Bool.or_eq_true, decide_eq_true_eq,
    List.all_eq_true, Bool.not_eq_true', Option.isNone_iff_eq_none] at hg
  obtain ⟨hown, hout⟩ := hg
  have hres := s.callers.cache.store_inFlight hk e
  -- a key that is pushed out has no claim, and loses only its entry
  refine ⟨h.bounded.store k e, fun k' => ?_⟩
  show Covered ((s.callers.cache.store k e).find k') ((s.callers.cache.store k e).inFlight.lookup k')
    (Function.update s.claim k _ k')
  by_cases hkk : k' = k
  · subst hkk
    rw [hres, AList.lookup_erase, IdempotencyCache.find_store_self h.bounded hk, Function.update_self]
    refine ⟨by simp, ?_⟩
    intro j d hc
    obtain ⟨hc, hne⟩ := filter_owner hc
    exact .inr ⟨e, rfl, (hown _ hc).resolve_left hne⟩
  · rw [hres, AList.lookup_erase_ne hkk, Function.update_of_ne hkk]
    cases hpush : s.callers.cache.pushesOut k k' with
    | false =>
      rw [IdempotencyCache.find_store_of_ne h.bounded hkk e hpush]
      exact h.covered k'
    | true =>
      have hin : k' ∈ s.callers.cache.keys := by
        simp only [IdempotencyCache.pushesOut, decide_eq_true_eq] at hpush
        exact List.mem_of_getLast? hpush.2.2.2.2
      have hnone : s.claim k' = none := by simpa [hpush] using hout k' hin
      have hgone : (s.callers.cache.store k e).find k' = none := by
        rw [(h.bounded.store k e).find_eq_none_iff, (h.bounded.store k e).mem_index]
        rintro ⟨e', hm⟩
        have hp' := ((IdempotencyCache.mem_store_of_ne h.bounded hkk e e').1 hm).2
        rw [hpush] at hp'
        cases hp'
      rw [hgone, hnone]
      exact ⟨fun _ => rfl, by simp⟩

theorem Inv.cancel (h : s.Inv) (hg : s.considerate (.cancel i) = true) (hs : s.step (.cancel i) = some s') :
    s'.Inv := by
  obtain ⟨t, ht, rfl⟩ := Option.map_eq_some_iff.1 hs
  simp only [Callers.step] at ht
  split at ht
  case h_2 => cases ht
  rename_i k hp
  cases ht
  simp only [Callers.claimAfter, hp]
  have hsame := IdempotencyCache.SameEntries.cancel s.callers.cache k
  by_cases hk : k = []
  · simp only [IdempotencyCache.cancel, if_pos hk]
    exact h.update h.bounded (fun _ _ => rfl) (fun _ _ => rfl)
      ((h.covered k).weaken (fun c hc => (Option.filter_eq_some_iff.1 hc).1)) i _
  have hres := s.callers.cache.cancel_inFlight hk
  simp only [considerate, hp, Option.all_eq_true, Bool.or_eq_true, decide_eq_true_eq] at hg
  refine h.update (hsame.bounded h.bounded) (fun k' _ => hsame.find k') ?_ ?_ i _
  · intro k' hne
    rw [hres, AList.lookup_erase_ne hne]
  · rw [hres, AList.lookup_erase, hsame.find]
    refine ⟨by simp, ?_⟩
    intro j d hc
    obtain ⟨hc, hne⟩ := filter_owner hc
    have hcov := (hg _ hc).resolve_left hne
    unfold outlives at hcov
    split at hcov
    · rename_i e hf
      exact .inr ⟨e, hf, of_decide_eq_true hcov⟩
    · cases hcov

theorem Inv.step (h : s.Inv) (a : CallerAct) (s' : Claims) (hg : s.considerate a = true) (hs : s.step a = some s') :
    s'.Inv := by
  cases a with
  | lookup i k now later => exact h.lookup hs
  | wake i r => exact h.wake hs
  | store i e => exact h.store hg hs
  | cancel i => exact h.cancel hg hs

/-! ## Who is told `kMiss` -/

/-- **A covered claim keeps other callers out**: a step that reads the clock before the deadline of a claim answers
`kMiss` on its key only to a waiter whose own deadline has passed, and the reservation of the claim stands. -/
theorem Inv.missed (h : s.Inv) {a : CallerAct} (hs : s.step a = some s') (hk : k ≠ [])
    (hm : s.callers.missed a = some k) {j d : Nat} (hc : s.claim k = some (j, d)) (hread : ∀ t ∈ a.readings, t < d) :
    ∃ i r deadline, a = .wake i r ∧ s.callers.phase i = .waiting k deadline ∧ deadline ≤ r.wake ∧
      s.callers.cache.inFlight.lookup k = some d := by
  have hwf := h.bounded.toWf
  have hcov := (h.covered k).cover j d hc
  cases a with
  | lookup i k' now later =>
    exfalso
    simp only [Callers.missed] at hm
    have hnow : now < d := hread now (by simp [CallerAct.readings])
    have hkk : k' = k := by
      split at hm
      · split at hm
        · exact Option.some.inj hm
        · cases hm
      · cases hm
    subst hkk
    rcases IdempotencyCache.lookupOrReserve_cases hwf hk now later with ⟨e, hf, hlt, hr⟩ | ⟨hexp, hr⟩
    · rw [hr] at hm
      cases hm
    · have hres : s.callers.cache.inFlight.lookup k' = some d := by
        rcases hcov with hres | ⟨e, he, hle⟩
        · exact hres
        · have hle' := hexp e he
          omega
      rw [hr] at hm
      rcases (s.callers.cache.erase k').reserveOrWait_cases k' now later with ⟨-, hd⟩ | ⟨d', -, -, hr'⟩
      · have hle := hd d (by rw [IdempotencyCache.erase_inFlight]; exact hres)
        omega
      · rw [hr'] at hm
        cases hm
  | wake i r =>
    obtain ⟨t, ht, -⟩ := Option.map_eq_some_iff.1 hs
    simp only [Callers.step] at ht
    split at ht
    case h_2 => cases ht
    rename_i k' deadline hp
    obtain ⟨b, hb, -⟩ := Option.map_eq_some_iff.1 ht
    simp only [Callers.missed, hp, hb] at hm
    have hwake : r.wake < d := hread r.wake (by simp [CallerAct.readings])
    have hnow2 : r.now2 < d := hread r.now2 (by simp [CallerAct.readings])
    split at hm
    case isFalse => cases hm
    cases hm
    rcases IdempotencyCache.resume_cases hwf hb with ⟨e, -, -, rfl⟩ | ⟨hexp, -, hend⟩
    · rename_i hmiss
      cases hmiss
    have hres : s.callers.cache.inFlight.lookup k = some d := by
      rcases hcov with hres | ⟨e, he, hle⟩
      · exact hres
      · have hle' := hexp e he
        omega
    refine ⟨i, r, deadline, rfl, hp, ?_, hres⟩
    rcases hend with hcond | ⟨-, hle⟩
    · -- the wake condition fails: the reservation stands and the key has no entry
      exfalso
      have hfind : s.callers.cache.find k = none := (h.covered k).apart (by rw [hres]; rfl)
      have hin : k ∉ s.callers.cache.index := hwf.find_eq_none_iff.1 hfind
      simp [IdempotencyCache.wakeCondition, hres, hin, hwake] at hcond
    · exact hle
  | store i e => cases hm
  | cancel i => cases hm

/-- **A late executor releases nobody else's reservation** in any run whose steps are considerate of the claims of
others: while a caller's reservation is current and unexpired and it has not stored or cancelled, `kMiss` on its key is
told only to a waiter whose own deadline has passed, and it is told with the reservation still in place. -/
theorem late_release_harmless (capacity ttl wait : Nat) (as : List CallerAct) (s : Claims)
    (hrun : Run.exec step as (init capacity ttl wait) = some s)
    (hguard : Run.along step considerate as (init capacity ttl wait) = true)
    (a : CallerAct) (s' : Claims) (hs : s.step a = some s') (k : Bytes) (hk : k ≠ [])
    (hm : s.callers.missed a = some k) (j d : Nat) (hc : s.claim k = some (j, d)) (hread : ∀ t ∈ a.readings, t < d) :
    ∃ i r deadline, a = .wake i r ∧ s.callers.phase i = .waiting k deadline ∧ deadline ≤ r.wake ∧
      s.callers.cache.inFlight.lookup k = some d :=
  (Run.exec_inv_along (fun _ a s' h hg hs => h.step a s' hg hs) as _ s (Inv.init capacity ttl wait) hguard
    hrun).missed hs hk hm hc hread

/-- Caller 3 waits for caller 0, and caller 1 takes the key over once the reservation of caller 0 has expired. -/
def takeoverRun : List CallerAct :=
  [.lookup 0 (str "k") 0 0, .lookup 3 (str "k") 5 5, .lookup 1 (str "k") 10 10]

/-- A late `Store` of caller 0 whose entry outlives the new reservation is considerate; caller 3 gives up at its own
deadline, with that reservation in place. -/
theorem late_release_harmless_takeoverRun :
    Run.along step considerate (takeoverRun ++ [.store 0 ⟨Status.okay, [], 300⟩]) (init 16 300 10) = true ∧
    ∃ s s', Run.exec step takeoverRun (init 16 300 10) = some s ∧ s.step (.wake 3 ⟨10, 10, 10, 10⟩) = some s' ∧
      s.claim (str "k") = some (1, 20) ∧ s.callers.cache.inFlight.lookup (str "k") = some 20 := by
  refine ⟨by decide +kernel, ?_⟩
  have hm : (Run.exec step takeoverRun (init 16 300 10)).map (fun s =>
      (s.claim (str "k"), s.callers.missed (.wake 3 ⟨10, 10, 10, 10⟩), (s.step (.wake 3 ⟨10, 10, 10, 10⟩)).isSome))
      = some (some (1, 20), some (str "k"), true) := by decide +kernel
  obtain ⟨s, hs, hf⟩ := Option.map_eq_some_iff.1 hm
  simp only [Prod.mk.injEq] at hf
  obtain ⟨hclaim, hmiss, hstep⟩ := hf
  obtain ⟨s', hs'⟩ := Option.isSome_iff_exists.1 hstep
  obtain ⟨i, r, deadline, ha, -, -, hres⟩ := late_release_harmless 16 300 10 takeoverRun s hs (by decide +kernel) _ s'
    hs' (str "k") (by decide +kernel) hmiss 1 20 hclaim (by decide)
  exact ⟨s, s', hs, hs', hclaim, hres⟩

/-- Caller 0 cancels after caller 1 took its key over. -/
def lateCancelRun : List CallerAct :=
  [.lookup 0 (str "k") 0 0, .lookup 1 (str "k") 10 10, .cancel 0]

/-- The late `Cancel` erases the reservation of caller 1, which is still executing: caller 2 is told `kMiss` at once,
long before that reservation's deadline. -/
theorem lateCancelRun_third_misses :
    (Run.exec step lateCancelRun (init 16 300 10)).map (fun s =>
      (s.claim (str "k"), s.callers.phase 1, s.callers.missed (.lookup 2 (str "k") 11 11),
        (s.step (.lookup 2 (str "k") 11 11)).map (fun s => s.callers.phase 2)))
      = some (some (1, 20), .executing (str "k"), some (str "k"), some (.executing (str "k"))) := by
  decide +kernel

end Claims
end Control
end Osw
