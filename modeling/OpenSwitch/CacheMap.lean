import OpenSwitch.Recency
import OpenSwitch.Run
import OpenSwitch.IdempotencyCache
/-!
# CacheMap — the idempotency cache as a bounded map with expiry

The calls of the cache one after the other: `lookup` is the whole of `LookupOrReserve`, its wait included.  Beside the
cache stands its ledger, what a reader of the calls alone would write down: the entry each key was last stored with,
the number of the call that last stored or hit it, and whether it has been pushed out since.  `Inv` ties the two
together, and `lookup_hit_iff` and `store_pushes_out` are what a caller may rely on.
-/
namespace Osw
namespace Control
namespace IdempotencyCache

/-! ## What each operation does to the entries -/

/-- The keys held, the one stored or hit last first. -/
def keys (c : IdempotencyCache) : List Bytes := c.lruList.map Prod.fst

/-- A well formed cache within its bound.  `Store` makes room for its entry in every case, so one entry is held even at
capacity zero. -/
structure Bounded (c : IdempotencyCache) : Prop extends Wf c where
  size : c.lruList.length ≤ max 1 c.capacity

/-- Two caches that differ in their reservations at most. -/
structure SameEntries (c c' : IdempotencyCache) : Prop where
  index    : c'.index = c.index
  lruList  : c'.lruList = c.lruList
  capacity : c'.capacity = c.capacity
  ttl      : c'.ttl = c.ttl
  wait     : c'.inFlightMaxWait = c.inFlightMaxWait

theorem SameEntries.refl (c : IdempotencyCache) : SameEntries c c := ⟨rfl, rfl, rfl, rfl, rfl⟩

theorem SameEntries.reserve (c : IdempotencyCache) (k : Bytes) (t : Nat) : SameEntries c (c.reserve k t) :=
  ⟨rfl, rfl, rfl, rfl, rfl⟩

theorem SameEntries.cancel (c : IdempotencyCache) (k : Bytes) : SameEntries c (c.cancel k) := by
  unfold IdempotencyCache.cancel
  split
  · exact .refl c
  · exact ⟨rfl, rfl, rfl, rfl, rfl⟩

theorem SameEntries.afterWait (c : IdempotencyCache) (k : Bytes) (r : Readings) : SameEntries c (c.afterWait k r) := by
  unfold IdempotencyCache.afterWait
  split
  · split
    · exact .reserve c k _
    · exact .refl c
  · exact .refl c

variable {c c' : IdempotencyCache} {k : Bytes}

theorem SameEntries.bounded (h : SameEntries c c') (hb : c.Bounded) : c'.Bounded :=
  ⟨hb.toWf.of_eq h.index h.lruList, by rw [h.lruList, h.capacity]; exact hb.size⟩

theorem SameEntries.find (h : SameEntries c c') (k : Bytes) : c'.find k = c.find k := by
  unfold IdempotencyCache.find
  rw [h.index, h.lruList]

theorem Bounded.empty (capacity ttl wait : Nat) : (IdempotencyCache.empty capacity ttl wait).Bounded :=
  ⟨Wf.empty capacity ttl wait, Nat.zero_le _⟩

theorem Wf.mem_index_iff_keys (h : c.Wf) (k : Bytes) : k ∈ c.index ↔ k ∈ c.keys :=
  h.perm.mem_iff

/-- The entry a key leads to is the one of its node. -/
theorem Wf.find_eq_some_iff (h : c.Wf) {e : Entry} : c.find k = some e ↔ (k, e) ∈ c.lruList := by
  refine ⟨fun hf => (find_mem hf).2, fun hm => ?_⟩
  obtain ⟨e', hf, hm'⟩ := h.find_of_mem ((h.mem_index k).2 ⟨e, hm⟩)
  have he : (k, e') = (k, e) := List.inj_on_of_nodup_map h.nodup hm' hm rfl
  rw [hf, (Prod.mk.inj he).2]

theorem Wf.find_eq_none_iff (h : c.Wf) : c.find k = none ↔ k ∉ c.index := by
  constructor
  · intro hf hk
    obtain ⟨e, he, _⟩ := h.find_of_mem hk
    rw [hf] at he
    cases he
  · intro hk
    cases hf : c.find k with
    | none => rfl
    | some e => exact absurd (find_mem hf).1 hk

theorem keys_erase (c : IdempotencyCache) (k : Bytes) : (c.erase k).keys = c.keys.erase k := map_fst_eraseP c.lruList k

theorem Wf.mem_erase (h : c.Wf) {k' : Bytes} {e : Entry} :
    (k', e) ∈ (c.erase k).lruList ↔ k' ≠ k ∧ (k', e) ∈ c.lruList := by
  constructor
  · intro hm
    refine ⟨?_, List.mem_of_mem_eraseP hm⟩
    rintro rfl
    have hk : k' ∈ (c.erase k').keys := List.mem_map.2 ⟨_, hm, rfl⟩
    rw [keys_erase] at hk
    exact (h.nodup.mem_erase_iff.1 hk).1 rfl
  · rintro ⟨hne, hm⟩
    exact (List.mem_eraseP_of_neg (by simpa using hne)).2 hm

theorem Wf.length_erase (h : c.Wf) (hk : k ∈ c.index) : (c.erase k).lruList.length + 1 = c.lruList.length := by
  have hm := (h.mem_index_iff_keys k).1 hk
  have hle : (c.erase k).keys.length = c.keys.length - 1 := by rw [keys_erase, List.length_erase_of_mem hm]
  have hpos := List.length_pos_of_mem hm
  simp only [keys, List.length_map] at hle hpos
  omega

theorem Bounded.erase (h : c.Bounded) (k : Bytes) : (c.erase k).Bounded :=
  ⟨h.toWf.erase k, Nat.le_trans (List.length_eraseP_le) h.size⟩

theorem Bounded.promote (h : c.Bounded) (k : Bytes) : (c.promote k).Bounded :=
  ⟨h.toWf.promote k, by rw [(promote_perm c k).length_eq]; exact h.size⟩

/-- A hit key stands in front of the others, which keep their order. -/
theorem Wf.keys_promote (h : c.Wf) (hk : k ∈ c.keys) : (c.promote k).keys = k :: c.keys.erase k := by
  have hfront : c.keys.filter (fun a => a == k) = [k] := by
    have hone : c.keys.count k = 1 := List.count_eq_one_of_mem h.nodup hk
    rw [List.filter_beq, hone, List.replicate_one]
  have hrest : c.keys.filter (fun a => a != k) = c.keys.erase k := (h.nodup.erase_eq_filter k).symm
  show (List.map Prod.fst (c.lruList.filter (fun n => n.1 == k) ++ c.lruList.filter (fun n => n.1 != k))) = _
  rw [List.map_append, ← hrest, show k :: c.keys.filter (fun a => a != k) = [k] ++ c.keys.filter (fun a => a != k) from rfl,
    ← hfront, keys, List.filter_map, List.filter_map]
  rfl

theorem find_promote (h : c.Wf) (k k' : Bytes) : (c.promote k).find k' = c.find k' := by
  ext e
  rw [(h.promote k).find_eq_some_iff, h.find_eq_some_iff, (promote_perm c k).mem_iff]

/-- `EvictIfNeeded` drops the last node of a full cache, and nothing otherwise. -/
theorem evictIfNeeded_lruList (h : c.lruList.length ≤ max 1 c.capacity) :
    c.evictIfNeeded.lruList = if c.capacity ≤ c.lruList.length then c.lruList.dropLast else c.lruList := by
  have hlast : ∀ c : IdempotencyCache, c.eraseLast.lruList = c.lruList.dropLast ∧ c.eraseLast.capacity = c.capacity := by
    intro c
    unfold eraseLast
    split
    · rename_i hn
      rw [List.getLast?_eq_none_iff.1 hn]
      exact ⟨rfl, rfl⟩
    · exact ⟨rfl, rfl⟩
  -- after one round the list is below the capacity or the loop has used up its rounds
  have hstop : ∀ (n : Nat) (c : IdempotencyCache), n = 0 ∨ c.lruList.length < c.capacity → evictLoop n c = c := by
    intro n c hc
    cases n with
    | zero => rfl
    | succ n => rw [evictLoop, if_neg (by omega)]
  unfold evictIfNeeded
  cases hn : c.lruList.length with
  | zero =>
    rw [hstop 0 c (.inl rfl), List.length_eq_zero_iff.1 hn]
    split <;> rfl
  | succ n =>
    rw [evictLoop]
    obtain ⟨hl, hcap⟩ := hlast c
    by_cases hfull : c.capacity ≤ c.lruList.length
    · have hrest : n = 0 ∨ c.eraseLast.lruList.length < c.eraseLast.capacity := by
        rw [hl, hcap, List.length_dropLast]
        omega
      rw [if_pos hfull, hstop n c.eraseLast hrest, hl, if_pos (by omega)]
    · rw [if_neg hfull, if_neg (by omega)]

/-- **What `Store` leaves**: the new entry in front of the others, less the key's old entry, or else less the last node
of a full cache. -/
theorem store_lruList (h : c.Bounded) (hk : k ≠ []) (e : Entry) :
    (c.store k e).lruList = (k, e) ::
      (if k ∈ c.index then (c.erase k).lruList
       else if c.capacity ≤ c.lruList.length then c.lruList.dropLast else c.lruList) := by
  rw [store, if_neg hk]
  show (k, e) :: _ = _
  by_cases hin : k ∈ c.index
  · rw [if_pos hin, if_pos hin, evictIfNeeded_lruList (h.erase k).size]
    have hlen := h.toWf.length_erase hin
    have hsize := h.size
    have hcap : (c.erase k).capacity = c.capacity := rfl
    by_cases hfull : (c.erase k).capacity ≤ (c.erase k).lruList.length
    · -- capacity zero: the only entry was the key's own
      have hnil : (c.erase k).lruList = [] := List.length_eq_zero_iff.1 (by omega)
      rw [hnil]
      split <;> rfl
    · rw [if_neg hfull]
  · rw [if_neg hin, if_neg hin, evictIfNeeded_lruList h.size]

theorem evictLoop_capacity : ∀ (n : Nat) (c : IdempotencyCache), (evictLoop n c).capacity = c.capacity
  | 0, _ => rfl
  | n + 1, c => by
    unfold evictLoop
    split
    · rw [evictLoop_capacity n]
      unfold eraseLast
      split <;> rfl
    · rfl

theorem store_capacity (c : IdempotencyCache) (k : Bytes) (e : Entry) : (c.store k e).capacity = c.capacity := by
  unfold store
  split
  · rfl
  · show (evictLoop _ _).capacity = _
    rw [evictLoop_capacity]
    split <;> rfl

theorem Bounded.store (h : c.Bounded) (k : Bytes) (e : Entry) : (c.store k e).Bounded := by
  refine ⟨h.toWf.store k e, ?_⟩
  by_cases hk : k = []
  · rw [IdempotencyCache.store, if_pos hk]
    exact h.size
  rw [store_capacity, store_lruList h hk, List.length_cons]
  have hsize := h.size
  split
  · rename_i hin
    have hlen := h.toWf.length_erase hin
    omega
  · split
    · rw [List.length_dropLast]
      omega
    · omega

theorem find_store_self (h : c.Bounded) (hk : k ≠ []) (e : Entry) : (c.store k e).find k = some e := by
  rw [(h.toWf.store k e).find_eq_some_iff, store_lruList h hk]
  exact List.mem_cons_self

/-- `Store` pushes a key out: another key, not held, is stored in a full cache whose last node is this one. -/
def pushesOut (c : IdempotencyCache) (k v : Bytes) : Bool :=
  decide (k ≠ [] ∧ v ≠ k ∧ k ∉ c.index ∧ c.capacity ≤ c.lruList.length ∧ c.keys.getLast? = some v)

theorem SameEntries.pushesOut (h : SameEntries c c') (k v : Bytes) : c'.pushesOut k v = c.pushesOut k v := by
  unfold IdempotencyCache.pushesOut keys
  apply decide_eq_decide.2
  rw [h.index, h.lruList, h.capacity]

/-- The entries of the other keys stay, but for the one pushed out. -/
theorem mem_store_of_ne (h : c.Bounded) {v : Bytes} (hv : v ≠ k) (e e' : Entry) :
    (v, e') ∈ (c.store k e).lruList ↔ (v, e') ∈ c.lruList ∧ c.pushesOut k v = false := by
  by_cases hk : k = []
  · simp [IdempotencyCache.store, pushesOut, hk]
  have hne : (v, e') ≠ (k, e) := fun he => hv (Prod.mk.inj he).1
  rw [store_lruList h hk, List.mem_cons, or_iff_right hne]
  by_cases hin : k ∈ c.index
  · rw [if_pos hin, h.toWf.mem_erase]
    simp [pushesOut, hin, hv]
  rw [if_neg hin]
  by_cases hfull : c.capacity ≤ c.lruList.length
  · rw [if_pos hfull]
    rcases List.eq_nil_or_concat' c.lruList with hnil | ⟨l, n, hl⟩
    · simp [hnil]
    · -- the last node goes, and no other node has its key
      have hkeys : c.keys.getLast? = some n.1 := by simp [keys, hl]
      have hnd := h.nodup
      rw [hl, List.map_append] at hnd
      have hout : (v, e') ∈ l → v ≠ n.1 := by
        rintro hm rfl
        exact List.disjoint_of_nodup_append hnd (List.mem_map.2 ⟨_, hm, rfl⟩) (by simp)
      rw [hl, List.dropLast_concat, List.mem_append, List.mem_singleton]
      simp only [pushesOut, hkeys, hfull, Option.some.injEq, decide_eq_false_iff_not]
      constructor
      · intro hm
        exact ⟨.inl hm, fun hp => hout hm hp.2.2.2.2.symm⟩
      · rintro ⟨hm | hm, hp⟩
        · exact hm
        · exact absurd ⟨hk, hv, hin, trivial, by rw [← hm]⟩ hp
  · rw [if_neg hfull]
    simp [pushesOut, hfull]

theorem find_store_of_ne (h : c.Bounded) {v : Bytes} (hv : v ≠ k) (e : Entry) (hp : c.pushesOut k v = false) :
    (c.store k e).find v = c.find v := by
  ext e'
  rw [(h.toWf.store k e).find_eq_some_iff, h.toWf.find_eq_some_iff, mem_store_of_ne h hv, hp]
  simp

/-! ## A whole lookup -/

/-- The clock readings of one `LookupOrReserve`; those of its wait count only when it waits. -/
structure Times extends Readings where
  now   : Nat
  later : Nat
  deriving DecidableEq, Repr

/-- The clock never goes back, from `clock` on. -/
def Times.ordered (t : Times) (clock : Nat) : Bool :=
  decide (clock ≤ t.now ∧ t.now ≤ t.later ∧ t.later ≤ t.wake ∧ t.wake ≤ t.now2 ∧ t.now2 ≤ t.after ∧ t.after ≤ t.fresh)

/-- Every reading the same. -/
def Times.constant (t : Nat) : Times := ⟨⟨t, t, t, t⟩, t, t⟩

/-- `LookupOrReserve` with no other call of the cache meanwhile; `none` while it still waits. -/
def lookup (c : IdempotencyCache) (k : Bytes) (t : Times) : Option (LookupResult × IdempotencyCache) :=
  match c.lookupOrReserve k t.now t.later with
  | .answered r c => some (r, c)
  | .blocked d c  => c.resume k d t.toReadings

/-- Erasing an absent key changes nothing. -/
theorem Wf.erase_of_find_none (h : c.Wf) (hf : c.find k = none) : c.erase k = c := by
  have hout : k ∉ c.index := h.find_eq_none_iff.1 hf
  have hlist : c.lruList.eraseP (fun n => n.1 == k) = c.lruList := by
    apply List.eraseP_of_forall_not
    intro n hn hnk
    have hn1 : n.1 = k := by simpa using hnk
    exact hout ((h.mem_index k).2 ⟨n.2, hn1 ▸ hn⟩)
  unfold IdempotencyCache.erase
  rw [List.erase_of_not_mem hout, hlist]

theorem Wf.find_erase_self (h : c.Wf) (k : Bytes) : (c.erase k).find k = none := by
  rw [(h.erase k).find_eq_none_iff, (h.erase k).mem_index_iff_keys, keys_erase]
  exact fun hm => (h.nodup.mem_erase_iff.1 hm).1 rfl

theorem Wf.find_erase_of_ne (h : c.Wf) {k' : Bytes} (hne : k' ≠ k) : (c.erase k).find k' = c.find k' := by
  ext e
  rw [(h.erase k).find_eq_some_iff, h.find_eq_some_iff, h.mem_erase, and_iff_right hne]

/-- **How the first half of a lookup starts**: an unexpired entry is a hit, and one that has expired goes. -/
theorem lookupOrReserve_cases (h : c.Wf) (hk : k ≠ []) (now later : Nat) :
    (∃ e, c.find k = some e ∧ now < e.expiresAt ∧
      c.lookupOrReserve k now later = .answered ⟨.hit, e⟩ (c.promote k)) ∨
    ((∀ e, c.find k = some e → e.expiresAt ≤ now) ∧
      c.lookupOrReserve k now later = (c.erase k).reserveOrWait k now later) := by
  unfold lookupOrReserve
  rw [if_neg hk]
  cases hf : c.find k with
  | none => exact .inr ⟨nofun, by rw [h.erase_of_find_none hf]⟩
  | some e =>
    simp only
    by_cases hexp : e.expiresAt ≤ now
    · exact .inr ⟨fun e' he => by cases he; exact hexp, by rw [if_pos hexp]⟩
    · exact .inl ⟨e, rfl, by omega, by rw [if_neg hexp]⟩

/-- **How a wait ends**: on an unexpired entry, on the wake condition without one, or at its deadline. -/
theorem resume_cases (h : c.Wf) {d : Nat} {r : Readings} {a : LookupResult × IdempotencyCache}
    (ha : c.resume k d r = some a) :
    (∃ e, c.find k = some e ∧ r.now2 < e.expiresAt ∧ a = (⟨.hit, e⟩, c.promote k)) ∨
    ((∀ e, c.find k = some e → e.expiresAt ≤ r.now2) ∧ a = (⟨.miss, .empty⟩, (c.erase k).afterWait k r) ∧
      (c.wakeCondition k r.wake = true ∨ (c.wakeCondition k r.wake = false ∧ d ≤ r.wake))) := by
  unfold resume at ha
  cases hw : c.wakeCondition k r.wake with
  | true =>
    rw [if_pos hw] at ha
    cases hf : c.find k with
    | none =>
      rw [hf] at ha
      cases ha
      exact .inr ⟨nofun, by rw [h.erase_of_find_none hf], .inl rfl⟩
    | some e =>
      rw [hf] at ha
      simp only at ha
      by_cases hexp : r.now2 < e.expiresAt
      · rw [if_pos hexp] at ha
        cases ha
        exact .inl ⟨e, rfl, hexp, rfl⟩
      · rw [if_neg hexp] at ha
        cases ha
        exact .inr ⟨fun e' he => by cases he; omega, rfl, .inl rfl⟩
  | false =>
    rw [hw, if_neg Bool.false_ne_true] at ha
    -- the condition fails, so the key has no entry
    have hf : c.find k = none := by
      rw [h.find_eq_none_iff]
      intro hin
      simp [wakeCondition, hin] at hw
    split at ha
    · rename_i hle
      cases ha
      exact .inr ⟨by simp [hf], by rw [h.erase_of_find_none hf], .inr ⟨rfl, hle⟩⟩
    · cases ha

/-- **What a lookup does**: it hits an unexpired entry and moves it to the front, or it misses, and the key's entry, if
there was one, had expired and goes. -/
theorem lookup_cases (h : c.Wf) (hk : k ≠ []) {t : Times} {a : LookupResult × IdempotencyCache}
    (ha : c.lookup k t = some a) :
    (∃ e, c.find k = some e ∧ t.now < e.expiresAt ∧ a = (⟨.hit, e⟩, c.promote k)) ∨
    ((∀ e, c.find k = some e → e.expiresAt ≤ t.now) ∧ a.1 = ⟨.miss, .empty⟩ ∧ SameEntries (c.erase k) a.2) := by
  unfold lookup at ha
  rcases lookupOrReserve_cases h hk t.now t.later with ⟨e, hf, hlt, hr⟩ | ⟨hexp, hr⟩
  · rw [hr] at ha
    cases ha
    exact .inl ⟨e, hf, hlt, rfl⟩
  · refine .inr ⟨hexp, ?_⟩
    have hnone := h.find_erase_self k
    rw [hr] at ha
    rcases (c.erase k).reserveOrWait_cases k t.now t.later with ⟨hr', -⟩ | ⟨d, -, -, hr'⟩
    · rw [hr'] at ha
      cases ha
      exact ⟨rfl, .reserve _ k t.now⟩
    · rw [hr'] at ha
      rcases resume_cases (h.erase k) ha with ⟨e, hf, -⟩ | ⟨-, rfl, -⟩
      · rw [hnone] at hf
        cases hf
      · rw [(h.erase k).erase_of_find_none hnone]
        exact ⟨rfl, .afterWait _ k _⟩

theorem lookup_nil (c : IdempotencyCache) (t : Times) : c.lookup [] t = some (⟨.miss, .empty⟩, c) := rfl

end IdempotencyCache

/-! ## The ledger -/

open IdempotencyCache (Times)

/-- A call of the cache. -/
inductive CacheCall
  | lookup (k : Bytes) (t : Times)
  | store (k : Bytes) (e : Entry)
  | cancel (k : Bytes)

/-- A cache and what its calls amount to: the clock and the number of calls so far, the entry of the last `Store` of
each key, the number of the call that last stored or hit it, and whether it was pushed out since it was stored.  The
empty key opts out of the cache: a `Store` of it stores nothing. -/
structure Ledger where
  cache     : IdempotencyCache
  clock     : Nat
  calls     : Nat
  lastStore : Bytes → Option Entry
  lastUse   : Bytes → Nat
  pushedOut : Bytes → Bool

namespace Ledger

def init (capacity ttl wait : Nat) : Ledger :=
  ⟨.empty capacity ttl wait, 0, 0, fun _ => none, fun _ => 0, fun _ => false⟩

/-- A lookup of `k` was answered `r` and left the cache as `c`: a hit is a use of the key. -/
def answered (l : Ledger) (k : Bytes) (t : Times) (r : LookupResult) (c : IdempotencyCache) : Ledger :=
  { l with
    cache   := c
    clock   := t.fresh
    calls   := l.calls + 1
    lastUse := if r.state = .hit then Function.update l.lastUse k l.calls else l.lastUse }

/-- A lookup whose clock readings go on from the last. -/
def lookup (l : Ledger) (k : Bytes) (t : Times) : Option (LookupResult × Ledger) :=
  if t.ordered l.clock then (l.cache.lookup k t).map (fun a => (a.1, l.answered k t a.1 a.2)) else none

/-- What was held before the `Store` and is not held after it was pushed out. -/
def store (l : Ledger) (k : Bytes) (e : Entry) : Ledger :=
  if k = [] then { l with calls := l.calls + 1 }
  else
    { cache     := l.cache.store k e
      clock     := l.clock
      calls     := l.calls + 1
      lastStore := Function.update l.lastStore k (some e)
      lastUse   := Function.update l.lastUse k l.calls
      pushedOut := fun v =>
        if v = k then false
        else l.pushedOut v || (decide (v ∈ l.cache.index) && !decide (v ∈ (l.cache.store k e).index)) }

def cancel (l : Ledger) (k : Bytes) : Ledger := { l with cache := l.cache.cancel k, calls := l.calls + 1 }

def step (l : Ledger) : CacheCall → Option Ledger
  | .lookup k t => (l.lookup k t).map Prod.snd
  | .store k e  => some (l.store k e)
  | .cancel k   => some (l.cancel k)

/-- The last `Store` of the key is good for a hit at `now`: it has not expired and was not pushed out. -/
def live (l : Ledger) (k : Bytes) (now : Nat) (e : Entry) : Prop :=
  l.lastStore k = some e ∧ now < e.expiresAt ∧ l.pushedOut k = false

instance (l : Ledger) (k : Bytes) (now : Nat) (e : Entry) : Decidable (l.live k now e) := inferInstanceAs (Decidable (_ ∧ _))

/-- The cache holds what the ledger says. -/
structure Inv (l : Ledger) : Prop where
  bounded : l.cache.Bounded
  held    : ∀ k e, (k, e) ∈ l.cache.lruList → l.lastStore k = some e ∧ l.pushedOut k = false
  kept    : ∀ k e, l.lastStore k = some e → l.pushedOut k = false → (k, e) ∈ l.cache.lruList ∨ e.expiresAt ≤ l.clock
  recent  : Recency l.lastUse l.calls l.cache.keys
  named   : l.lastStore [] = none

theorem Inv.init (capacity ttl wait : Nat) : (init capacity ttl wait).Inv :=
  ⟨.empty capacity ttl wait, nofun, nofun, .nil _ _, rfl⟩

variable {l l' : Ledger} {k : Bytes} {a : LookupResult × Ledger} {t : Times}

/-- The entries and the ledger's columns stay; time may pass. -/
theorem Inv.of_same (h : l.Inv) (hc : l.cache.SameEntries l'.cache) (hclock : l.clock ≤ l'.clock)
    (hcalls : l.calls ≤ l'.calls) (hs : l'.lastStore = l.lastStore) (hu : l'.lastUse = l.lastUse)
    (hp : l'.pushedOut = l.pushedOut) : l'.Inv := by
  refine ⟨hc.bounded h.bounded, ?_, ?_, ?_, by rw [hs]; exact h.named⟩
  · intro k e hm
    rw [hc.lruList] at hm
    rw [hs, hp]
    exact h.held k e hm
  · intro k e hk hout
    rw [hs] at hk
    rw [hp] at hout
    rw [hc.lruList]
    rcases h.kept k e hk hout with hm | hexp
    · exact .inl hm
    · exact .inr (Nat.le_trans hexp hclock)
  · rw [hu, show l'.cache.keys = l.cache.keys by simp only [IdempotencyCache.keys, hc.lruList]]
    exact h.recent.later hcalls

/-- **A live entry is the one the cache leads to**, at any reading from now on. -/
theorem Inv.live_iff (h : l.Inv) {now : Nat} (hnow : l.clock ≤ now) (e : Entry) :
    l.live k now e ↔ l.cache.find k = some e ∧ now < e.expiresAt := by
  rw [h.bounded.find_eq_some_iff]
  constructor
  · rintro ⟨hs, hlt, hp⟩
    rcases h.kept k e hs hp with hm | hexp
    · exact ⟨hm, hlt⟩
    · omega
  · rintro ⟨hm, hlt⟩
    obtain ⟨hs, hp⟩ := h.held k e hm
    exact ⟨hs, hlt, hp⟩

theorem lookup_eq_some (ha : l.lookup k t = some a) :
    l.clock ≤ t.now ∧ t.now ≤ t.fresh ∧
      ∃ r c, l.cache.lookup k t = some (r, c) ∧ a = (r, l.answered k t r c) := by
  unfold lookup at ha
  split at ha
  · rename_i ho
    simp only [Times.ordered, decide_eq_true_eq] at ho
    obtain ⟨⟨r, c⟩, hb, rfl⟩ := Option.map_eq_some_iff.1 ha
    exact ⟨by omega, by omega, r, c, hb, rfl⟩
  · cases ha

/-- **`kHit` is answered exactly when the last `Store` of the key is live, and with its entry.** -/
theorem Inv.lookup_hit_iff (h : l.Inv) (ha : l.lookup k t = some a) :
    (∀ e, a.1 = ⟨.hit, e⟩ ↔ l.live k t.now e) ∧ (a.1.state = .hit ∨ a.1 = ⟨.miss, .empty⟩) := by
  obtain ⟨hclock, -, r, c, hb, rfl⟩ := lookup_eq_some ha
  by_cases hk : k = []
  · subst hk
    rw [IdempotencyCache.lookup_nil] at hb
    cases hb
    refine ⟨fun e => ⟨nofun, ?_⟩, .inr rfl⟩
    rintro ⟨hs, -⟩
    rw [h.named] at hs
    cases hs
  rcases IdempotencyCache.lookup_cases h.bounded.toWf hk hb with ⟨e₀, hf, hlt, he₀⟩ | ⟨hexp, hmiss, -⟩
  · cases he₀
    refine ⟨fun e => ?_, .inl rfl⟩
    rw [h.live_iff hclock, hf]
    constructor
    · intro he
      cases he
      exact ⟨rfl, hlt⟩
    · rintro ⟨he, -⟩
      cases he
      rfl
  · refine ⟨fun e => ?_, .inr hmiss⟩
    rw [h.live_iff hclock]
    constructor
    · intro he
      exact absurd (hmiss.symm.trans he) (by simp)
    · rintro ⟨he, hlt⟩
      have hle := hexp e he
      omega

theorem Inv.lookup (h : l.Inv) (ha : l.lookup k t = some a) : a.2.Inv := by
  obtain ⟨hnow, hfresh, r, c, hb, rfl⟩ := lookup_eq_some ha
  have hclock : l.clock ≤ t.fresh := Nat.le_trans hnow hfresh
  by_cases hk : k = []
  · subst hk
    rw [IdempotencyCache.lookup_nil] at hb
    cases hb
    exact h.of_same (.refl _) hclock (Nat.le_succ _) rfl rfl rfl
  rcases IdempotencyCache.lookup_cases h.bounded.toWf hk hb with ⟨e₀, hf, -, he₀⟩ | ⟨hexp, hmiss, hsame⟩
  · -- a hit: the same entries, the key's in front
    cases he₀
    have hmem := fun n => (IdempotencyCache.promote_perm l.cache k).mem_iff (a := n)
    have hin : k ∈ l.cache.keys := List.mem_map.2 ⟨_, h.bounded.find_eq_some_iff.1 hf, rfl⟩
    refine ⟨h.bounded.promote k, fun k' e hm => h.held k' e ((hmem _).1 hm), ?_, ?_, h.named⟩
    · intro k' e hs hp
      rcases h.kept k' e hs hp with hm | hle
      · exact .inl ((hmem _).2 hm)
      · exact .inr (Nat.le_trans hle hclock)
    · show Recency (Function.update l.lastUse k l.calls) (l.calls + 1) (l.cache.promote k).keys
      rw [h.bounded.keys_promote hin]
      have hout : k ∉ l.cache.keys.erase k := fun hm => (h.bounded.nodup.mem_erase_iff.1 hm).1 rfl
      exact (h.recent.sublist List.erase_sublist).push hout
  · -- a miss: an entry of the key that has expired goes
    simp only at hmiss hsame
    subst hmiss
    refine ⟨hsame.bounded (h.bounded.erase k), ?_, ?_, ?_, h.named⟩
    · intro k' e hm
      have hm' : (k', e) ∈ (l.cache.erase k).lruList := hsame.lruList ▸ hm
      exact h.held k' e (h.bounded.mem_erase.1 hm').2
    · intro k' e hs hp
      show (k', e) ∈ c.lruList ∨ e.expiresAt ≤ t.fresh
      rw [hsame.lruList]
      rcases h.kept k' e hs hp with hm | hle
      · by_cases hkk : k' = k
        · subst hkk
          have hle := hexp e (h.bounded.find_eq_some_iff.2 hm)
          exact .inr (Nat.le_trans hle hfresh)
        · exact .inl (h.bounded.mem_erase.2 ⟨hkk, hm⟩)
      · exact .inr (Nat.le_trans hle hclock)
    · show Recency l.lastUse (l.calls + 1) c.keys
      rw [show c.keys = (l.cache.erase k).keys by simp only [IdempotencyCache.keys, hsame.lruList],
        IdempotencyCache.keys_erase]
      exact (h.recent.sublist List.erase_sublist).later (Nat.le_succ _)

/-- The ledger notes as pushed out the key the cache pushes out. -/
theorem Inv.store_pushedOut (h : l.Inv) (hk : k ≠ []) (e : Entry) {v : Bytes} (hv : v ≠ k) :
    (l.store k e).pushedOut v = true ↔
      l.pushedOut v = true ∨ (v ∈ l.cache.index ∧ l.cache.pushesOut k v = true) := by
  have hout : v ∈ l.cache.index → (v ∉ (l.cache.store k e).index ↔ l.cache.pushesOut k v = true) := by
    intro hin
    obtain ⟨e', hm⟩ := (h.bounded.mem_index v).1 hin
    rw [(h.bounded.store k e).mem_index]
    constructor
    · intro hn
      by_contra hp
      exact hn ⟨e', (IdempotencyCache.mem_store_of_ne h.bounded hv e e').2 ⟨hm, by simpa using hp⟩⟩
    · rintro hp ⟨e'', hm'⟩
      rw [((IdempotencyCache.mem_store_of_ne h.bounded hv e e'').1 hm').2] at hp
      cases hp
  simp only [store, if_neg hk, if_neg hv, Bool.or_eq_true, Bool.and_eq_true, Bool.not_eq_true', decide_eq_true_eq,
    decide_eq_false_iff_not]
  constructor
  · rintro (hp | ⟨hin, hn⟩)
    · exact .inl hp
    · exact .inr ⟨hin, (hout hin).1 hn⟩
  · rintro (hp | ⟨hin, hp⟩)
    · exact .inl hp
    · exact .inr ⟨hin, (hout hin).2 hp⟩

theorem Inv.store (h : l.Inv) (k : Bytes) (e : Entry) : (l.store k e).Inv := by
  by_cases hk : k = []
  · simp only [Ledger.store, if_pos hk]
    exact h.of_same (.refl _) (Nat.le_refl _) (Nat.le_succ _) rfl rfl rfl
  have hpush := fun v (hv : v ≠ k) => h.store_pushedOut hk e hv
  have hself : (l.store k e).pushedOut k = false := by simp [Ledger.store, hk]
  have hcache : (l.store k e).cache = l.cache.store k e := by simp [Ledger.store, hk]
  have hstore : (l.store k e).lastStore = Function.update l.lastStore k (some e) := by simp [Ledger.store, hk]
  have huse : (l.store k e).lastUse = Function.update l.lastUse k l.calls := by simp [Ledger.store, hk]
  have hcalls : (l.store k e).calls = l.calls + 1 := by simp [Ledger.store, hk]
  have hclock : (l.store k e).clock = l.clock := by simp [Ledger.store, hk]
  have hhead : ∀ e', (k, e') ∈ (l.cache.store k e).lruList ↔ e' = e := by
    intro e'
    rw [← (h.bounded.store k e).find_eq_some_iff, IdempotencyCache.find_store_self h.bounded hk e, Option.some.injEq,
      eq_comm]
  refine ⟨by rw [hcache]; exact h.bounded.store k e, ?_, ?_, ?_, ?_⟩
  · intro v e' hm
    rw [hcache] at hm
    rw [hstore]
    by_cases hv : v = k
    · subst hv
      rw [(hhead e').1 hm, Function.update_self]
      exact ⟨rfl, hself⟩
    · obtain ⟨hm, hp⟩ := (IdempotencyCache.mem_store_of_ne h.bounded hv e e').1 hm
      obtain ⟨hs, hold⟩ := h.held v e' hm
      rw [Function.update_of_ne hv]
      refine ⟨hs, ?_⟩
      by_contra hc
      rcases (hpush v hv).1 (by simpa using hc) with hc | ⟨-, hc⟩
      · rw [hold] at hc
        cases hc
      · rw [hp] at hc
        cases hc
  · intro v e' hs hp
    rw [hstore] at hs
    rw [hcache, hclock]
    by_cases hv : v = k
    · subst hv
      rw [Function.update_self, Option.some.injEq] at hs
      exact .inl ((hhead e').2 hs.symm)
    · rw [Function.update_of_ne hv] at hs
      have hnot := fun hc => Bool.false_ne_true (hp.symm.trans ((hpush v hv).2 hc))
      rcases h.kept v e' hs (by simpa using fun hc => hnot (.inl hc)) with hm | hexp
      · refine .inl ((IdempotencyCache.mem_store_of_ne h.bounded hv e e').2 ⟨hm, ?_⟩)
        have hin : v ∈ l.cache.index := (h.bounded.mem_index v).2 ⟨e', hm⟩
        simpa using fun hc => hnot (.inr ⟨hin, hc⟩)
      · exact .inr hexp
  · rw [huse, hcalls, hcache]
    have hnd := (h.bounded.store k e).nodup
    have hlist := IdempotencyCache.store_lruList h.bounded hk e
    rw [hlist, List.map_cons] at hnd
    simp only [IdempotencyCache.keys, hlist, List.map_cons]
    refine Recency.push (h.recent.sublist ?_) (List.nodup_cons.1 hnd).1
    -- the other keys are those of before, less one
    split
    · exact List.Sublist.map _ List.eraseP_sublist
    · split
      · exact (List.dropLast_sublist _).map _
      · exact List.Sublist.refl _
  · rw [hstore, Function.update_of_ne (Ne.symm hk)]
    exact h.named

theorem Inv.cancel (h : l.Inv) (k : Bytes) : (l.cancel k).Inv :=
  h.of_same (.cancel l.cache k) (Nat.le_refl _) (Nat.le_succ _) rfl rfl rfl

theorem Inv.step (h : l.Inv) (a : CacheCall) (l' : Ledger) (hs : l.step a = some l') : l'.Inv := by
  cases a with
  | lookup k t =>
    obtain ⟨b, hb, rfl⟩ := Option.map_eq_some_iff.1 hs
    exact h.lookup hb
  | store k e =>
    cases hs
    exact h.store k e
  | cancel k =>
    cases hs
    exact h.cancel k

theorem step_capacity (h : l.Inv) {a : CacheCall} (hs : l.step a = some l') : l'.cache.capacity = l.cache.capacity := by
  cases a with
  | lookup k t =>
    obtain ⟨b, hb, rfl⟩ := Option.map_eq_some_iff.1 hs
    obtain ⟨-, -, r, c, hc, rfl⟩ := lookup_eq_some hb
    by_cases hk : k = []
    · subst hk
      rw [IdempotencyCache.lookup_nil] at hc
      cases hc
      rfl
    · rcases IdempotencyCache.lookup_cases h.bounded.toWf hk hc with ⟨e, -, -, he⟩ | ⟨-, -, hsame⟩
      · cases he
        rfl
      · exact hsame.capacity
  | store k e =>
    cases hs
    by_cases hk : k = []
    · simp [store, hk]
    · simp only [store, if_neg hk, IdempotencyCache.store_capacity]
  | cancel k =>
    cases hs
    exact (IdempotencyCache.SameEntries.cancel l.cache k).capacity

/-- **What pushes an entry out**: a `Store` of another key, which is not held, that finds the cache full, and the entry
is the one least recently stored or hit. -/
theorem Inv.pushed_out_by (h : l.Inv) (hcap : 1 ≤ l.cache.capacity) {a : CacheCall} (hs : l.step a = some l')
    {v : Bytes} (hbefore : l.pushedOut v = false) (hafter : l'.pushedOut v = true) :
    ∃ k e, a = .store k e ∧ k ≠ v ∧ k ∉ l.cache.index ∧ v ∈ l.cache.index ∧
      l.cache.lruList.length = l.cache.capacity ∧ ∀ u ∈ l.cache.index, u ≠ v → l.lastUse v < l.lastUse u := by
  cases a with
  | lookup k t =>
    obtain ⟨b, hb, rfl⟩ := Option.map_eq_some_iff.1 hs
    obtain ⟨-, -, r, c, -, rfl⟩ := lookup_eq_some hb
    exact absurd (hbefore.symm.trans hafter) (by decide)
  | cancel k =>
    cases hs
    exact absurd (hbefore.symm.trans hafter) (by decide)
  | store k e =>
    cases hs
    by_cases hk : k = []
    · simp only [Ledger.store, if_pos hk] at hafter
      exact absurd (hbefore.symm.trans hafter) (by decide)
    have hv : v ≠ k := by
      rintro rfl
      simp [Ledger.store, hk] at hafter
    rcases (h.store_pushedOut hk e hv).1 hafter with hc | ⟨hin, hp⟩
    · rw [hbefore] at hc
      cases hc
    simp only [IdempotencyCache.pushesOut, decide_eq_true_eq] at hp
    obtain ⟨-, -, hout, hfull, hlast⟩ := hp
    have hsize := h.bounded.size
    refine ⟨k, e, rfl, Ne.symm hv, hout, hin, by omega, ?_⟩
    intro u hu hne
    obtain ⟨ks, hks⟩ := List.getLast?_eq_some_iff.1 hlast
    have hmem := (h.bounded.mem_index_iff_keys u).1 hu
    have hrec := h.recent
    rw [hks] at hmem hrec
    rcases List.mem_append.1 hmem with hm | hm
    · exact hrec.last_least hm
    · exact absurd (List.mem_singleton.1 hm) hne

end Ledger
end Control
end Osw
