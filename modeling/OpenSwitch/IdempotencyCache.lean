import Mathlib.Data.List.AList
import OpenSwitch.Basic
/-!
# IdempotencyCache — the request cache of the control API (`idempotency_cache.cc`)

An LRU list of finished calls, an index of its keys and a table of reservations, all under one mutex.  Each definition
below is one critical section: `LookupOrReserve` gives the mutex back while it waits, so it is two of them,
`lookupOrReserve` up to the wait and `resume` from the wake-up on.  The steady clock is read more than once in a
section; each reading is an argument.
-/
namespace Osw
namespace Control

/-- `IdempotencyCache::Entry`: the response of a finished call. -/
structure Entry where
  status             : Status
  serializedResponse : Bytes
  expiresAt          : Nat
  deriving DecidableEq, Repr

/-- The entry of a result that carries none. -/
def Entry.empty : Entry := ⟨Status.okay, [], 0⟩

/-- `IdempotencyCache::State`.  `kInFlight` is declared and never answered. -/
inductive LookupState
  | hit
  | miss
  | inFlight
  deriving DecidableEq, Repr

structure LookupResult where
  state : LookupState
  entry : Entry
  deriving DecidableEq, Repr

/-- The members of the cache.  `index` holds the keys `index_` maps to their node of `lru_list_`, whose front is the
entry stored or hit last; `inFlight` maps a reserved key to its deadline. -/
structure IdempotencyCache where
  capacity        : Nat
  ttl             : Nat
  inFlightMaxWait : Nat
  index           : List Bytes
  lruList         : List (Bytes × Entry)
  inFlight        : AList (fun _ : Bytes => Nat)

namespace IdempotencyCache

def empty (capacity ttl inFlightMaxWait : Nat) : IdempotencyCache :=
  ⟨capacity, ttl, inFlightMaxWait, [], [], ∅⟩

/-- `index_.find` and the node it leads to. -/
def find (c : IdempotencyCache) (k : Bytes) : Option Entry :=
  if k ∈ c.index then (c.lruList.find? (fun n => n.1 == k)).map Prod.snd else none

/-- `Erase`, of the node of a key. -/
def erase (c : IdempotencyCache) (k : Bytes) : IdempotencyCache :=
  { c with index := c.index.erase k, lruList := c.lruList.eraseP (fun n => n.1 == k) }

/-- `lru_list_.splice(begin, …)`: the node of a key moves to the front. -/
def promote (c : IdempotencyCache) (k : Bytes) : IdempotencyCache :=
  { c with lruList := c.lruList.filter (fun n => n.1 == k) ++ c.lruList.filter (fun n => n.1 != k) }

/-- `in_flight_.emplace(key, t + in_flight_max_wait_)`, after the old reservation of the key, if any, was erased. -/
def reserve (c : IdempotencyCache) (k : Bytes) (t : Nat) : IdempotencyCache :=
  { c with inFlight := c.inFlight.insert k (t + c.inFlightMaxWait) }

/-- How the first critical section of `LookupOrReserve` ends. -/
inductive LookupStep
  | answered (r : LookupResult) (c : IdempotencyCache)
  | blocked (deadline : Nat) (c : IdempotencyCache)

/-- The in-flight half of the first critical section. -/
def reserveOrWait (c : IdempotencyCache) (k : Bytes) (now later : Nat) : LookupStep :=
  match c.inFlight.lookup k with
  | some d =>
    if d ≤ now then .answered ⟨.miss, .empty⟩ (c.reserve k now)
    else .blocked (min (later + c.inFlightMaxWait) d) c
  | none => .answered ⟨.miss, .empty⟩ (c.reserve k now)

/-- `LookupOrReserve` up to its wait; `now` and `later` are its two clock readings. -/
def lookupOrReserve (c : IdempotencyCache) (k : Bytes) (now later : Nat) : LookupStep :=
  if k = [] then .answered ⟨.miss, .empty⟩ c
  else
    match c.find k with
    | some stored =>
      if stored.expiresAt ≤ now then (c.erase k).reserveOrWait k now later
      else .answered ⟨.hit, stored⟩ (c.promote k)
    | none => c.reserveOrWait k now later

/-- The clock readings of a `LookupOrReserve` that comes out of its wait: in the wake condition, against the entry,
against the reservation, and for a fresh deadline. -/
structure Readings where
  wake  : Nat
  now2  : Nat
  after : Nat
  fresh : Nat
  deriving DecidableEq, Repr

/-- The wake condition of `cv_.wait_until`. -/
def wakeCondition (c : IdempotencyCache) (k : Bytes) (t : Nat) : Bool :=
  !(match c.inFlight.lookup k with
    | some d => decide (t < d)
    | none   => false) || decide (k ∈ c.index)

/-- The last block of `LookupOrReserve`: an expired reservation is replaced by a fresh one, an absent one stays absent. -/
def afterWait (c : IdempotencyCache) (k : Bytes) (r : Readings) : IdempotencyCache :=
  match c.inFlight.lookup k with
  | some d => if d ≤ r.after then c.reserve k r.fresh else c
  | none   => c

/-- `LookupOrReserve` from its wake-up on; `none` when neither the wake condition nor the deadline lets it go on. -/
def resume (c : IdempotencyCache) (k : Bytes) (deadline : Nat) (r : Readings) :
    Option (LookupResult × IdempotencyCache) :=
  if c.wakeCondition k r.wake then
    match c.find k with
    | some stored =>
      if r.now2 < stored.expiresAt then some (⟨.hit, stored⟩, c.promote k)
      else some (⟨.miss, .empty⟩, (c.erase k).afterWait k r)
    | none => some (⟨.miss, .empty⟩, c.afterWait k r)
  else if deadline ≤ r.wake then some (⟨.miss, .empty⟩, c.afterWait k r)
  else none

/-- `Erase(std::prev(lru_list_.end()))`. -/
def eraseLast (c : IdempotencyCache) : IdempotencyCache :=
  match c.lruList.getLast? with
  | none   => c
  | some n => { c with index := c.index.erase n.1, lruList := c.lruList.dropLast }

/-- The loop of `EvictIfNeeded`, once round per node at most. -/
def evictLoop : Nat → IdempotencyCache → IdempotencyCache
  | 0, c => c
  | n + 1, c => if c.capacity ≤ c.lruList.length then evictLoop n c.eraseLast else c

def evictIfNeeded (c : IdempotencyCache) : IdempotencyCache := evictLoop c.lruList.length c

/-- `Store`: the key's old entry goes, room is made, the entry goes to the front and the reservation is released. -/
def store (c : IdempotencyCache) (k : Bytes) (e : Entry) : IdempotencyCache :=
  if k = [] then c
  else
    let c := (if k ∈ c.index then c.erase k else c).evictIfNeeded
    { c with lruList := (k, e) :: c.lruList, index := c.index.insert k, inFlight := c.inFlight.erase k }

/-- `Cancel`: the reservation is released. -/
def cancel (c : IdempotencyCache) (k : Bytes) : IdempotencyCache :=
  if k = [] then c else { c with inFlight := c.inFlight.erase k }

/-! ## The index and the list -/

/-- **`index_` and `lru_list_` hold the same keys, once each.** -/
structure Wf (c : IdempotencyCache) : Prop where
  perm  : c.index.Perm (c.lruList.map Prod.fst)
  nodup : (c.lruList.map Prod.fst).Nodup

variable {c : IdempotencyCache} {k : Bytes}

theorem Wf.mem_index (h : c.Wf) (k : Bytes) : k ∈ c.index ↔ ∃ e, (k, e) ∈ c.lruList := by
  rw [h.perm.mem_iff, List.mem_map]
  constructor
  · rintro ⟨⟨k', e⟩, hm, rfl⟩
    exact ⟨e, hm⟩
  · rintro ⟨e, hm⟩
    exact ⟨(k, e), hm, rfl⟩

theorem Wf.empty (capacity ttl wait : Nat) : (empty capacity ttl wait).Wf := ⟨.nil, .nil⟩

theorem Wf.of_eq {c' : IdempotencyCache} (h : c.Wf) (hi : c'.index = c.index) (hl : c'.lruList = c.lruList) :
    c'.Wf := ⟨by rw [hi, hl]; exact h.perm, by rw [hl]; exact h.nodup⟩

theorem Wf.find_of_mem (h : c.Wf) (hk : k ∈ c.index) : ∃ e, c.find k = some e ∧ (k, e) ∈ c.lruList := by
  obtain ⟨e, he⟩ := (h.mem_index k).1 hk
  cases hf : c.lruList.find? (fun n => n.1 == k) with
  | none => exact absurd (List.find?_eq_none.1 hf (k, e) he) (by simp)
  | some n =>
    have hn : n.1 = k := by simpa using List.find?_some hf
    refine ⟨n.2, by simp [find, hk, hf], ?_⟩
    rw [← hn]
    exact List.mem_of_find?_eq_some hf

theorem find_mem {e : Entry} (h : c.find k = some e) : k ∈ c.index ∧ (k, e) ∈ c.lruList := by
  unfold find at h
  split at h
  · rename_i hk
    obtain ⟨n, hn, rfl⟩ := Option.map_eq_some_iff.1 h
    have hn1 : n.1 = k := by simpa using List.find?_some hn
    refine ⟨hk, ?_⟩
    rw [← hn1]
    exact List.mem_of_find?_eq_some hn
  · cases h

theorem map_fst_eraseP (l : List (Bytes × Entry)) (k : Bytes) :
    (l.eraseP (fun n => n.1 == k)).map Prod.fst = (l.map Prod.fst).erase k := by
  rw [List.erase_eq_eraseP', List.eraseP_map]
  rfl

theorem Wf.erase (h : c.Wf) (k : Bytes) : (c.erase k).Wf := by
  refine ⟨?_, ?_⟩
  · show (c.index.erase k).Perm _
    rw [show (c.erase k).lruList = c.lruList.eraseP (fun n => n.1 == k) from rfl, map_fst_eraseP]
    exact h.perm.erase k
  · show ((c.lruList.eraseP (fun n => n.1 == k)).map Prod.fst).Nodup
    rw [map_fst_eraseP]
    exact h.nodup.erase k

theorem promote_perm (c : IdempotencyCache) (k : Bytes) : (c.promote k).lruList.Perm c.lruList :=
  List.filter_append_perm (fun n : Bytes × Entry => n.1 == k) c.lruList

theorem Wf.promote (h : c.Wf) (k : Bytes) : (c.promote k).Wf :=
  have hp := (promote_perm c k).map Prod.fst
  ⟨h.perm.trans hp.symm, hp.symm.nodup h.nodup⟩

theorem Wf.eraseLast (h : c.Wf) : c.eraseLast.Wf := by
  unfold IdempotencyCache.eraseLast
  split
  · exact h
  · rename_i n hn
    obtain ⟨l, hl⟩ := List.getLast?_eq_some_iff.1 hn
    have hperm := h.perm
    have hnd := h.nodup
    rw [hl, List.map_append, List.map_cons, List.map_nil] at hperm hnd
    have hout : n.1 ∉ l.map Prod.fst := fun hm => List.disjoint_of_nodup_append hnd hm (by simp)
    refine ⟨?_, ?_⟩
    · show (c.index.erase n.1).Perm (c.lruList.dropLast.map Prod.fst)
      have hp := hperm.erase n.1
      rw [List.erase_append_right _ hout] at hp
      simpa [hl] using hp
    · show (c.lruList.dropLast.map Prod.fst).Nodup
      rw [hl, List.dropLast_concat]
      exact hnd.of_append_left

theorem eraseLast_index_subset (c : IdempotencyCache) : c.eraseLast.index ⊆ c.index := by
  unfold eraseLast
  split
  · exact fun _ h => h
  · exact List.erase_subset

theorem evictLoop_index_subset : ∀ (n : Nat) (c : IdempotencyCache), (evictLoop n c).index ⊆ c.index
  | 0, _ => fun _ h => h
  | n + 1, c => by
    unfold evictLoop
    split
    · exact List.Subset.trans (evictLoop_index_subset n _) (eraseLast_index_subset c)
    · exact fun _ h => h

theorem Wf.evictLoop : ∀ {c : IdempotencyCache}, c.Wf → ∀ (n : Nat), (IdempotencyCache.evictLoop n c).Wf
  | _, h, 0 => h
  | c, h, n + 1 => by
    unfold IdempotencyCache.evictLoop
    split
    · exact h.eraseLast.evictLoop n
    · exact h

theorem Wf.store (h : c.Wf) (k : Bytes) (e : Entry) : (c.store k e).Wf := by
  unfold IdempotencyCache.store
  split
  · exact h
  have hev : ((if k ∈ c.index then c.erase k else c).evictIfNeeded).Wf ∧
      k ∉ ((if k ∈ c.index then c.erase k else c).evictIfNeeded).index := by
    split
    · rename_i hk
      refine ⟨(h.erase k).evictLoop _, fun hm => ?_⟩
      exact ((h.perm.nodup_iff.2 h.nodup).mem_erase_iff.1 (evictLoop_index_subset _ _ hm)).1 rfl
    · rename_i hk
      exact ⟨h.evictLoop _, fun hm => hk (evictLoop_index_subset _ _ hm)⟩
  obtain ⟨hwf, hk⟩ := hev
  refine ⟨?_, ?_⟩
  · show (List.insert k _).Perm (k :: _)
    rw [List.insert_of_not_mem hk]
    exact hwf.perm.cons k
  · show (k :: _).Nodup
    exact List.nodup_cons.2 ⟨fun hm => hk (hwf.perm.mem_iff.2 hm), hwf.nodup⟩

/-! ## The reservations -/

@[simp] theorem erase_inFlight (c : IdempotencyCache) (k : Bytes) : (c.erase k).inFlight = c.inFlight := rfl

@[simp] theorem reserve_inFlight (c : IdempotencyCache) (k : Bytes) (t : Nat) :
    (c.reserve k t).inFlight = c.inFlight.insert k (t + c.inFlightMaxWait) := rfl

@[simp] theorem eraseLast_inFlight (c : IdempotencyCache) : c.eraseLast.inFlight = c.inFlight := by
  unfold eraseLast
  split <;> rfl

@[simp] theorem evictLoop_inFlight : ∀ (n : Nat) (c : IdempotencyCache), (evictLoop n c).inFlight = c.inFlight
  | 0, _ => rfl
  | n + 1, c => by
    unfold evictLoop
    split
    · rw [evictLoop_inFlight n, eraseLast_inFlight]
    · rfl

theorem store_inFlight (c : IdempotencyCache) (hk : k ≠ []) (e : Entry) :
    (c.store k e).inFlight = c.inFlight.erase k := by
  rw [store, if_neg hk]
  show AList.erase k (evictLoop _ _).inFlight = _
  rw [evictLoop_inFlight]
  split <;> rfl

theorem cancel_inFlight (c : IdempotencyCache) (hk : k ≠ []) : (c.cancel k).inFlight = c.inFlight.erase k := by
  rw [cancel, if_neg hk]

/-- What the in-flight half of a lookup answers: a miss with a fresh reservation when the key has none or an expired
one, and a wait otherwise. -/
theorem reserveOrWait_cases (c : IdempotencyCache) (k : Bytes) (now later : Nat) :
    (c.reserveOrWait k now later = .answered ⟨.miss, .empty⟩ (c.reserve k now) ∧
      ∀ d, c.inFlight.lookup k = some d → d ≤ now) ∨
    ∃ d, c.inFlight.lookup k = some d ∧ now < d ∧
      c.reserveOrWait k now later = .blocked (min (later + c.inFlightMaxWait) d) c := by
  unfold reserveOrWait
  cases hd : c.inFlight.lookup k with
  | none => exact .inl ⟨rfl, nofun⟩
  | some d =>
    by_cases hle : d ≤ now
    · exact .inl ⟨by simp [hle], fun d' h => by cases h; exact hle⟩
    · exact .inr ⟨d, rfl, by omega, by simp [hle]⟩

end IdempotencyCache

/-- `MakeIdempotencyKey`: the three parts separated by `0x1f`, or nothing without a request id. -/
def makeIdempotencyKey (method tenantId requestId : Bytes) : Bytes :=
  if requestId = [] then [] else method ++ [0x1f] ++ tenantId ++ [0x1f] ++ requestId

end Control
end Osw
