import Mathlib.Data.List.Chain
import Mathlib.Data.List.Pairwise
import OpenSwitch.Basic
/-!
# Ring — the event ring of a tier (`ring.cc`), and its history

A bounded queue that evicts its oldest entry when a push finds it full, and from which a reconnecting client's missed
entries are read back.  A `Lane` is a ring with the history of what was pushed to it and of what left it, in order:
both an eviction and a pop take the front, so what left and what is held are together what was pushed
(`Lane.Kept`).
-/
namespace Osw
namespace Events

/-- `RingEntry`; `envelopeBytes` is `none` for a null `shared_ptr`. -/
structure RingEntry where
  seq           : Nat
  envelopeBytes : Option Bytes
  deriving DecidableEq, Repr

/-- The members of `Ring`. -/
structure Ring where
  capacity         : Nat
  q                : List RingEntry
  maxSeqEverPushed : Nat
  closed           : Bool
  capacity_pos     : 0 < capacity
  size_le          : q.length ≤ capacity

/-- `Ring::ReplaySnapshot`. -/
structure ReplaySnapshot where
  foundInWindow : Bool
  entries       : List RingEntry
  currentMinSeq : Nat
  currentMaxSeq : Nat
  deriving DecidableEq, Repr

namespace Ring

/-- `Ring::Ring`: a capacity of 0 is a capacity of 1. -/
def make (capacity : Nat) : Ring where
  capacity := if capacity = 0 then 1 else capacity
  q := []
  maxSeqEverPushed := 0
  closed := false
  capacity_pos := by split <;> omega
  size_le := Nat.zero_le _

/-- The entry a push evicts: the oldest one of a full ring. -/
def evictee (r : Ring) : Option RingEntry := if r.capacity ≤ r.q.length then r.q.head? else none

def push (r : Ring) (e : RingEntry) : Ring where
  capacity := r.capacity
  q := (if r.capacity ≤ r.q.length then r.q.tail else r.q) ++ [e]
  maxSeqEverPushed := if r.maxSeqEverPushed < e.seq then e.seq else r.maxSeqEverPushed
  closed := r.closed
  capacity_pos := r.capacity_pos
  size_le := by
    have h1 := r.size_le
    have h2 := r.capacity_pos
    split <;> simp only [List.length_append, List.length_tail, List.length_cons, List.length_nil] <;> omega

/-- `WaitAndPopBatch` once it is past its wait: at most `maxBatch` entries from the front. -/
def popBatch (r : Ring) (maxBatch : Nat) : List RingEntry × Ring :=
  (r.q.take maxBatch, { r with
    q := r.q.drop maxBatch
    size_le := by
      have h := r.size_le
      rw [List.length_drop]
      omega })

def close (r : Ring) : Ring := { r with closed := true }

/-- `SnapshotFromSeq`.  `since_seq + 1` is computed in 64 bits. -/
def snapshotFromSeq (r : Ring) (sinceSeq : Nat) : ReplaySnapshot :=
  match r.q with
  | [] =>
    if r.maxSeqEverPushed = 0 ∨ r.maxSeqEverPushed ≤ sinceSeq then ⟨true, [], 0, 0⟩
    else ⟨false, [], 0, r.maxSeqEverPushed⟩
  | front :: rest =>
    let back := rest.getLast?.getD front
    if sinceSeq = 0 then ⟨true, [], front.seq, back.seq⟩
    else if (sinceSeq + 1) % 2 ^ 64 < front.seq then ⟨false, [], front.seq, back.seq⟩
    else ⟨true, (front :: rest).filter (fun e => decide (sinceSeq < e.seq)), front.seq, back.seq⟩

theorem snapshotFromSeq_nil {r : Ring} (h : r.q = []) (sinceSeq : Nat) :
    (r.snapshotFromSeq sinceSeq).foundInWindow = true ↔ r.maxSeqEverPushed ≤ sinceSeq := by
  simp only [snapshotFromSeq, h]
  split
  · rename_i hm
    exact ⟨fun _ => by omega, fun _ => rfl⟩
  · rename_i hm
    exact ⟨fun h' => (by cases h'), fun h' => absurd (.inr h') hm⟩

theorem snapshotFromSeq_cons {r : Ring} {front : RingEntry} {rest : List RingEntry} (h : r.q = front :: rest)
    {sinceSeq : Nat} (hs : 0 < sinceSeq) :
    (r.snapshotFromSeq sinceSeq).foundInWindow = true ↔ front.seq ≤ (sinceSeq + 1) % 2 ^ 64 := by
  simp only [snapshotFromSeq, h, if_neg (Nat.ne_of_gt hs)]
  split
  · rename_i hlt
    exact ⟨fun h' => (by cases h'), fun h' => absurd hlt (Nat.not_lt.2 h')⟩
  · rename_i hlt
    exact ⟨fun _ => Nat.not_lt.1 hlt, fun _ => rfl⟩

/-- A snapshot in the window holds exactly the entries of the ring after `since_seq`. -/
theorem snapshotFromSeq_entries {r : Ring} {sinceSeq : Nat} (hs : 0 < sinceSeq)
    (hf : (r.snapshotFromSeq sinceSeq).foundInWindow = true) :
    (r.snapshotFromSeq sinceSeq).entries = r.q.filter (fun e => decide (sinceSeq < e.seq)) := by
  cases hq : r.q with
  | nil =>
    simp only [snapshotFromSeq, hq]
    split <;> rfl
  | cons front rest =>
    have hle := (snapshotFromSeq_cons hq hs).1 hf
    simp only [snapshotFromSeq, hq, if_neg (Nat.ne_of_gt hs), if_neg (Nat.not_lt.2 hle)]

end Ring

/-! ## A ring and its history -/

/-- An entry that left the ring, by an eviction or by a pop. -/
structure Departure where
  entry   : RingEntry
  evicted : Bool
  deriving DecidableEq, Repr

/-- A ring, what was pushed to it and what left it. -/
structure Lane where
  ring   : Ring
  pushed : List RingEntry
  gone   : List Departure

namespace Lane

def make (capacity : Nat) : Lane := ⟨.make capacity, [], []⟩

def push (l : Lane) (e : RingEntry) : Lane :=
  ⟨l.ring.push e, l.pushed ++ [e], l.gone ++ l.ring.evictee.toList.map (⟨·, true⟩)⟩

def popBatch (l : Lane) (maxBatch : Nat) : Lane :=
  ⟨(l.ring.popBatch maxBatch).2, l.pushed, l.gone ++ (l.ring.popBatch maxBatch).1.map (⟨·, false⟩)⟩

def close (l : Lane) : Lane := { l with ring := l.ring.close }

def evicted (l : Lane) : List RingEntry := (l.gone.filter (·.evicted)).map (·.entry)

def popped (l : Lane) : List RingEntry := (l.gone.filter (fun d => !d.evicted)).map (·.entry)

/-- Nothing is lost track of: what left and what is held are what was pushed, and `max_seq_ever_pushed_` is the
greatest of its seqs. -/
structure Kept (l : Lane) : Prop where
  conserved : l.pushed = l.gone.map (·.entry) ++ l.ring.q
  max_ge    : ∀ e ∈ l.pushed, e.seq ≤ l.ring.maxSeqEverPushed
  max_mem   : l.ring.maxSeqEverPushed = 0 ∨ ∃ e ∈ l.pushed, e.seq = l.ring.maxSeqEverPushed

theorem kept_make (capacity : Nat) : (make capacity).Kept := ⟨rfl, nofun, .inl rfl⟩

theorem evictee_append_push (r : Ring) (e : RingEntry) : r.evictee.toList ++ (r.push e).q = r.q ++ [e] := by
  simp only [Ring.evictee, Ring.push]
  by_cases h : r.capacity ≤ r.q.length
  · rw [if_pos h, if_pos h]
    cases hq : r.q with
    | nil =>
      have hpos := r.capacity_pos
      rw [hq, List.length_nil] at h
      omega
    | cons front rest => rfl
  · rw [if_neg h, if_neg h]
    rfl

variable {l : Lane} {e : RingEntry} {s : Nat}

theorem Kept.push (h : l.Kept) (e : RingEntry) : (l.push e).Kept := by
  refine ⟨?_, ?_, ?_⟩
  · have hmap : (l.ring.evictee.toList.map (Departure.mk · true)).map (·.entry) = l.ring.evictee.toList := by
      simp [List.map_map, Function.comp_def]
    simp only [Lane.push, List.map_append, hmap, List.append_assoc, evictee_append_push]
    rw [h.conserved, List.append_assoc]
  · intro x hx
    simp only [Lane.push, List.mem_append, List.mem_singleton] at hx
    simp only [Lane.push, Ring.push]
    rcases hx with hx | rfl
    · have := h.max_ge x hx
      split <;> omega
    · split <;> omega
  · simp only [Lane.push, Ring.push]
    split
    · exact .inr ⟨e, by simp, rfl⟩
    · rcases h.max_mem with h0 | ⟨x, hx, hm⟩
      · exact .inl h0
      · exact .inr ⟨x, by simp [hx], hm⟩

theorem Kept.popBatch (h : l.Kept) (n : Nat) : (l.popBatch n).Kept := by
  refine ⟨?_, h.max_ge, h.max_mem⟩
  simp only [Lane.popBatch, Ring.popBatch, List.map_append, List.map_map, Function.comp_def, List.map_id_fun', id_eq,
    List.append_assoc, List.take_append_drop]
  exact h.conserved

theorem Kept.close (h : l.Kept) : l.close.Kept := ⟨h.conserved, h.max_ge, h.max_mem⟩

@[simp] theorem evicted_push (l : Lane) (e : RingEntry) : (l.push e).evicted = l.evicted ++ l.ring.evictee.toList := by
  simp [evicted, push, List.filter_map, Function.comp_def]

@[simp] theorem popped_push (l : Lane) (e : RingEntry) : (l.push e).popped = l.popped := by
  simp [popped, push, List.filter_map, Function.comp_def]

@[simp] theorem evicted_popBatch (l : Lane) (n : Nat) : (l.popBatch n).evicted = l.evicted := by
  simp [evicted, popBatch, List.filter_map, Function.comp_def]

@[simp] theorem popped_popBatch (l : Lane) (n : Nat) : (l.popBatch n).popped = l.popped ++ l.ring.q.take n := by
  simp [popped, popBatch, Ring.popBatch, List.filter_map, Function.comp_def, -List.map_take]

theorem mem_gone_iff (l : Lane) (e : RingEntry) :
    (∃ d ∈ l.gone, d.entry = e) ↔ e ∈ l.evicted ∨ e ∈ l.popped := by
  simp only [evicted, popped, List.mem_map, List.mem_filter]
  constructor
  · rintro ⟨d, hd, rfl⟩
    cases he : d.evicted
    · exact .inr ⟨d, ⟨hd, by simp [he]⟩, rfl⟩
    · exact .inl ⟨d, ⟨hd, he⟩, rfl⟩
  · rintro (⟨d, ⟨hd, _⟩, rfl⟩ | ⟨d, ⟨hd, _⟩, rfl⟩) <;> exact ⟨d, hd, rfl⟩

/-! ## Entries pushed in seq order -/

/-- The entries entered the ring in increasing contiguous seq order. -/
def InOrder (l : Lane) : Prop := l.pushed.IsChain (fun a b => b.seq = a.seq + 1)

theorem InOrder.pairwise (h : l.InOrder) : l.pushed.Pairwise (fun a b => a.seq < b.seq) := by
  have : IsTrans RingEntry (fun a b => a.seq < b.seq) := ⟨fun _ _ _ => Nat.lt_trans⟩
  exact (h.imp (fun a b hab => by omega)).pairwise

theorem InOrder.push (h : l.InOrder) (he : ∀ last ∈ l.pushed.getLast?, e.seq = last.seq + 1) : (l.push e).InOrder :=
  List.isChain_append.2 ⟨h, List.isChain_singleton e, fun last hl x hx => by cases hx; exact he last hl⟩

theorem Kept.gone_lt_held (h : l.Kept) (ho : l.InOrder) {d : Departure} (hd : d ∈ l.gone) (he : e ∈ l.ring.q) :
    d.entry.seq < e.seq := by
  have hp := ho.pairwise
  rw [h.conserved, List.pairwise_append] at hp
  exact hp.2.2 d.entry (List.mem_map_of_mem hd) e he

/-- **A resume point in the window has nothing after it that left the ring.** -/
theorem Kept.gone_le_of_found (h : l.Kept) (ho : l.InOrder) (hs : 0 < s)
    (hf : (l.ring.snapshotFromSeq s).foundInWindow = true) {d : Departure} (hd : d ∈ l.gone) : d.entry.seq ≤ s := by
  cases hq : l.ring.q with
  | nil =>
    have hmax := (Ring.snapshotFromSeq_nil hq s).1 hf
    have hle := h.max_ge d.entry (by rw [h.conserved]; exact List.mem_append_left _ (List.mem_map_of_mem hd))
    omega
  | cons front rest =>
    have hfront := (Ring.snapshotFromSeq_cons hq hs).1 hf
    have hlt := h.gone_lt_held ho hd (e := front) (by rw [hq]; exact List.mem_cons_self)
    have hmod := Nat.mod_le (s + 1) (2 ^ 64)
    omega

/-- A resume point that was pushed, with nothing after it gone, is in the window: the front of the ring is the entry
after the last one that left. -/
theorem Kept.found_of_gone_le (h : l.Kept) (ho : l.InOrder) (hs : 0 < s) (h64 : s + 1 < 2 ^ 64)
    (hpush : ∃ e ∈ l.pushed, e.seq = s) (hgone : ∀ d ∈ l.gone, d.entry.seq ≤ s) :
    (l.ring.snapshotFromSeq s).foundInWindow = true := by
  cases hq : l.ring.q with
  | nil =>
    rw [Ring.snapshotFromSeq_nil hq]
    rcases h.max_mem with h0 | ⟨e, he, hm⟩
    · omega
    · rw [h.conserved, hq, List.append_nil] at he
      obtain ⟨d, hd, rfl⟩ := List.mem_map.1 he
      have := hgone d hd
      omega
  | cons front rest =>
    rw [Ring.snapshotFromSeq_cons hq hs, Nat.mod_eq_of_lt h64]
    rcases List.eq_nil_or_concat l.gone with hg | ⟨g, d, hg⟩
    · obtain ⟨e, he, rfl⟩ := hpush
      have hp := ho.pairwise
      have hc := h.conserved
      rw [hg, hq, List.map_nil, List.nil_append] at hc
      rw [hc] at hp he
      rcases List.mem_cons.1 he with rfl | he
      · omega
      · have := List.rel_of_pairwise_cons hp he
        omega
    · have hc := ho
      rw [InOrder, h.conserved, hq, hg, List.concat_eq_append, List.map_append, List.append_assoc] at hc
      have hnext : front.seq = d.entry.seq + 1 := (List.isChain_append.1 hc).2.1.rel
      have := hgone d (by rw [hg]; simp)
      omega

/-! ## How far back an eviction reaches -/

/-- After an eviction at least a ring full of entries has been pushed. -/
def Spaced (l : Lane) : Prop :=
  ∀ g e g', l.gone = g ++ ⟨e, true⟩ :: g' → l.ring.capacity ≤ g'.length + l.ring.q.length

theorem spaced_make (capacity : Nat) : (make capacity).Spaced := by
  intro g e g' hg
  simp [make] at hg

theorem Spaced.push (h : l.Spaced) (x : RingEntry) : (l.push x).Spaced := by
  intro g e g' hg
  by_cases hfull : l.ring.capacity ≤ l.ring.q.length
  · -- an evicting push leaves a full ring
    have hpos := l.ring.capacity_pos
    simp only [Lane.push, Ring.push, if_pos hfull, List.length_append, List.length_tail, List.length_singleton]
    omega
  · simp only [Lane.push, Ring.evictee, if_neg hfull, Option.toList_none, List.map_nil, List.append_nil] at hg
    have := h g e g' hg
    simp only [Lane.push, Ring.push, if_neg hfull, List.length_append, List.length_singleton]
    omega

theorem Spaced.popBatch (h : l.Spaced) (n : Nat) : (l.popBatch n).Spaced := by
  intro g e g' hg
  simp only [Lane.popBatch, Ring.popBatch] at hg ⊢
  have hpop : ∀ d ∈ (l.ring.q.take n).map (Departure.mk · false), d.evicted = false := by
    intro d hd
    obtain ⟨x, _, rfl⟩ := List.mem_map.1 hd
    rfl
  -- the evicted entry left before the batch did
  rcases List.append_eq_append_iff.1 hg with ⟨a, _, ha⟩ | ⟨c, hc, hc'⟩
  · exact absurd (hpop ⟨e, true⟩ (by rw [ha]; simp)) (by simp)
  · cases c with
    | nil =>
      rw [List.nil_append] at hc'
      exact absurd (hpop ⟨e, true⟩ (by rw [← hc']; simp)) (by simp)
    | cons d c =>
      simp only [List.cons_append, List.cons.injEq] at hc'
      obtain ⟨rfl, rfl⟩ := hc'
      have hcap := h g e c hc
      simp only [List.length_append, List.length_map, List.length_take, List.length_drop]
      omega

theorem Kept.window_of_evicted (h : l.Kept) (ho : l.InOrder) (hsp : l.Spaced) (he : e ∈ l.evicted) (hs : s < e.seq) :
    l.ring.capacity < (l.pushed.filter (fun e => decide (s < e.seq))).length := by
  obtain ⟨⟨_, ev⟩, hd, rfl⟩ := List.mem_map.1 he
  obtain ⟨hd, hev⟩ := List.mem_filter.1 hd
  cases hev
  obtain ⟨g, g', hg⟩ := List.append_of_mem hd
  have hcap := hsp g _ g' hg
  have hp := ho.pairwise
  rw [h.conserved, hg, List.map_append, List.append_assoc] at hp ⊢
  have hnew := List.pairwise_cons.1 (List.pairwise_append.1 hp).2.1
  have hall : (g'.map (·.entry) ++ l.ring.q).filter (fun e => decide (s < e.seq)) = g'.map (·.entry) ++ l.ring.q :=
    List.filter_eq_self.2 (fun x hx => decide_eq_true (Nat.lt_trans hs (hnew.1 x hx)))
  rw [List.filter_append, List.length_append, List.map_cons, List.cons_append, List.filter_cons,
    if_pos (decide_eq_true hs), hall, List.length_cons, List.length_append, List.length_map]
  omega

end Lane
end Events
end Osw
