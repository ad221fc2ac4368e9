import Mathlib.Data.List.Range
import OpenSwitch.Ring
/-!
# RingRuns — a ring under any sequence of calls (`ring.cc`)

Pushes, pops and batch pops in any order, each under the ring's mutex.  A push that finds the ring full takes out the
oldest entry and counts it; nothing else is lost (`ring_conserves`).  When the entries come numbered from 1, how many
left is the seq of the last one that did, so `SnapshotFromSeq` can answer from the front of the ring alone
(`snapshot_exact_iff`); it does so for every `since_seq` but the greatest, whose successor is 0.
-/
namespace Osw
namespace Events

/-- `Ring::TryPop`. -/
def Ring.tryPop (r : Ring) : Option RingEntry × Ring :=
  match hq : r.q with
  | [] => (none, r)
  | e :: rest => (some e, { r with
    q := rest
    size_le := by
      have h := r.size_le
      rw [hq, List.length_cons] at h
      omega })

theorem Ring.tryPop_eq (r : Ring) : r.tryPop = ((r.popBatch 1).1.head?, (r.popBatch 1).2) := by
  obtain ⟨capacity, q, maxSeq, closed, hpos, hle⟩ := r
  cases q <;> rfl

/-- The calls that push and pop.  A `WaitAndPopBatch` is taken at the end of its wait. -/
inductive RingCall
  | push (e : RingEntry)
  | tryPop
  | waitAndPopBatch (maxBatch : Nat)
  deriving DecidableEq, Repr

namespace RingCall

/-- The entry a call pushes. -/
def pushes : RingCall → Option RingEntry
  | .push e => some e
  | _       => none

end RingCall

/-- A ring with its history, and the counter `dropped_out` points to, exact below `2 ^ 64`. -/
structure RingTrace where
  lane    : Lane
  dropped : Nat

namespace RingTrace

def make (capacity : Nat) : RingTrace := ⟨.make capacity, 0⟩

def step (s : RingTrace) : RingCall → RingTrace
  | .push e => ⟨s.lane.push e, if s.lane.ring.capacity ≤ s.lane.ring.q.length then s.dropped + 1 else s.dropped⟩
  | .tryPop =>
    let r := s.lane.ring.tryPop
    { s with lane := ⟨r.2, s.lane.pushed, s.lane.gone ++ r.1.toList.map (⟨·, false⟩)⟩ }
  | .waitAndPopBatch n => { s with lane := s.lane.popBatch n }

/-- The ring after the calls. -/
def after (capacity : Nat) (calls : List RingCall) : RingTrace := calls.foldl step (make capacity)

theorem after_concat (capacity : Nat) (calls : List RingCall) (c : RingCall) :
    after capacity (calls ++ [c]) = (after capacity calls).step c := by
  rw [after, List.foldl_append]
  rfl

theorem step_tryPop (s : RingTrace) : s.step .tryPop = { s with lane := s.lane.popBatch 1 } := by
  have hone : (s.lane.ring.q.take 1).head?.toList = s.lane.ring.q.take 1 := by cases s.lane.ring.q <;> rfl
  simp only [step, Ring.tryPop_eq, Lane.popBatch, Ring.popBatch]
  rw [hone]

theorem step_cases (s : RingTrace) (c : RingCall) :
    (∃ e, c = .push e ∧ (s.step c).lane = s.lane.push e ∧
      (s.step c).dropped = s.dropped + s.lane.ring.evictee.toList.length) ∨
    (∃ n, c.pushes = none ∧ (s.step c).lane = s.lane.popBatch n ∧ (s.step c).dropped = s.dropped) := by
  cases c with
  | push e =>
    refine .inl ⟨e, rfl, rfl, ?_⟩
    have hpos := s.lane.ring.capacity_pos
    simp only [step, Ring.evictee]
    split
    · rename_i hfull
      cases hq : s.lane.ring.q with
      | nil => rw [hq, List.length_nil] at hfull; omega
      | cons front rest => rfl
    · rfl
  | tryPop => exact .inr ⟨1, rfl, by rw [step_tryPop], by rw [step_tryPop]⟩
  | waitAndPopBatch n => exact .inr ⟨n, rfl, rfl, rfl⟩

theorem step_capacity (s : RingTrace) (c : RingCall) : (s.step c).lane.ring.capacity = s.lane.ring.capacity := by
  obtain ⟨e, -, hl, -⟩ | ⟨n, -, hl, -⟩ := step_cases s c <;> rw [hl] <;> rfl

theorem step_pushed (s : RingTrace) (c : RingCall) : (s.step c).lane.pushed = s.lane.pushed ++ c.pushes.toList := by
  obtain ⟨e, rfl, hl, -⟩ | ⟨n, hc, hl, -⟩ := step_cases s c <;> rw [hl]
  · rfl
  · rw [hc, Option.toList_none, List.append_nil]
    rfl

/-- A call takes out at most one entry without returning it: the oldest, when it is a push and the ring is full. -/
theorem step_evicted (s : RingTrace) (c : RingCall) :
    (s.step c).lane.evicted = s.lane.evicted ∨
    ∃ x e, c = .push x ∧ s.lane.ring.capacity ≤ s.lane.ring.q.length ∧ s.lane.ring.q.head? = some e ∧
      (s.step c).lane.evicted = s.lane.evicted ++ [e] := by
  obtain ⟨x, rfl, hl, -⟩ | ⟨n, -, hl, -⟩ := step_cases s c <;> rw [hl]
  · rw [Lane.evicted_push]
    unfold Ring.evictee
    split
    · rename_i hfull
      cases hq : s.lane.ring.q.head? with
      | none => exact .inl (by rw [Option.toList_none, List.append_nil])
      | some e => exact .inr ⟨x, e, rfl, hfull, rfl, rfl⟩
    · exact .inl (by rw [Option.toList_none, List.append_nil])
  · exact .inl (Lane.evicted_popBatch _ n)

/-- What holds of a ring after any calls. -/
structure Sound (s : RingTrace) : Prop where
  kept    : s.lane.Kept
  counted : s.dropped = s.lane.evicted.length

theorem Sound.step {s : RingTrace} (h : s.Sound) (c : RingCall) : (s.step c).Sound := by
  obtain ⟨e, rfl, hl, hd⟩ | ⟨n, -, hl, hd⟩ := step_cases s c
  · refine ⟨?_, ?_⟩
    · rw [hl]; exact h.kept.push e
    · rw [hl, hd, Lane.evicted_push, List.length_append, h.counted]
  · refine ⟨?_, ?_⟩
    · rw [hl]; exact h.kept.popBatch n
    · rw [hl, hd, Lane.evicted_popBatch, h.counted]

theorem sound_after (capacity : Nat) (calls : List RingCall) : (after capacity calls).Sound := by
  induction calls using List.reverseRecOn with
  | nil => exact ⟨Lane.kept_make capacity, rfl⟩
  | append_singleton calls c ih =>
    rw [after_concat]
    exact ih.step c

theorem capacity_after (capacity : Nat) (calls : List RingCall) :
    (after capacity calls).lane.ring.capacity = if capacity = 0 then 1 else capacity := by
  induction calls using List.reverseRecOn with
  | nil => rfl
  | append_singleton calls c ih => rw [after_concat, step_capacity, ih]

theorem pushed_after (capacity : Nat) (calls : List RingCall) :
    (after capacity calls).lane.pushed = calls.filterMap RingCall.pushes := by
  induction calls using List.reverseRecOn with
  | nil => rfl
  | append_singleton calls c ih =>
    rw [after_concat, step_pushed, ih, List.filterMap_append]
    cases c <;> rfl

/-- The entry removed as number `i` was the front of a full ring when a push came. -/
theorem evicted_after (capacity : Nat) (calls : List RingCall) {i : Nat} {e : RingEntry}
    (he : (after capacity calls).lane.evicted[i]? = some e) :
    ∃ before x later, calls = before ++ .push x :: later ∧ (after capacity before).lane.evicted.length = i ∧
      (after capacity before).lane.ring.capacity ≤ (after capacity before).lane.ring.q.length ∧
      (after capacity before).lane.ring.q.head? = some e := by
  induction calls using List.reverseRecOn with
  | nil => cases he
  | append_singleton calls c ih =>
    -- the removals of the calls before the last one are still at their places
    have hold : (after capacity calls).lane.evicted[i]? = some e →
        ∃ before x later, calls ++ [c] = before ++ .push x :: later ∧ (after capacity before).lane.evicted.length = i ∧
          (after capacity before).lane.ring.capacity ≤ (after capacity before).lane.ring.q.length ∧
          (after capacity before).lane.ring.q.head? = some e := by
      intro h
      obtain ⟨before, x, later, rfl, hrest⟩ := ih h
      exact ⟨before, x, later ++ [c], by rw [List.append_assoc, List.cons_append], hrest⟩
    rw [after_concat] at he
    rcases step_evicted (after capacity calls) c with hsame | ⟨x, e', rfl, hfull, hhead, hnew⟩
    · rw [hsame] at he
      exact hold he
    · rw [hnew] at he
      rcases Nat.lt_trichotomy i (after capacity calls).lane.evicted.length with hlt | rfl | hgt
      · rw [List.getElem?_append_left hlt] at he
        exact hold he
      · rw [List.getElem?_concat_length, Option.some.injEq] at he
        subst he
        exact ⟨calls, x, [], rfl, rfl, hfull, hhead⟩
      · rw [List.getElem?_eq_none (by rw [List.length_append, List.length_singleton]; omega)] at he
        cases he

/-- **A ring conserves its entries**, for every capacity and every sequence of calls: it never holds more than its
capacity; each pushed entry has a mark that says whether it was removed, and what was popped followed by what is held
is the entries without that mark; the entry removed as number `i` was the oldest of a full ring when a push came; and
the drop counter is the number of the removed. -/
theorem ring_conserves (capacity : Nat) (calls : List RingCall) :
    (after capacity calls).lane.ring.q.length ≤ (if capacity = 0 then 1 else capacity) ∧
    (∃ marks : List Departure, marks.map (·.entry) = calls.filterMap RingCall.pushes ∧
      (marks.filter (fun d => !d.evicted)).map (·.entry)
        = (after capacity calls).lane.popped ++ (after capacity calls).lane.ring.q ∧
      (marks.filter (·.evicted)).map (·.entry) = (after capacity calls).lane.evicted) ∧
    (∀ i e, (after capacity calls).lane.evicted[i]? = some e →
      ∃ before x later, calls = before ++ .push x :: later ∧ (after capacity before).lane.evicted.length = i ∧
        (if capacity = 0 then 1 else capacity) ≤ (after capacity before).lane.ring.q.length ∧
        (after capacity before).lane.ring.q.head? = some e) ∧
    (after capacity calls).dropped = (after capacity calls).lane.evicted.length := by
  obtain ⟨hkept, hcount⟩ := sound_after capacity calls
  refine ⟨?_, ?_, ?_, hcount⟩
  · rw [← capacity_after capacity calls]
    exact (after capacity calls).lane.ring.size_le
  · refine ⟨(after capacity calls).lane.gone ++ (after capacity calls).lane.ring.q.map (⟨·, false⟩), ?_, ?_, ?_⟩
    · rw [← pushed_after capacity calls, hkept.conserved]
      simp [List.map_map, Function.comp_def]
    · simp [Lane.popped, List.filter_map, Function.comp_def]
    · simp [Lane.evicted, List.filter_map, Function.comp_def]
  · intro i e he
    obtain ⟨before, x, later, hcalls, hi, hfull, hhead⟩ := evicted_after capacity calls he
    rw [capacity_after] at hfull
    exact ⟨before, x, later, hcalls, hi, hfull, hhead⟩

end RingTrace

/-! ## Entries numbered from 1 -/

namespace Lane

/-- The entries came with the seqs 1, 2, 3 and so on. -/
def Numbered (l : Lane) : Prop := l.pushed.map (·.seq) = List.range' 1 l.pushed.length

theorem Kept.seqs {l : Lane} (h : l.Kept) (hn : l.Numbered) :
    l.gone.map (·.entry.seq) = List.range' 1 l.gone.length ∧
    l.ring.q.map (·.seq) = List.range' (l.gone.length + 1) l.ring.q.length := by
  have hall := hn
  rw [Numbered, h.conserved, List.map_append, List.map_map, List.length_append, List.length_map,
    ← List.range'_append_1, Nat.add_comm 1] at hall
  exact List.append_inj hall (by rw [List.length_map, List.length_range'])

theorem Kept.gone_le_iff {l : Lane} (h : l.Kept) (hn : l.Numbered) (s : Nat) :
    (∀ d ∈ l.gone, d.entry.seq ≤ s) ↔ l.gone.length ≤ s := by
  have hseqs := (h.seqs hn).1
  constructor
  · intro hle
    by_contra hgt
    have hmem : s + 1 ∈ l.gone.map (·.entry.seq) := by
      rw [hseqs, List.mem_range'_1]
      omega
    obtain ⟨d, hd, hds⟩ := List.mem_map.1 hmem
    have := hle d hd
    omega
  · intro hle d hd
    have hmem : d.entry.seq ∈ l.gone.map (·.entry.seq) := List.mem_map_of_mem hd
    rw [hseqs, List.mem_range'_1] at hmem
    omega

theorem Kept.front_seq {l : Lane} (h : l.Kept) (hn : l.Numbered) {front : RingEntry} {rest : List RingEntry}
    (hq : l.ring.q = front :: rest) : front.seq = l.gone.length + 1 := by
  have hseqs := (h.seqs hn).2
  rw [hq, List.map_cons, List.length_cons, List.range'_succ] at hseqs
  exact (List.cons.inj hseqs).1

/-- On an empty ring `max_seq_ever_pushed_` is the seq of the last entry that left. -/
theorem Kept.max_le_iff {l : Lane} (h : l.Kept) (hq : l.ring.q = []) (s : Nat) :
    l.ring.maxSeqEverPushed ≤ s ↔ ∀ d ∈ l.gone, d.entry.seq ≤ s := by
  have hc := h.conserved
  rw [hq, List.append_nil] at hc
  constructor
  · intro hle d hd
    have := h.max_ge d.entry (by rw [hc]; exact List.mem_map_of_mem hd)
    omega
  · intro hle
    rcases h.max_mem with h0 | ⟨e, he, hm⟩
    · omega
    · rw [hc] at he
      obtain ⟨d, hd, rfl⟩ := List.mem_map.1 he
      have := hle d hd
      omega

/-- **The snapshot finds its resume point exactly when nothing after it left**, as long as the point has a
successor in 64 bits. -/
theorem Kept.found_iff_gone_le {l : Lane} (h : l.Kept) (hn : l.Numbered) {s : Nat} (hs : 0 < s)
    (h64 : s + 1 < 2 ^ 64 ∨ l.ring.q = []) :
    (l.ring.snapshotFromSeq s).foundInWindow = true ↔ ∀ d ∈ l.gone, d.entry.seq ≤ s := by
  cases hq : l.ring.q with
  | nil => rw [Ring.snapshotFromSeq_nil hq, h.max_le_iff hq]
  | cons front rest =>
    have hlt : s + 1 < 2 ^ 64 := h64.resolve_right (by rw [hq]; exact List.cons_ne_nil _ _)
    rw [Ring.snapshotFromSeq_cons hq hs, Nat.mod_eq_of_lt hlt, h.front_seq hn hq, h.gone_le_iff hn]
    exact Nat.add_le_add_iff_right

theorem Kept.pushed_after_seq {l : Lane} (h : l.Kept) {s : Nat} (hgone : ∀ d ∈ l.gone, d.entry.seq ≤ s) :
    l.pushed.filter (fun e => decide (s < e.seq)) = l.ring.q.filter (fun e => decide (s < e.seq)) := by
  have hnone : (l.gone.map (·.entry)).filter (fun e => decide (s < e.seq)) = [] := by
    refine List.filter_eq_nil_iff.2 fun e he => ?_
    obtain ⟨d, hd, rfl⟩ := List.mem_map.1 he
    have := hgone d hd
    simp only [decide_eq_true_eq]
    omega
  rw [h.conserved, List.filter_append, hnone, List.nil_append]

end Lane

namespace RingTrace

/-- The snapshot of `since_seq` says what it should: in the window exactly when no entry after it left the ring, and
then with exactly the pushed entries after it. -/
def SnapshotExact (l : Lane) (sinceSeq : Nat) : Prop :=
  ((l.ring.snapshotFromSeq sinceSeq).foundInWindow = true ↔
    ∀ e, e ∈ l.evicted ∨ e ∈ l.popped → e.seq ≤ sinceSeq) ∧
  ((l.ring.snapshotFromSeq sinceSeq).foundInWindow = true →
    (l.ring.snapshotFromSeq sinceSeq).entries = l.pushed.filter (fun e => decide (sinceSeq < e.seq)))

/-- **When the replay snapshot is exact**: for every capacity, every sequence of calls whose entries are numbered from
1 in 64 bits, and every `since_seq` but 0, exactly when `since_seq` is not the greatest 64-bit number or the ring is
empty. -/
theorem snapshot_exact_iff (capacity : Nat) (calls : List RingCall)
    (hseqs : (calls.filterMap RingCall.pushes).map (·.seq)
      = List.range' 1 (calls.filterMap RingCall.pushes).length)
    (hcount : (calls.filterMap RingCall.pushes).length < 2 ^ 64)
    (sinceSeq : Nat) (hpos : 1 ≤ sinceSeq) (hlt : sinceSeq < 2 ^ 64) :
    SnapshotExact (after capacity calls).lane sinceSeq ↔
      sinceSeq ≠ 2 ^ 64 - 1 ∨ (after capacity calls).lane.ring.q = [] := by
  have hkept := (sound_after capacity calls).kept
  rw [← pushed_after capacity calls] at hseqs hcount
  have hn : (after capacity calls).lane.Numbered := hseqs
  have hleft : (∀ e, e ∈ (after capacity calls).lane.evicted ∨ e ∈ (after capacity calls).lane.popped →
      e.seq ≤ sinceSeq) ↔ ∀ d ∈ (after capacity calls).lane.gone, d.entry.seq ≤ sinceSeq := by
    constructor
    · exact fun h d hd => h d.entry ((Lane.mem_gone_iff _ d.entry).1 ⟨d, hd, rfl⟩)
    · intro h e he
      obtain ⟨d, hd, rfl⟩ := (Lane.mem_gone_iff _ e).2 he
      exact h d hd
  rw [SnapshotExact, hleft]
  constructor
  · rintro ⟨hfound, -⟩
    by_contra hbad
    rw [not_or, not_not] at hbad
    obtain ⟨hmax, hq⟩ := hbad
    obtain ⟨front, rest, hq⟩ := List.exists_cons_of_ne_nil hq
    -- nothing has a seq above the greatest, so nothing after it left; but no front is at most its successor, 0
    have hgone : (after capacity calls).lane.gone.length ≤ sinceSeq := by
      have hlen := congrArg List.length hkept.conserved
      rw [List.length_append, List.length_map] at hlen
      omega
    have hf := (Ring.snapshotFromSeq_cons hq hpos).1 (hfound.2 ((hkept.gone_le_iff hn _).2 hgone))
    rw [hkept.front_seq hn hq, hmax] at hf
    omega
  · intro h
    have hfound := hkept.found_iff_gone_le hn hpos (h.imp_left (fun hne => by omega))
    refine ⟨hfound, fun hf => ?_⟩
    rw [Ring.snapshotFromSeq_entries hpos hf, hkept.pushed_after_seq (hfound.1 hf)]

/-- Six entries through a ring of four, of which two were evicted and one popped. -/
def sixCalls : List RingCall :=
  [.push ⟨1, some [1]⟩, .push ⟨2, some [2]⟩, .push ⟨3, some [3]⟩, .push ⟨4, some [4]⟩, .push ⟨5, some [5]⟩,
    .push ⟨6, some [6]⟩, .tryPop]

theorem snapshot_exact_iff_sixCalls :
    (after 4 sixCalls).lane.evicted.map (·.seq) = [1, 2] ∧ (after 4 sixCalls).lane.popped.map (·.seq) = [3] ∧
    (SnapshotExact (after 4 sixCalls).lane 4 ↔ 4 ≠ 2 ^ 64 - 1 ∨ (after 4 sixCalls).lane.ring.q = []) :=
  ⟨by decide +kernel, by decide +kernel,
    snapshot_exact_iff 4 sixCalls (by decide +kernel) (by decide +kernel) 4 (by decide) (by decide)⟩

/-- A client that asks for the greatest `since_seq` is told that its resume point was evicted, by a ring that never
lost an entry. -/
theorem greatest_since_seq_refused :
    ((after 4 [.push ⟨1, some [1]⟩]).lane.ring.snapshotFromSeq (2 ^ 64 - 1)).foundInWindow = false ∧
    (after 4 [.push ⟨1, some [1]⟩]).lane.gone = [] ∧
    ¬ SnapshotExact (after 4 [.push ⟨1, some [1]⟩]).lane (2 ^ 64 - 1) := by
  refine ⟨by decide +kernel, by decide +kernel, fun h => ?_⟩
  have hfound := h.1.2 (by
    rintro e (he | he)
    · cases he
    · cases he)
  exact absurd hfound (by decide +kernel)

end RingTrace
end Events
end Osw
