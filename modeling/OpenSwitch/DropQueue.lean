import Mathlib.Data.List.Basic
/-!
# DropQueue — a bounded first-in-first-out list that drops its oldest element when full

What a ring buffer with `c` cells and a deque cut back to `c` elements are for.  A queue carries its history: what was
offered to it and what left it, each element with whether it was dropped; `kept` says that nothing else ever happens to
an element.
-/
namespace Osw

/-- What was offered is what left, marked when it was dropped, and then what is held. -/
theorem marks_of_kept {α : Type} {offered held : List α} {gone : List (α × Bool)}
    (h : offered = gone.map Prod.fst ++ held) :
    ∃ marks : List (α × Bool), marks.map Prod.fst = offered ∧
      (marks.filter (fun d => !d.2)).map Prod.fst = (gone.filter (fun d => !d.2)).map Prod.fst ++ held ∧
      (marks.filter (·.2)).map Prod.fst = (gone.filter (·.2)).map Prod.fst := by
  refine ⟨gone ++ held.map (·, false), ?_, ?_, ?_⟩
  · rw [List.map_append, List.map_map, h]
    exact congrArg _ (List.map_id _)
  · simp [List.filter_map, Function.comp_def]
  · simp [List.filter_map, Function.comp_def]

/-- A queue of at most `c` elements and its history. -/
@[ext] structure DropQueue (α : Type) (c : Nat) where
  held    : List α
  offered : List α
  gone    : List (α × Bool)
  bounded : held.length ≤ c
  kept    : offered = gone.map Prod.fst ++ held

namespace DropQueue

variable {α : Type} {c : Nat}

def make (α : Type) (c : Nat) : DropQueue α c := ⟨[], [], [], Nat.zero_le _, rfl⟩

/-- How many elements go for a new one. -/
def excess (q : DropQueue α c) : Nat := q.held.length + 1 - c

/-- A new element at the end; the oldest ones go until there are no more than `c`. -/
def offer (q : DropQueue α c) (x : α) : DropQueue α c where
  held := (q.held ++ [x]).drop q.excess
  offered := q.offered ++ [x]
  gone := q.gone ++ ((q.held ++ [x]).take q.excess).map (·, true)
  bounded := by
    rw [List.length_drop, List.length_append, List.length_singleton, excess]
    omega
  kept := by
    rw [List.map_append, List.map_map, show Prod.fst ∘ (fun y : α => (y, true)) = id from rfl, List.map_id,
      List.append_assoc, List.take_append_drop, q.kept, List.append_assoc]

/-- The oldest element is taken out. -/
def take (q : DropQueue α c) : DropQueue α c where
  held := q.held.tail
  offered := q.offered
  gone := q.gone ++ q.held.head?.toList.map (·, false)
  bounded := by
    rw [List.length_tail]
    exact Nat.le_trans (Nat.sub_le _ _) q.bounded
  kept := by
    rw [q.kept, List.map_append, List.append_assoc]
    cases q.held <;> rfl

def taken (q : DropQueue α c) : List α := (q.gone.filter (fun d => !d.2)).map Prod.fst

def drops (q : DropQueue α c) : List α := (q.gone.filter (·.2)).map Prod.fst

/-- **What was taken out and what is held are what was offered without what was dropped**, in order. -/
theorem marks (q : DropQueue α c) :
    ∃ marks : List (α × Bool), marks.map Prod.fst = q.offered ∧
      (marks.filter (fun d => !d.2)).map Prod.fst = q.taken ++ q.held ∧
      (marks.filter (·.2)).map Prod.fst = q.drops :=
  marks_of_kept q.kept

theorem excess_eq (q : DropQueue α c) : q.excess = if q.held.length = c then 1 else 0 := by
  have hle := q.bounded
  unfold excess
  split <;> omega

@[simp] theorem taken_offer (q : DropQueue α c) (x : α) : (q.offer x).taken = q.taken := by
  change ((q.gone ++ ((q.held ++ [x]).take q.excess).map (·, true)).filter (fun d => !d.2)).map Prod.fst = _
  generalize (q.held ++ [x]).take q.excess = l
  simp [taken, List.filter_map, Function.comp_def]

theorem drops_offer (q : DropQueue α c) (x : α) :
    (q.offer x).drops = q.drops ++ (q.held ++ [x]).take q.excess := by
  change ((q.gone ++ ((q.held ++ [x]).take q.excess).map (·, true)).filter (·.2)).map Prod.fst = _
  generalize (q.held ++ [x]).take q.excess = l
  simp [drops, List.filter_map, Function.comp_def]

/-- An offer, from what goes and what stays. -/
theorem offer_of_split {q : DropQueue α c} {x : α} {old rest : List α} (h : old ++ rest = q.held ++ [x])
    (hlen : old.length = q.excess) :
    (q.offer x).held = rest ∧ (q.offer x).gone = q.gone ++ old.map (·, true) ∧ (q.offer x).drops = q.drops ++ old := by
  have hgoes : (q.held ++ [x]).take q.excess = old := by rw [← h, ← hlen, List.take_left]
  have hstays : (q.held ++ [x]).drop q.excess = rest := by rw [← h, ← hlen, List.drop_left]
  refine ⟨hstays, ?_, by rw [drops_offer, hgoes]⟩
  change q.gone ++ ((q.held ++ [x]).take q.excess).map (·, true) = _
  rw [hgoes]

@[simp] theorem taken_take (q : DropQueue α c) : q.take.taken = q.taken ++ q.held.head?.toList := by
  cases h : q.held <;> simp [taken, take, h]

@[simp] theorem drops_take (q : DropQueue α c) : q.take.drops = q.drops := by
  cases h : q.held <;> simp [drops, take, h]

/-- **What an offer drops**: the oldest element of a full queue. -/
theorem drops_offer_eq (h : 0 < c) (q : DropQueue α c) (x : α) :
    (q.offer x).drops = q.drops ++ (if q.held.length = c then q.held.head?.toList else []) := by
  rw [drops_offer, excess_eq]
  split
  · rename_i hfull
    cases hq : q.held with
    | nil => rw [hq, List.length_nil] at hfull; omega
    | cons y l => rfl
  · rfl

end DropQueue
end Osw
