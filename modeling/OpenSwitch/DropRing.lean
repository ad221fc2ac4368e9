import Mathlib.Data.Int.ModEq
import Mathlib.Data.List.Range
import OpenSwitch.DropQueue
/-!
# DropRing — a circular buffer that drops its oldest element when full

An array of `capacity` cells with a next-write index `head`, a next-read index `tail` and a count.  `toList` is what it
holds, oldest first: the indices come and go, but a push appends to that list, after dropping its head when the ring is
full, and a pop takes its head.  A `Trail` is a ring with the history of what was pushed to it and of what left it.
-/
namespace Osw

/-- A ring of `c` cells.  The three indices agree: `head` is `count` cells after `tail`. -/
structure DropRing (α : Type) (c : Nat) where
  cells    : Nat → α
  head     : Nat
  tail     : Nat
  count    : Nat
  tail_lt  : tail < c
  count_le : count ≤ c
  head_eq  : head = (tail + count) % c

namespace DropRing

variable {α : Type} {c : Nat}

theorem capacity_pos (r : DropRing α c) : 0 < c := Nat.zero_lt_of_lt r.tail_lt

/-- The cell `i` places after the oldest one. -/
def nth (r : DropRing α c) (i : Nat) : α := r.cells ((r.tail + i) % c)

/-- What the ring holds, oldest first. -/
def toList (r : DropRing α c) : List α := (List.range r.count).map r.nth

/-- The oldest element. -/
def front (r : DropRing α c) : α := r.cells r.tail

/-- A write at `head`, when there is room. -/
def put (r : DropRing α c) (x : α) : DropRing α c :=
  if h : r.count < c then
    { r with
      cells := Function.update r.cells r.head x
      head := (r.head + 1) % c
      count := r.count + 1
      count_le := h
      head_eq := by rw [r.head_eq, Nat.mod_add_mod, Nat.add_assoc] }
  else r

@[simp] theorem length_toList (r : DropRing α c) : r.toList.length = r.count := by
  simp only [toList, List.length_map, List.length_range]

/-- Below the capacity, different places are different cells. -/
theorem cell_ne {t i j : Nat} (hi : i < j) (hj : j < c) : (t + i) % c ≠ (t + j) % c := by
  intro h
  have hmod : i % c = j % c := Nat.ModEq.add_left_cancel' t h
  rw [Nat.mod_eq_of_lt (hi.trans hj), Nat.mod_eq_of_lt hj] at hmod
  omega

theorem nth_zero (r : DropRing α c) : r.nth 0 = r.front := by
  rw [nth, front, Nat.add_zero, Nat.mod_eq_of_lt r.tail_lt]

theorem toList_put {r : DropRing α c} (h : r.count < c) (x : α) : (r.put x).toList = r.toList ++ [x] := by
  have hnth : ∀ i, (r.put x).nth i = Function.update r.cells r.head x ((r.tail + i) % c) := fun i => by
    rw [nth, put, dif_pos h]
  have hcount : (r.put x).count = r.count + 1 := by rw [put, dif_pos h]
  rw [toList, hcount, List.range_succ, List.map_append, List.map_singleton, hnth, ← r.head_eq, Function.update_self]
  congr 1
  refine List.map_congr_left (fun i hi => ?_)
  rw [hnth, r.head_eq, Function.update_of_ne (cell_ne (List.mem_range.1 hi) h), nth]

/-- Past the oldest element the indices still agree. -/
theorem head_eq_next (r : DropRing α c) (h : r.count ≠ 0) : r.head = ((r.tail + 1) % c + (r.count - 1)) % c := by
  rw [r.head_eq, Nat.mod_add_mod]
  congr 1
  omega

/-- The ring past its oldest element, whose cell is left with `x` in it. -/
def release (r : DropRing α c) (x : α) : DropRing α c :=
  if h : r.count = 0 then r
  else { r with
    cells := Function.update r.cells r.tail x
    tail := (r.tail + 1) % c
    count := r.count - 1
    tail_lt := Nat.mod_lt _ r.capacity_pos
    count_le := (Nat.sub_le _ _).trans r.count_le
    head_eq := r.head_eq_next h }

/-- The ring past its oldest element, whose cell is left as it is. -/
def skip (r : DropRing α c) : DropRing α c := r.release r.front

theorem count_release (r : DropRing α c) (x : α) : (r.release x).count = r.count - 1 := by
  unfold release
  split
  · rename_i h
    omega
  · rfl

/-- **Past its oldest element a ring holds the rest**, whatever is left in the cell. -/
theorem toList_release {r : DropRing α c} (h : r.count ≠ 0) (x : α) : r.toList = r.front :: (r.release x).toList := by
  obtain ⟨n, hn⟩ := Nat.exists_eq_succ_of_ne_zero h
  have hcount : (r.release x).count = n := by
    rw [count_release, hn]
    rfl
  rw [toList, hn, List.range_succ_eq_map, List.map_cons, nth_zero, List.map_map, toList, hcount]
  congr 1
  refine List.map_congr_left (fun i hi => ?_)
  have hlt := List.mem_range.1 hi
  have hle := r.count_le
  -- the freed cell is not one of the others
  have hne : (r.tail + (i + 1)) % c ≠ r.tail := by
    have := cell_ne (t := r.tail) (c := c) (Nat.succ_pos i) (by omega)
    rwa [Nat.add_zero, Nat.mod_eq_of_lt r.tail_lt, ne_comm] at this
  simp only [Function.comp_apply, nth, release, dif_neg h, Nat.mod_add_mod, Nat.succ_eq_add_one]
  rw [show r.tail + 1 + i = r.tail + (i + 1) by omega, Function.update_of_ne hne]

/-- The element a push drops. -/
def dropped (r : DropRing α c) : Option α := if r.count = c then some r.front else none

theorem length_dropped (r : DropRing α c) : r.dropped.toList.length = if r.toList.length = c then 1 else 0 := by
  rw [dropped, length_toList]
  split <;> rfl

/-- **A push appends its element, and drops the oldest one of a full ring**, whatever is left in the cell. -/
theorem dropped_append_put (r : DropRing α c) (x y : α) :
    r.dropped.toList ++ ((if r.count = c then r.release x else r).put y).toList = r.toList ++ [y] := by
  have hpos := r.capacity_pos
  have hle := r.count_le
  unfold dropped
  split
  · rename_i hfull
    have hroom : (r.release x).count < c := by
      rw [count_release]
      omega
    rw [toList_put hroom, toList_release (r := r) (by omega) x]
    rfl
  · exact toList_put (by omega) y

variable [Inhabited α]

def make (h : 0 < c) : DropRing α c where
  cells := fun _ => default
  head := 0
  tail := 0
  count := 0
  tail_lt := h
  count_le := Nat.zero_le _
  head_eq := (Nat.zero_mod _).symm

/-- The ring without its oldest element, whose cell is cleared. -/
def advance (r : DropRing α c) : DropRing α c := r.release default

/-- The ring with room for one more: a full one loses its oldest element. -/
def room (r : DropRing α c) : DropRing α c := if r.count = c then r.advance else r

def push (r : DropRing α c) (x : α) : DropRing α c := r.room.put x

/-! ## What the operations do to the list -/

theorem count_advance (r : DropRing α c) : r.advance.count = r.count - 1 := r.count_release default

/-- Past its oldest element a ring is the ring without it. -/
theorem toList_advance {r : DropRing α c} (h : r.count ≠ 0) : r.toList = r.front :: r.advance.toList :=
  toList_release h default

theorem dropped_append_push (r : DropRing α c) (x : α) : r.dropped.toList ++ (r.push x).toList = r.toList ++ [x] :=
  r.dropped_append_put default x

/-- A full ring drops the head of its list, any other nothing. -/
theorem dropped_eq_head? (r : DropRing α c) : r.dropped = if r.toList.length = c then r.toList.head? else none := by
  have hpos := r.capacity_pos
  rw [dropped, length_toList]
  split
  · rw [toList_advance (by omega), List.head?_cons]
  · rfl

end DropRing

/-! ## A ring and its history -/

/-- A ring, what was pushed to it, and what left it: each element with whether a push dropped it. -/
structure Trail (α : Type) (c : Nat) where
  ring   : DropRing α c
  pushed : List α
  gone   : List (α × Bool)

namespace Trail

variable {α : Type} {c : Nat} {t : Trail α c}

/-- What was dropped, in order. -/
def drops (t : Trail α c) : List α := (t.gone.filter (·.2)).map Prod.fst

/-- What was taken out, in order. -/
def taken (t : Trail α c) : List α := (t.gone.filter (fun d => !d.2)).map Prod.fst

/-- What left was dropped or taken out. -/
theorem countP_gone (p : α → Bool) (t : Trail α c) :
    (t.gone.map Prod.fst).countP p = t.drops.countP p + t.taken.countP p := by
  rw [drops, taken]
  generalize t.gone = gone
  induction gone with
  | nil => rfl
  | cons d gone ih =>
    obtain ⟨x, dropped⟩ := d
    cases dropped <;> simp only [List.map_cons, List.countP_cons, ih, List.filter_cons, Bool.not_false, Bool.not_true,
      Bool.false_eq_true, if_true, if_false] <;> omega

/-- What left and what is held are what was pushed. -/
def Kept (t : Trail α c) : Prop := t.pushed = t.gone.map Prod.fst ++ t.ring.toList

/-- **What was taken out and what is held are what was pushed without what was dropped**, in order. -/
theorem Kept.marks (h : t.Kept) :
    ∃ marks : List (α × Bool), marks.map Prod.fst = t.pushed ∧
      (marks.filter (fun d => !d.2)).map Prod.fst = t.taken ++ t.ring.toList ∧
      (marks.filter (·.2)).map Prod.fst = t.drops :=
  marks_of_kept h

variable [Inhabited α]

def make (h : 0 < c) : Trail α c := ⟨.make h, [], []⟩

def push (t : Trail α c) (x : α) : Trail α c :=
  ⟨t.ring.push x, t.pushed ++ [x], t.gone ++ t.ring.dropped.toList.map (·, true)⟩

/-- The oldest element is taken out. -/
def pop (t : Trail α c) : Trail α c := ⟨t.ring.advance, t.pushed, t.gone ++ [(t.ring.front, false)]⟩

theorem kept_make (h : 0 < c) : (make h : Trail α c).Kept := rfl

theorem Kept.push (h : t.Kept) (x : α) : (t.push x).Kept := by
  have hmap : (t.ring.dropped.toList.map (fun y => (y, true))).map Prod.fst = t.ring.dropped.toList := by
    rw [List.map_map]
    exact List.map_id _
  simp only [Kept, Trail.push, List.map_append, hmap, List.append_assoc, t.ring.dropped_append_push]
  rw [h, List.append_assoc]

theorem Kept.pop (h : t.Kept) (hne : t.ring.count ≠ 0) : t.pop.Kept := by
  simp only [Kept, Trail.pop, List.map_append, List.map_singleton, List.append_assoc, List.singleton_append]
  rw [← DropRing.toList_advance hne]
  exact h

/-- **A ring that keeps its history is a drop-oldest queue**: a push offers, a pop takes. -/
def Kept.toQueue {t : Trail α c} (h : t.Kept) : DropQueue α c :=
  ⟨t.ring.toList, t.pushed, t.gone, (DropRing.length_toList _).trans_le t.ring.count_le, h⟩

theorem Kept.toQueue_push (h : t.Kept) (x : α) : (h.push x).toQueue = h.toQueue.offer x := by
  have hlen : t.ring.dropped.toList.length = h.toQueue.excess :=
    t.ring.length_dropped.trans h.toQueue.excess_eq.symm
  obtain ⟨hheld, hgone, -⟩ := DropQueue.offer_of_split (q := h.toQueue) (t.ring.dropped_append_push x) hlen
  exact DropQueue.ext hheld.symm rfl hgone.symm

theorem Kept.toQueue_pop (h : t.Kept) (hne : t.ring.count ≠ 0) : (h.pop hne).toQueue = h.toQueue.take := by
  have hheld : h.toQueue.held = t.ring.front :: t.ring.advance.toList := DropRing.toList_advance hne
  refine DropQueue.ext ?_ rfl ?_
  · change t.ring.advance.toList = h.toQueue.held.tail
    rw [hheld]
    rfl
  · change t.gone ++ [(t.ring.front, false)] = t.gone ++ h.toQueue.held.head?.toList.map (·, false)
    rw [hheld]
    rfl

@[simp] theorem drops_push (t : Trail α c) (x : α) : (t.push x).drops = t.drops ++ t.ring.dropped.toList := by
  simp [drops, push, List.filter_map, Function.comp_def]

@[simp] theorem taken_push (t : Trail α c) (x : α) : (t.push x).taken = t.taken := by
  simp [taken, push, List.filter_map, Function.comp_def]

@[simp] theorem drops_pop (t : Trail α c) : t.pop.drops = t.drops := by
  simp [drops, pop]

@[simp] theorem taken_pop (t : Trail α c) : t.pop.taken = t.taken ++ [t.ring.front] := by
  simp [taken, pop]

end Trail
end Osw
