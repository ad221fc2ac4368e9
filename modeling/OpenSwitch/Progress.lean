import Mathlib.Logic.Function.Basic
/-!
# Progress — jobs that go through places one after the other

A job is a value and the place it has come to; places are numbers, and a finished job stays behind the last one.  When
every job adds `w` of its value to a counter as it leaves the place `k`, the counter has `weigh w k` of the jobs: so a set
of counters that many jobs go through is a function of where the jobs stand.  Two counters differ by the jobs that are
between them (`weigh_eq_add_between`), and no counter goes down while jobs come and move on (`Onward`).
-/
namespace Osw
namespace Progress

variable {α : Type} {js : List (α × Nat)}

/-- What the jobs past the place `k` weigh. -/
def weigh (w : α → Nat) (k : Nat) : List (α × Nat) → Nat
  | []      => 0
  | j :: js => (if k < j.2 then w j.1 else 0) + weigh w k js

/-- What the jobs past `i` and not past `k` weigh. -/
def between (w : α → Nat) (i k : Nat) : List (α × Nat) → Nat
  | []      => 0
  | j :: js => (if i < j.2 ∧ j.2 ≤ k then w j.1 else 0) + between w i k js

/-- The job at `n` goes on to the next place. -/
def advance (n : Nat) (js : List (α × Nat)) : List (α × Nat) := js.modify n fun j => (j.1, j.2 + 1)

@[simp] theorem weigh_nil (w : α → Nat) (k : Nat) : weigh w k [] = 0 := rfl

theorem weigh_append (w : α → Nat) (k : Nat) (js ks : List (α × Nat)) :
    weigh w k (js ++ ks) = weigh w k js + weigh w k ks := by
  induction js with
  | nil => simp
  | cons j js ih => rw [List.cons_append, weigh, ih, weigh, Nat.add_assoc]

/-- A job weighs nothing before it has left a place. -/
theorem weigh_append_new (w : α → Nat) (k : Nat) (js : List (α × Nat)) (a : α) :
    weigh w k (js ++ [(a, 0)]) = weigh w k js := by
  rw [weigh_append, weigh, weigh_nil, if_neg (Nat.not_lt_zero k)]
  rfl

/-- **A job that goes on adds its weight at the place it leaves**, and nowhere else. -/
theorem weigh_advance (w : α → Nat) (k : Nat) {n p : Nat} {a : α} (h : js[n]? = some (a, p)) :
    weigh w k (advance n js) = weigh w k js + if p = k then w a else 0 := by
  induction js generalizing n with
  | nil => simp at h
  | cons j js ih =>
    cases n with
    | zero =>
      obtain rfl : j = (a, p) := by simpa using h
      rw [advance, List.modify_zero_cons, weigh, weigh]
      dsimp only
      split <;> split <;> split <;> omega
    | succ n =>
      have hrest := ih (n := n) (by simpa using h)
      rw [advance, List.modify_succ_cons, weigh, weigh, ← advance, hrest]
      omega

theorem length_advance (n : Nat) (js : List (α × Nat)) : (advance n js).length = js.length := List.length_modify _ _ _

theorem weigh_le_length {w : α → Nat} (hw : ∀ a, w a ≤ 1) (k : Nat) (js : List (α × Nat)) : weigh w k js ≤ js.length := by
  induction js with
  | nil => exact Nat.le_refl 0
  | cons j js ih =>
    have hj := hw j.1
    rw [weigh, List.length_cons]
    split <;> omega

theorem weigh_mono {w w' : α → Nat} (h : ∀ a, w a ≤ w' a) (k : Nat) (js : List (α × Nat)) :
    weigh w k js ≤ weigh w' k js := by
  induction js with
  | nil => exact Nat.le_refl 0
  | cons j js ih =>
    have hj := h j.1
    rw [weigh, weigh]
    split <;> omega

/-- **Two counters differ by the jobs between them.** -/
theorem weigh_eq_add_between (w : α → Nat) {i k : Nat} (h : i ≤ k) (js : List (α × Nat)) :
    weigh w i js = weigh w k js + between w i k js := by
  induction js with
  | nil => rfl
  | cons j js ih =>
    rw [weigh, weigh, between, ih]
    split <;> split <;> split <;> omega

/-- No job stands between two places that all have left. -/
theorem between_eq_zero (w : α → Nat) (i : Nat) {k : Nat} (h : ∀ j ∈ js, k < j.2) : between w i k js = 0 := by
  induction js with
  | nil => rfl
  | cons j js ih =>
    have hj := h j List.mem_cons_self
    rw [between, ih fun x hx => h x (List.mem_cons_of_mem j hx), if_neg (fun hb => Nat.not_le.2 hj hb.2)]

/-- Jobs have come and moved on. -/
structure Onward (js ks : List (α × Nat)) : Prop where
  length : js.length ≤ ks.length
  weigh  : ∀ w k, weigh w k js ≤ weigh w k ks

theorem Onward.refl (js : List (α × Nat)) : Onward js js := ⟨Nat.le_refl _, fun _ _ => Nat.le_refl _⟩

theorem Onward.trans {ks ls : List (α × Nat)} (h : Onward js ks) (h' : Onward ks ls) : Onward js ls :=
  ⟨Nat.le_trans h.length h'.length, fun w k => Nat.le_trans (h.weigh w k) (h'.weigh w k)⟩

theorem onward_new (js : List (α × Nat)) (a : α) : Onward js (js ++ [(a, 0)]) where
  length := by simp
  weigh  := fun w k => Nat.le_of_eq (weigh_append_new w k js a).symm

theorem onward_advance {n p : Nat} {a : α} (h : js[n]? = some (a, p)) : Onward js (advance n js) where
  length := Nat.le_of_eq (length_advance n js).symm
  weigh  := fun w k => by
    rw [weigh_advance w k h]
    exact Nat.le_add_right _ _

end Progress
end Osw
