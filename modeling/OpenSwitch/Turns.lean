import Mathlib.Data.List.Pairwise
/-!
# Turns — passing a gate in the order of the tickets drawn

Holders draw tickets from a counter and pass a gate.  As long as nobody passes while somebody else holds a smaller
ticket (`smallest`), the tickets that passed are sorted and every ticket still held is above them: `Turns` is that
invariant, with a rule for each thing that can happen to a holder (`draw`, `pass`, `leave`).
-/
namespace Osw

/-- The tickets `passed` a gate in increasing order, and those still held, each by one holder, come after them. -/
structure Turns {ι : Type} (passed : List Nat) (holds : ι → Option Nat) (next : Nat) : Prop where
  sorted    : passed.Pairwise (· < ·)
  below     : ∀ i q, holds i = some q → ∀ p ∈ passed, p < q
  held_lt   : ∀ i q, holds i = some q → q < next
  passed_lt : ∀ p ∈ passed, p < next
  distinct  : ∀ i j q, holds i = some q → holds j = some q → i = j

namespace Turns

variable {ι : Type} {passed : List Nat} {holds holds' : ι → Option Nat} {next : Nat} {i : ι}

/-- None of the holders `xs` has a ticket smaller than `q`. -/
def smallest (xs : List ι) (holds : ι → Option Nat) (q : Nat) : Bool :=
  xs.all (fun i => (holds i).all (fun p => decide (q ≤ p)))

theorem le_of_smallest {xs : List ι} {p q : Nat} (h : smallest xs holds q = true) (hi : i ∈ xs) (hp : holds i = some p) :
    q ≤ p := by
  have hall := List.all_eq_true.1 h i hi
  rwa [hp, Option.all_some, decide_eq_true_eq] at hall

theorem start (h : ∀ i, holds i = none) : Turns [] holds 0 where
  sorted := .nil
  below := fun i q hq => by rw [h i] at hq; cases hq
  held_lt := fun i q hq => by rw [h i] at hq; cases hq
  passed_lt := nofun
  distinct := fun i j q hq => by rw [h i] at hq; cases hq

/-- Holders change nothing, or give their ticket up. -/
theorem leave (h : Turns passed holds next) (hsub : ∀ j q, holds' j = some q → holds j = some q) :
    Turns passed holds' next where
  sorted := h.sorted
  below := fun j q hq => h.below j q (hsub j q hq)
  held_lt := fun j q hq => h.held_lt j q (hsub j q hq)
  passed_lt := h.passed_lt
  distinct := fun j k q hj hk => h.distinct j k q (hsub j q hj) (hsub k q hk)

/-- A holder draws the next ticket. -/
theorem draw (h : Turns passed holds next) (hi : holds' i = some next) (hne : ∀ j, j ≠ i → holds' j = holds j) :
    Turns passed holds' (next + 1) := by
  have hold : ∀ j q, holds' j = some q → (j = i ∧ q = next) ∨ (j ≠ i ∧ holds j = some q) := fun j q hq => by
    by_cases hj : j = i
    · subst hj
      rw [hi] at hq
      cases hq
      exact .inl ⟨rfl, rfl⟩
    · exact .inr ⟨hj, hne j hj ▸ hq⟩
  refine ⟨h.sorted, fun j q hq p hp => ?_, fun j q hq => ?_, fun p hp => ?_, fun j k q hj hk => ?_⟩
  · rcases hold j q hq with ⟨_, rfl⟩ | ⟨_, hq⟩
    · exact h.passed_lt p hp
    · exact h.below j q hq p hp
  · rcases hold j q hq with ⟨_, rfl⟩ | ⟨_, hq⟩
    · exact Nat.lt_succ_self _
    · exact Nat.lt_succ_of_lt (h.held_lt j q hq)
  · exact Nat.lt_succ_of_lt (h.passed_lt p hp)
  · -- nobody else holds the fresh ticket
    rcases hold j q hj with ⟨rfl, rfl⟩ | ⟨_, hj⟩ <;> rcases hold k _ hk with ⟨rfl, hq⟩ | ⟨_, hk⟩
    · rfl
    · exact absurd (h.held_lt k _ hk) (Nat.lt_irrefl _)
    · exact absurd (h.held_lt j _ hj) (hq ▸ Nat.lt_irrefl _)
    · exact h.distinct j k q hj hk

/-- **The holder of the smallest ticket passes.** -/
theorem pass {q : Nat} (h : Turns passed holds next) (hi : holds i = some q)
    (hmin : ∀ j p, holds j = some p → q ≤ p) (hi' : holds' i = none) (hne : ∀ j, j ≠ i → holds' j = holds j) :
    Turns (passed ++ [q]) holds' next := by
  have hold : ∀ j p, holds' j = some p → j ≠ i ∧ holds j = some p := fun j p hp => by
    by_cases hj : j = i
    · subst hj
      rw [hi'] at hp
      cases hp
    · exact ⟨hj, hne j hj ▸ hp⟩
  refine ⟨?_, fun j p hp r hr => ?_, fun j p hp => h.held_lt j p (hold j p hp).2, fun p hp => ?_,
    fun j k p hj hk => h.distinct j k p (hold j p hj).2 (hold k p hk).2⟩
  · refine List.pairwise_append.2 ⟨h.sorted, List.pairwise_singleton _ _, fun p hp r hr => ?_⟩
    cases List.mem_singleton.1 hr
    exact h.below i q hi p hp
  · obtain ⟨hj, hp⟩ := hold j p hp
    rcases List.mem_append.1 hr with hr | hr
    · exact h.below j p hp r hr
    · obtain rfl := List.mem_singleton.1 hr
      have hle := hmin j p hp
      have hneq : r ≠ p := fun heq => hj (h.distinct j i r (heq ▸ hp) hi)
      omega
  · rcases List.mem_append.1 hp with hp | hp
    · exact h.passed_lt p hp
    · obtain rfl := List.mem_singleton.1 hp
      exact h.held_lt i p hi

end Turns
end Osw
