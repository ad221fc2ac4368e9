import Mathlib.Data.List.Pairwise
import Mathlib.Logic.Function.Basic
/-!
# Recency — a list kept most recent first

A list whose front is the key used last, read against the time each key was last used.  Moving a key to the front and
stamping it keeps the two in step, and the key at the end is the one used least recently.  Nothing here names a
component.
-/
namespace Osw

variable {K : Type} {stamp : K → Nat} {t : Nat} {l : List K}

/-- The keys of `l` stand in the order of their last use, the latest first, and all of them were used before `t`. -/
structure Recency (stamp : K → Nat) (t : Nat) (l : List K) : Prop where
  order  : l.Pairwise (fun a b => stamp b < stamp a)
  before : ∀ k ∈ l, stamp k < t

namespace Recency

theorem nil (stamp : K → Nat) (t : Nat) : Recency stamp t [] := ⟨.nil, nofun⟩

/-- Keys that go leave the order of the others as it was. -/
theorem sublist (h : Recency stamp t l) {l' : List K} (hs : l'.Sublist l) : Recency stamp t l' :=
  ⟨h.order.sublist hs, fun k hk => h.before k (hs.subset hk)⟩

/-- Time passes. -/
theorem later (h : Recency stamp t l) {t' : Nat} (ht : t ≤ t') : Recency stamp t' l :=
  ⟨h.order, fun k hk => Nat.lt_of_lt_of_le (h.before k hk) ht⟩

/-- **A key used now goes to the front.** -/
theorem push [DecidableEq K] (h : Recency stamp t l) {k : K} (hk : k ∉ l) :
    Recency (Function.update stamp k t) (t + 1) (k :: l) := by
  have hsame : ∀ a ∈ l, Function.update stamp k t a = stamp a := by
    intro a ha
    have hne : a ≠ k := fun he => hk (he ▸ ha)
    exact Function.update_of_ne hne _ _
  refine ⟨List.pairwise_cons.2 ⟨?_, ?_⟩, ?_⟩
  · intro a ha
    rw [hsame a ha, Function.update_self]
    exact h.before a ha
  · refine h.order.imp_of_mem ?_
    intro a b ha hb hab
    rw [hsame a ha, hsame b hb]
    exact hab
  · intro a ha
    rcases List.mem_cons.1 ha with rfl | ha
    · rw [Function.update_self]
      omega
    · rw [hsame a ha]
      have hlt := h.before a ha
      omega

/-- **The key at the end is the one used least recently.** -/
theorem last_least {v : K} (h : Recency stamp t (l ++ [v])) {u : K} (hu : u ∈ l) : stamp v < stamp u :=
  (List.pairwise_append.1 h.order).2.2 u hu v (by simp)

end Recency
end Osw
