import Mathlib.Logic.Function.Basic
/-!
# Publish — a register that shows a source, written by many hands

A source only grows in version.  Whoever moves it on has then to publish it: to load it, and to store what it loaded in
a register.  Nothing orders the stores, so an old copy may come last; as long as no store takes the register back, the
register shows the source once everybody is done.  `Fresh` is that invariant, with a rule for each thing a publisher can
do (`change`, `take`, `put`).
-/
namespace Osw

/-- What a publisher has still to do: to load the source, or to store the version it loaded. -/
inductive Due
  | load
  | store (v : Nat)
  deriving DecidableEq, Repr

/-- The source is at version `now`, the register at `shown`; unless the register is up to date, somebody is about to
bring it there. -/
structure Fresh {ι : Type} (now shown : Nat) (due : ι → Option Due) : Prop where
  held_le  : ∀ i v, due i = some (.store v) → v ≤ now
  shown_le : shown ≤ now
  fresh    : shown = now ∨ ∃ i, due i = some .load ∨ due i = some (.store now)

namespace Fresh

variable {ι : Type} {now now' shown v : Nat} {due due' : ι → Option Due} {i : ι}

theorem start (h : ∀ i, due i = none) : Fresh now now due where
  held_le  := fun i v hv => by rw [h i] at hv; cases hv
  shown_le := Nat.le_refl _
  fresh    := .inl rfl

/-- A publisher moves the source, or not, and is to load it. -/
theorem change (h : Fresh now shown due) (hle : now ≤ now') (hi : due' i = some .load)
    (hne : ∀ j, j ≠ i → due' j = due j) : Fresh now' shown due' where
  held_le  := fun j v hv => by
    by_cases hj : j = i
    · subst hj
      rw [hi] at hv
      cases hv
    · rw [hne j hj] at hv
      exact Nat.le_trans (h.held_le j v hv) hle
  shown_le := Nat.le_trans h.shown_le hle
  fresh    := .inr ⟨i, .inl hi⟩

/-- A publisher loads the source. -/
theorem take (h : Fresh now shown due) (hi' : due' i = some (.store now)) (hne : ∀ j, j ≠ i → due' j = due j) :
    Fresh now shown due' where
  held_le  := fun j v hv => by
    by_cases hj : j = i
    · subst hj
      rw [hi'] at hv
      cases hv
      exact Nat.le_refl _
    · rw [hne j hj] at hv
      exact h.held_le j v hv
  shown_le := h.shown_le
  fresh    := .inr ⟨i, .inr hi'⟩

/-- **A publisher stores a copy that is not older than the register.** -/
theorem put (h : Fresh now shown due) (hi : due i = some (.store v)) (hle : shown ≤ v) (hi' : due' i = none)
    (hne : ∀ j, j ≠ i → due' j = due j) : Fresh now v due' := by
  have hv := h.held_le i v hi
  refine ⟨fun j w hw => ?_, hv, ?_⟩
  · by_cases hj : j = i
    · subst hj
      rw [hi'] at hw
      cases hw
    · rw [hne j hj] at hw
      exact h.held_le j w hw
  · by_cases hnow : v = now
    · exact .inl hnow
    · -- the register was behind, and somebody else is about to bring it up
      obtain ⟨j, hj⟩ : ∃ j, due j = some .load ∨ due j = some (.store now) := h.fresh.resolve_left (by omega)
      have hji : j ≠ i := by
        rintro rfl
        rw [hi] at hj
        rcases hj with hj | hj
        · cases hj
        · cases hj
          exact hnow rfl
      exact .inr ⟨j, by rwa [hne j hji]⟩

/-- A publisher moves the source and has the new version at once. -/
theorem changeTake [DecidableEq ι] (h : Fresh now shown due) (hle : now ≤ now') (hi : due' i = some (.store now'))
    (hne : ∀ j, j ≠ i → due' j = due j) : Fresh now' shown due' := by
  have hmid : Fresh now' shown (Function.update due i (some .load)) :=
    h.change hle (Function.update_self ..) (fun j hj => Function.update_of_ne hj ..)
  exact hmid.take hi (fun j hj => by rw [hne j hj, Function.update_of_ne hj])

/-- **Once nobody has anything to do, the register shows the source.** -/
theorem shown_eq (h : Fresh now shown due) (hrest : ∀ i, due i = none) : shown = now := by
  refine h.fresh.resolve_right ?_
  rintro ⟨i, hi⟩
  rw [hrest i] at hi
  rcases hi with hi | hi <;> cases hi

end Fresh
end Osw
