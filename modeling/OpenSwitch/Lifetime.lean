import Mathlib.Data.List.Basic
/-!
# Lifetime — contexts and the resources that use them

A context is passed to a resource, which may use it until the resource is released.  A run leaves a record of three kinds
of event, and the law (`Outlives`) is that a context is freed only after the release of every resource it was passed to.
An owner of contexts keeps the law by owning the resources too (`Keeps`): when it has released all of them, each of its
contexts is fenced and may go.  Nothing here names a component.
-/
namespace Osw
namespace Lifetime

variable {κ β : Type}

inductive Ev (κ β : Type)
  | passed (c : κ) (b : β)
  | released (b : β)
  | freed (c : κ)
  deriving DecidableEq, Repr

/-- Every resource the context was passed to is released. -/
def Fenced (es : List (Ev κ β)) (c : κ) : Prop := ∀ b, .passed c b ∈ es → .released b ∈ es

/-- **Contexts outlive their resources**: before a context is freed stands the release of each resource it is ever
passed to. -/
def Outlives (es : List (Ev κ β)) : Prop :=
  ∀ before c after, es = before ++ .freed c :: after → ∀ b, .passed c b ∈ es → .released b ∈ before

/-- Of the resources the contexts `cs` were passed to, those not released are among `hs`. -/
def Keeps (es : List (Ev κ β)) (hs : List β) (cs : List κ) : Prop :=
  ∀ c ∈ cs, ∀ b, .passed c b ∈ es → b ∈ hs ∨ .released b ∈ es

/-- Where an element stands in a list with one more at the end. -/
theorem snoc_eq_split {α : Type} {es before after : List α} {x y : α} (h : es ++ [x] = before ++ y :: after) :
    (es = before ∧ x = y ∧ after = []) ∨ ∃ after', after = after' ++ [x] ∧ es = before ++ y :: after' := by
  rcases List.eq_nil_or_concat' after with rfl | ⟨after', z, rfl⟩
  · obtain ⟨hes, hx⟩ := List.append_inj' h rfl
    cases hx
    exact .inl ⟨hes, rfl, rfl⟩
  · have hsnoc : es ++ [x] = (before ++ y :: after') ++ [z] := by rw [h]; simp
    obtain ⟨hes, hx⟩ := List.append_inj' hsnoc rfl
    cases hx
    exact .inr ⟨after', rfl, hes⟩

theorem outlives_nil : Outlives ([] : List (Ev κ β)) := by
  intro before c after h
  cases before <;> cases h

variable {es : List (Ev κ β)}

/-- What was wrong stays wrong. -/
theorem Outlives.of_append {fs : List (Ev κ β)} (h : Outlives (es ++ fs)) : Outlives es := by
  intro before c after hes b hb
  exact h before c (after ++ fs) (by rw [hes]; simp) b (List.mem_append_left _ hb)

theorem Outlives.release (h : Outlives es) (b : β) : Outlives (es ++ [.released b]) := by
  intro before c after hes b' hb'
  rcases snoc_eq_split hes with ⟨-, hx, -⟩ | ⟨after', -, hes'⟩
  · cases hx
  · rcases List.mem_append.1 hb' with hb' | hb'
    · exact h before c after' hes' b' hb'
    · cases List.mem_singleton.1 hb'

/-- A context that was not freed may be passed on. -/
theorem Outlives.pass (h : Outlives es) {c : κ} (hc : .freed c ∉ es) (b : β) : Outlives (es ++ [.passed c b]) := by
  intro before c' after hes b' hb'
  rcases snoc_eq_split hes with ⟨-, hx, -⟩ | ⟨after', -, hes'⟩
  · cases hx
  · rcases List.mem_append.1 hb' with hb' | hb'
    · exact h before c' after' hes' b' hb'
    · cases List.mem_singleton.1 hb'
      exact absurd (hes' ▸ List.mem_append_right _ List.mem_cons_self) hc

theorem Outlives.passEach {c : κ} : ∀ {bs : List β} {es : List (Ev κ β)}, Outlives es → .freed c ∉ es →
    Outlives (es ++ bs.map (.passed c))
  | [], es, h, _ => by
    rw [List.map_nil, List.append_nil]
    exact h
  | b :: bs, es, h, hc => by
    have hrest : Outlives ((es ++ [.passed c b]) ++ bs.map (.passed c)) := (h.pass hc b).passEach (by simpa using hc)
    rw [List.append_assoc] at hrest
    exact hrest

/-- **Freeing a context keeps the law exactly when the context is fenced.** -/
theorem outlives_free_iff (h : Outlives es) (c : κ) : Outlives (es ++ [.freed c]) ↔ Fenced es c := by
  constructor
  · intro hfree b hb
    exact hfree es c [] rfl b (List.mem_append_left _ hb)
  · intro hfence before c' after hes b hb
    have hpassed : .passed c' b ∈ es := by
      rcases List.mem_append.1 hb with hb | hb
      · exact hb
      · cases List.mem_singleton.1 hb
    rcases snoc_eq_split hes with ⟨rfl, hx, -⟩ | ⟨after', -, hes'⟩
    · cases hx
      exact hfence b hpassed
    · exact h before c' after' hes' b hpassed

/-- What is recorded later may release resources, and pass other contexts. -/
theorem Keeps.append {fs : List (Ev κ β)} {hs : List β} {cs : List κ} (h : Keeps es hs cs)
    (hfs : ∀ c ∈ cs, ∀ b, .passed c b ∉ fs) : Keeps (es ++ fs) hs cs := by
  intro c hc b hb
  rcases List.mem_append.1 hb with hb | hb
  · exact (h c hc b hb).imp_right (List.mem_append_left _)
  · exact absurd hb (hfs c hc b)

/-- An owner that has released its resources may free its contexts. -/
theorem Keeps.fenced {hs : List β} {cs : List κ} (h : Keeps es hs cs) (hrel : ∀ b ∈ hs, .released b ∈ es) :
    ∀ c ∈ cs, Fenced es c := by
  intro c hc b hb
  exact (h c hc b hb).elim (hrel b) id

end Lifetime
end Osw
