import Mathlib.Data.Fintype.Card
import Mathlib.Data.Set.Finite.Basic
import Mathlib.Logic.Function.Basic
/-!
# LockTable — re-entrant locks, and the order that keeps their holders from waiting for each other

A lock is free or has one holder, who may take it again; the table has the holder of each lock and how often it has
taken it.  What a party has taken is a list, its guards, and the table says of it exactly how often each lock is in there.
Parties that only wait for locks above those they have taken never wait for each other.
-/
namespace Osw
namespace LockTable

variable {ι κ : Type}

/-! ## Waiting for each other -/

/-- Some parties, each waiting for a lock that one of them has. -/
def Deadlocked (holds waits : ι → κ → Prop) (S : Set ι) : Prop :=
  S.Nonempty ∧ ∀ i ∈ S, ∃ l, waits i l ∧ ∃ j ∈ S, holds j l

/-- **Locks that are taken in order cannot deadlock** a finite set of parties. -/
theorem not_deadlocked_of_order {holds waits : ι → κ → Prop} {r : κ → κ → Prop}
    (htrans : ∀ {a b c : κ}, r a b → r b c → r a c) (hirrefl : ∀ a, ¬ r a a)
    (horder : ∀ i l l', holds i l → waits i l' → r l l') {S : Set ι} (hfin : S.Finite) : ¬ Deadlocked holds waits S := by
  rintro ⟨⟨i₀, hi₀⟩, hall⟩
  choose f hwaits hheld using hall
  have hfinite : Finite S := hfin
  -- among finitely many parties nobody can always find one that waits for a higher lock
  let above : S → S → Prop := fun j i => r (f i i.2) (f j j.2)
  have hTrans : IsTrans S above := ⟨fun _ _ _ h h' => htrans h' h⟩
  have hIrrefl : Std.Irrefl above := ⟨fun i => hirrefl (f i i.2)⟩
  have hwf : WellFounded above := Finite.wellFounded_of_trans_of_irrefl above
  refine hwf.induction (C := fun _ => False) ⟨i₀, hi₀⟩ (fun i ih => ?_)
  obtain ⟨j, hj, hold⟩ := hheld i i.2
  exact ih ⟨j, hj⟩ (horder j _ _ hold (hwaits j hj))

/-! ## The table -/

section table

variable [DecidableEq ι] [DecidableEq κ]

/-- `i` takes the lock `l`, unless somebody else has it. -/
def acquire (t : κ → Option (ι × Nat)) (i : ι) (l : κ) : Option (κ → Option (ι × Nat)) :=
  match t l with
  | none        => some (Function.update t l (some (i, 1)))
  | some (j, n) => if j = i then some (Function.update t l (some (i, n + 1))) else none

/-- `i` gives the lock `l` back once. -/
def release (t : κ → Option (ι × Nat)) (i : ι) (l : κ) : κ → Option (ι × Nat) :=
  match t l with
  | none        => t
  | some (j, n) => if j = i then Function.update t l (if n ≤ 1 then none else some (i, n - 1)) else t

/-- How often `i` has taken a lock that stands as `e` in the table. -/
def depth (i : ι) (e : Option (ι × Nat)) : Nat :=
  match e with
  | none        => 0
  | some (j, n) => if j = i then n else 0

/-- The table counts the guards. -/
structure Counts (guards : ι → List κ) (t : κ → Option (ι × Nat)) : Prop where
  count : ∀ i l, (guards i).count l = depth i (t l)
  pos   : ∀ l j n, t l = some (j, n) → 0 < n

variable {guards : ι → List κ} {t t' : κ → Option (ι × Nat)} {i j : ι} {l : κ}

theorem Counts.mem (h : Counts guards t) : l ∈ guards i ↔ ∃ n, t l = some (i, n) := by
  rw [← List.count_pos_iff, h.count]
  cases ht : t l with
  | none => simp [depth]
  | some p =>
    obtain ⟨j, n⟩ := p
    have hn := h.pos l j n ht
    by_cases hj : j = i
    · simp [depth, hj, hn]
    · simp [depth, hj]

/-- No lock has two holders. -/
theorem Counts.holder_unique (h : Counts guards t) (hi : l ∈ guards i) (hj : l ∈ guards j) : i = j := by
  obtain ⟨n, hn⟩ := h.mem.1 hi
  obtain ⟨m, hm⟩ := h.mem.1 hj
  rw [hn] at hm
  cases hm
  rfl

/-- One waits exactly for a lock that somebody else has. -/
theorem Counts.acquire_eq_none (h : Counts guards t) : acquire t i l = none ↔ ∃ j, j ≠ i ∧ l ∈ guards j := by
  unfold acquire
  cases ht : t l with
  | none => simp [h.mem, ht]
  | some p =>
    obtain ⟨j, n⟩ := p
    by_cases hj : j = i
    · subst hj
      simp [h.mem, ht, eq_comm]
    · simp only [hj, if_false, true_iff]
      exact ⟨j, hj, h.mem.2 ⟨n, ht⟩⟩

/-- One party's guards and one entry of the table change together. -/
theorem Counts.update (h : Counts guards t) {g : List κ} {e : Option (ι × Nat)} (hself : g.count l = depth i e)
    (hother : ∀ j, j ≠ i → depth j e = depth j (t l)) (hsame : ∀ k, k ≠ l → g.count k = (guards i).count k)
    (hpos : ∀ j n, e = some (j, n) → 0 < n) : Counts (Function.update guards i g) (Function.update t l e) := by
  refine ⟨fun j k => ?_, fun k j n hk => ?_⟩
  · by_cases hk : k = l
    · subst hk
      rw [Function.update_self]
      by_cases hj : j = i
      · subst hj
        rw [Function.update_self, hself]
      · rw [Function.update_of_ne hj, hother j hj, h.count]
    · rw [Function.update_of_ne hk]
      by_cases hj : j = i
      · subst hj
        rw [Function.update_self, hsame k hk, h.count]
      · rw [Function.update_of_ne hj, h.count]
  · by_cases hkl : k = l
    · rw [hkl, Function.update_self] at hk
      exact hpos j n hk
    · rw [Function.update_of_ne hkl] at hk
      exact h.pos k j n hk

theorem Counts.acquire (h : Counts guards t) (ht : acquire t i l = some t') :
    Counts (Function.update guards i (l :: guards i)) t' := by
  have hsame : ∀ k, k ≠ l → (l :: guards i).count k = (guards i).count k := fun k hk =>
    List.count_cons_of_ne (fun h => hk h.symm)
  have hcount := h.count i l
  unfold LockTable.acquire at ht
  cases hl : t l with
  | none =>
    rw [hl] at ht hcount
    cases ht
    refine h.update ?_ (fun j hj => ?_) hsame (fun j n he => ?_)
    · rw [List.count_cons_self, hcount]
      simp [depth]
    · simp [depth, hl, hj.symm]
    · cases he
      exact Nat.one_pos
  | some p =>
    obtain ⟨j, n⟩ := p
    rw [hl] at ht hcount
    dsimp only at ht
    split at ht
    · rename_i hji
      subst hji
      cases ht
      refine h.update ?_ (fun k hk => ?_) hsame (fun k m he => ?_)
      · rw [List.count_cons_self, hcount]
        simp [depth]
      · simp [depth, hl, hk.symm]
      · cases he
        exact Nat.succ_pos _
    · cases ht

theorem Counts.release (h : Counts guards t) {ls : List κ} (hg : guards i = l :: ls) :
    Counts (Function.update guards i ls) (release t i l) := by
  obtain ⟨n, hn⟩ := h.mem.1 (show l ∈ guards i by rw [hg]; exact List.mem_cons_self)
  have hcount : ls.count l + 1 = n := by
    have := h.count i l
    rwa [hg, List.count_cons_self, hn, depth, if_pos rfl] at this
  have hrel : LockTable.release t i l = Function.update t l (if n ≤ 1 then none else some (i, n - 1)) := by
    simp only [LockTable.release, hn, if_true]
  rw [hrel]
  refine h.update ?_ (fun j hj => ?_) (fun k hk => ?_) (fun j m he => ?_)
  · split
    · simp only [depth]
      omega
    · simp only [depth, if_true]
      omega
  · split <;> simp [depth, hn, hj.symm]
  · rw [hg, List.count_cons_of_ne (fun h => hk h.symm)]
  · split at he
    · cases he
    · cases he
      omega

end table

end LockTable
end Osw
