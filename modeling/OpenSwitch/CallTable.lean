import Mathlib.Algebra.BigOperators.Group.List.Basic
import Mathlib.Algebra.Ring.Nat
import Mathlib.Data.List.AList
/-!
# CallTable — the calls in progress, by number

A system with any number of calls keeps where each of them is in an association list: a call that moves is inserted
again, one that ends is erased.  Two readings of such a table: the place of one call (`lookup_insert`, `lookup_erase`),
and what all of them are still to add to a counter (`total`).
-/
namespace Osw
namespace CallTable

variable {α β : Type} [DecidableEq α]

theorem lookup_insert (calls : AList (fun _ : α => β)) (n m : α) (call : β) :
    (calls.insert n call).lookup m = if m = n then some call else calls.lookup m := by
  split
  · rename_i h
    subst h
    exact AList.lookup_insert _
  · rename_i h
    exact AList.lookup_insert_ne h

theorem lookup_erase (calls : AList (fun _ : α => β)) (n m : α) :
    (calls.erase n).lookup m = if m = n then none else calls.lookup m := by
  split
  · rename_i h
    subst h
    exact AList.lookup_erase _ _
  · rename_i h
    exact AList.lookup_erase_ne h

/-- What the calls are to add, `f` of each. -/
def total (f : β → Nat) (calls : AList (fun _ : α => β)) : Nat := (calls.entries.map (fun e => f e.2)).sum

theorem sum_kerase (f : β → Nat) (n : α) : ∀ l : List (Sigma (fun _ : α => β)),
    (l.map (fun e => f e.2)).sum = ((l.kerase n).map (fun e => f e.2)).sum + ((l.dlookup n).map f).getD 0
  | [] => rfl
  | ⟨m, c⟩ :: l => by
    by_cases hnm : n = m
    · subst hnm
      have hk : List.kerase n (⟨n, c⟩ :: l) = l := List.kerase_cons_eq rfl
      rw [hk, List.dlookup_cons_eq, List.map_cons, List.sum_cons]
      exact Nat.add_comm _ _
    · rw [List.kerase_cons_ne hnm, List.dlookup_cons_ne l ⟨m, c⟩ hnm, List.map_cons, List.map_cons, List.sum_cons,
        List.sum_cons, sum_kerase f n l, Nat.add_assoc]

/-- A call that ends takes its share with it. -/
theorem total_erase (f : β → Nat) (calls : AList (fun _ : α => β)) (n : α) :
    total f calls = total f (calls.erase n) + ((calls.lookup n).map f).getD 0 :=
  sum_kerase f n calls.entries

/-- A call that moves has the share of where it has come to for the one of where it was. -/
theorem total_insert (f : β → Nat) (calls : AList (fun _ : α => β)) (n : α) (c : β) :
    total f (calls.insert n c) + ((calls.lookup n).map f).getD 0 = total f calls + f c := by
  have hcons : total f (calls.insert n c) = f c + total f (calls.erase n) := by
    rw [total, AList.entries_insert, List.map_cons, List.sum_cons]
    rfl
  rw [hcons, total_erase f calls n]
  omega

end CallTable
end Osw
