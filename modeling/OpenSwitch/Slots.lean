import Mathlib.Data.List.Nodup
import Mathlib.Logic.Function.Basic
/-!
# Slots — objects made on first use and kept in a list

A table gives the place of the object of a key in a list that only grows; the object is made when its key is first
looked up.  `Slots keys look objs val` says that the table and the list agree: the keys in the order they came, the
place of each, and the object there.
-/
namespace Osw

structure Slots {κ α : Type} (keys : List κ) (look : κ → Option Nat) (objs : List α) (val : κ → α) : Prop where
  nodup : keys.Nodup
  index : ∀ k i, look k = some i ↔ keys[i]? = some k
  objs  : objs = keys.map val

namespace Slots

variable {κ α : Type} {keys : List κ} {look look' : κ → Option Nat} {objs : List α} {val : κ → α}

theorem empty (look : κ → Option Nat) (val : κ → α) (h : ∀ k, look k = none) : Slots [] look [] val :=
  ⟨.nil, fun k i => by rw [h k]; simp, rfl⟩

theorem mem_of_look (h : Slots keys look objs val) {k : κ} {i : Nat} (hk : look k = some i) : k ∈ keys :=
  List.mem_of_getElem? ((h.index k i).1 hk)

theorem notMem_of_look (h : Slots keys look objs val) {k : κ} (hk : look k = none) : k ∉ keys := by
  intro hmem
  obtain ⟨i, hi⟩ := List.mem_iff_getElem?.1 hmem
  rw [(h.index k i).2 hi] at hk
  cases hk

variable [DecidableEq κ]

/-- A key with no object gets one, at the end. -/
theorem add (h : Slots keys look objs val) {k : κ} (hk : look k = none) (x : α) (hself : look' k = some objs.length)
    (hother : ∀ k', k' ≠ k → look' k' = look k') :
    Slots (keys ++ [k]) look' (objs ++ [x]) (Function.update val k x) := by
  have hnew : k ∉ keys := h.notMem_of_look hk
  have hlen : objs.length = keys.length := by rw [h.objs, List.length_map]
  refine ⟨?_, fun k' i => ?_, ?_⟩
  · exact h.nodup.append (List.nodup_singleton k) (List.disjoint_singleton.2 hnew)
  · by_cases hk' : k' = k
    · subst hk'
      rw [hself, hlen, Option.some.injEq]
      constructor
      · rintro rfl
        exact List.getElem?_concat_length
      · intro hi
        by_cases hlt : i < keys.length
        · rw [List.getElem?_append_left hlt] at hi
          exact absurd (List.mem_of_getElem? hi) hnew
        · have hle : i < (keys ++ [k']).length := (List.getElem?_eq_some_iff.1 hi).1
          rw [List.length_append, List.length_singleton] at hle
          omega
    · rw [hother k' hk', h.index]
      by_cases hlt : i < keys.length
      · rw [List.getElem?_append_left hlt]
      · constructor
        · intro hi
          exact absurd (List.getElem?_eq_some_iff.1 hi).1 hlt
        · intro hi
          rw [List.getElem?_append_right (by omega)] at hi
          exact absurd (List.mem_singleton.1 (List.mem_of_getElem? hi)) hk'
  · rw [List.map_append, List.map_singleton, Function.update_self, h.objs]
    congr 1
    refine List.map_congr_left fun k' hmem => ?_
    have hne : k' ≠ k := fun heq => hnew (heq ▸ hmem)
    rw [Function.update_of_ne hne]

/-- The object at the place of a key changes, and no other. -/
theorem modify (h : Slots keys look objs val) {k : κ} {i : Nat} (hi : keys[i]? = some k) (f : α → α) :
    Slots keys look (objs.modify i f) (Function.update val k (f (val k))) := by
  refine ⟨h.nodup, h.index, List.ext_getElem? fun j => ?_⟩
  rw [List.getElem?_modify, h.objs, List.getElem?_map, List.getElem?_map]
  cases hj : keys[j]? with
  | none => rfl
  | some k' =>
    by_cases hij : i = j
    · subst hij
      obtain rfl : k = k' := Option.some.inj (hi.symm.trans hj)
      simp
    · have hne : k' ≠ k := by
        rintro rfl
        have hlt : i < keys.length := (List.getElem?_eq_some_iff.1 hi).1
        exact hij ((List.getElem?_inj hlt h.nodup).1 (hi.trans hj.symm))
      simp [hij, Function.update_of_ne hne]

end Slots
end Osw
