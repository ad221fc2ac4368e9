import Mathlib.Data.List.Forall2
import Mathlib.Algebra.Ring.Nat
/-!
# Regex — ordered matching of patterns with groups

A backtracking matcher tries the ways to match in a fixed order: the left side of an alternative before the right one, one
more turn of a greedy star before none, and the other way round for a lazy one.  `run` lists all ways in this order, each
with the text it takes, the groups it has closed and what is left; the match is the first one.

The rules are those a proof about one pattern needs: a sequence tries the second part after every way of the first, and a
star over a class of characters takes one character after the other.
-/
namespace Regex

inductive Pattern (α : Type)
  | empty
  | one (p : α → Bool)
  | seq (a b : Pattern α)
  | alt (a b : Pattern α)
  | star (greedy : Bool) (a : Pattern α)
  | group (n : Nat) (a : Pattern α)

/-- One way to match; the group closed last stands first. -/
structure Hit (α : Type) where
  text   : List α
  groups : List (Nat × List α)
  rest   : List α
  deriving DecidableEq, Repr

variable {α : Type}

namespace Hit

/-- Nothing is taken. -/
def none (s : List α) : Hit α := ⟨[], [], s⟩

def append (f g : Hit α) : Hit α := ⟨f.text ++ g.text, g.groups ++ f.groups, g.rest⟩

def close (n : Nat) (f : Hit α) : Hit α := { f with groups := (n, f.text) :: f.groups }

/-- The text of a group, empty when it has not taken part. -/
def group (f : Hit α) (n : Nat) : List α := (f.groups.lookup n).getD []

theorem append_assoc (f g h : Hit α) : (f.append g).append h = f.append (g.append h) := by
  simp [append]

end Hit

/-- The turns of a star.  A turn that takes nothing is refused, so as many turns as there are characters are enough. -/
def turns (step : List α → List (Hit α)) (greedy : Bool) : Nat → List α → List (Hit α)
  | 0, s => [.none s]
  | k + 1, s =>
    let more := ((step s).filter (fun f => !f.text.isEmpty)).flatMap (fun f => (turns step greedy k f.rest).map f.append)
    if greedy then more ++ [.none s] else .none s :: more

namespace Pattern

def run : Pattern α → List α → List (Hit α)
  | .empty, s         => [.none s]
  | .one _, []        => []
  | .one p, c :: s    => if p c then [⟨[c], [], s⟩] else []
  | .seq a b, s       => (a.run s).flatMap (fun f => (b.run f.rest).map f.append)
  | .alt a b, s       => a.run s ++ b.run s
  | .star greedy a, s => turns a.run greedy s.length s
  | .group n a, s     => (a.run s).map (Hit.close n)

def first (a : Pattern α) (s : List α) : Option (Hit α) := (a.run s).head?

/-- Characters of the given classes, in a row. -/
def lit : List (α → Bool) → Pattern α
  | []      => .empty
  | p :: ps => .seq (.one p) (lit ps)

def plus (p : α → Bool) : Pattern α := .seq (.one p) (.star true (.one p))

/-! ## Sequences -/

theorem first_seq (a b : Pattern α) (s : List α) :
    (a.seq b).first s = (a.run s).findSome? (fun f => (b.first f.rest).map f.append) := by
  simp only [first, run, List.head?_flatMap, List.head?_map]

theorem first_group (n : Nat) (a : Pattern α) (s : List α) : (a.group n).first s = (a.first s).map (Hit.close n) :=
  List.head?_map

theorem findSome?_flatMap {β γ δ : Type} (f : β → List γ) (k : γ → Option δ) :
    ∀ l : List β, (l.flatMap f).findSome? k = l.findSome? (fun x => (f x).findSome? k)
  | [] => rfl
  | x :: l => by
    rw [List.flatMap_cons, List.findSome?_append, List.findSome?_cons, findSome?_flatMap f k l]
    cases (f x).findSome? k <;> rfl

/-- What is tried after a sequence is tried after every way of its second part, for each way of the first in turn. -/
theorem findSome?_run_seq {δ : Type} (a b : Pattern α) (s : List α) (k : Hit α → Option δ) :
    ((a.seq b).run s).findSome? k
      = (a.run s).findSome? (fun f => (b.run f.rest).findSome? (fun g => k (f.append g))) := by
  rw [run, findSome?_flatMap]
  simp only [List.findSome?_map]
  rfl

theorem findSome?_run_group {δ : Type} (n : Nat) (a : Pattern α) (s : List α) (k : Hit α → Option δ) :
    ((a.group n).run s).findSome? k = (a.run s).findSome? (fun f => k (f.close n)) :=
  List.findSome?_map

/-! ## Ways that are possible -/

theorem mem_run_one {p : α → Bool} {s : List α} {f : Hit α} :
    f ∈ (one p).run s ↔ ∃ c, p c = true ∧ s = c :: f.rest ∧ f = ⟨[c], [], f.rest⟩ := by
  cases s with
  | nil => simp [run]
  | cons c s =>
    by_cases hc : p c = true
    · simp only [run, if_pos hc, List.mem_singleton]
      constructor
      · rintro rfl
        exact ⟨c, hc, rfl, rfl⟩
      · rintro ⟨d, -, hd, hf⟩
        obtain ⟨rfl, rfl⟩ := List.cons.inj hd
        exact hf
    · simp only [run, if_neg hc, List.not_mem_nil, false_iff]
      rintro ⟨d, hd, he, -⟩
      obtain ⟨rfl, -⟩ := List.cons.inj he
      exact hc hd

theorem mem_run_lit : ∀ {ps : List (α → Bool)} {s : List α} {f : Hit α},
    f ∈ (lit ps).run s ↔ List.Forall₂ (fun p c => p c = true) ps f.text ∧ f.groups = [] ∧ s = f.text ++ f.rest
  | [], s, ⟨t, gs, r⟩ => by
    simp only [lit, run, List.mem_singleton, Hit.none, Hit.mk.injEq, List.forall₂_nil_left_iff]
    constructor
    · rintro ⟨rfl, rfl, rfl⟩
      exact ⟨rfl, rfl, rfl⟩
    · rintro ⟨rfl, rfl, rfl⟩
      exact ⟨rfl, rfl, rfl⟩
  | p :: ps, s, ⟨t, gs, r⟩ => by
    simp only [lit, run, List.mem_flatMap, List.mem_map, mem_run_one, @mem_run_lit ps]
    constructor
    · rintro ⟨e, ⟨c, hc, rfl, he⟩, g, ⟨hg, hgs, hr⟩, hf⟩
      rw [he] at hf
      obtain ⟨rfl, rfl, rfl⟩ := Hit.mk.inj hf
      refine ⟨.cons hc hg, by simp [hgs], ?_⟩
      rw [hr]
      rfl
    · rintro ⟨ht, hgs, rfl⟩
      obtain ⟨c, t, hc, hps, rfl⟩ := List.forall₂_cons_left_iff.1 ht
      refine ⟨⟨[c], [], t ++ r⟩, ⟨c, hc, rfl, rfl⟩, ⟨t, [], r⟩, ⟨hps, rfl, rfl⟩, ?_⟩
      rw [show gs = [] from hgs]
      rfl

/-! ## A star over a class -/

section oneClass

variable {p : α → Bool} {greedy : Bool}

theorem run_star_of_not {s : List α} (h : ∀ c ∈ s.head?, p c = false) : (star greedy (one p)).run s = [.none s] := by
  cases s with
  | nil => rfl
  | cons c s =>
    have hc : p c = false := h c rfl
    simp only [run, turns, List.length_cons, hc, Bool.false_eq_true, if_false, List.filter_nil, List.flatMap_nil]
    cases greedy <;> rfl

theorem run_star_cons {c : α} (hc : p c = true) (s : List α) :
    (star greedy (one p)).run (c :: s) =
      if greedy then ((star greedy (one p)).run s).map (Hit.append ⟨[c], [], s⟩) ++ [.none (c :: s)]
      else .none (c :: s) :: ((star greedy (one p)).run s).map (Hit.append ⟨[c], [], s⟩) := by
  simp only [run, turns, List.length_cons, hc, if_true]
  simp

/-- Where no character of the class stands, nothing can be taken. -/
theorem eq_none_iff {s : List α} (h : ∀ c ∈ s.head?, p c = false) (f : Hit α) :
    f = .none s ↔ (∀ c ∈ f.text, p c = true) ∧ f.groups = [] ∧ s = f.text ++ f.rest := by
  obtain ⟨t, gs, r⟩ := f
  constructor
  · intro hf
    obtain ⟨rfl, rfl, rfl⟩ := Hit.mk.inj hf
    exact ⟨by simp, rfl, rfl⟩
  · rintro ⟨ht, hgs, hs⟩
    cases t with
    | nil =>
      rw [show gs = [] from hgs, show s = r from hs]
      rfl
    | cons c t =>
      have hc : p c = false := h c (by rw [hs]; rfl)
      rw [ht c List.mem_cons_self] at hc
      cases hc

theorem mem_run_star {s : List α} {f : Hit α} :
    f ∈ (star greedy (one p)).run s ↔ (∀ c ∈ f.text, p c = true) ∧ f.groups = [] ∧ s = f.text ++ f.rest := by
  induction s generalizing f with
  | nil =>
    rw [run_star_of_not (by simp), List.mem_singleton]
    exact eq_none_iff (by simp) f
  | cons c s ih =>
    by_cases hc : p c = true
    · have hways : f ∈ (star greedy (one p)).run (c :: s) ↔
          f = .none (c :: s) ∨ ∃ g ∈ (star greedy (one p)).run s, Hit.append ⟨[c], [], s⟩ g = f := by
        rw [run_star_cons hc]
        cases greedy <;> simp [or_comm]
      rw [hways]
      constructor
      · rintro (rfl | ⟨g, hg, rfl⟩)
        · exact ⟨by simp [Hit.none], rfl, rfl⟩
        · obtain ⟨ht, hgs, hs⟩ := ih.1 hg
          refine ⟨fun d hd => ?_, by simp [Hit.append, hgs], congrArg (c :: ·) hs⟩
          rcases List.mem_cons.1 hd with rfl | hd
          · exact hc
          · exact ht d hd
      · obtain ⟨t, gs, r⟩ := f
        rintro ⟨ht, hgs, hs⟩
        cases t with
        | nil =>
          rw [show gs = [] from hgs, show r = c :: s from hs.symm]
          exact .inl rfl
        | cons d t =>
          obtain ⟨rfl, rfl⟩ := List.cons.inj hs
          rw [show gs = [] from hgs]
          exact .inr ⟨⟨t, [], r⟩, ih.2 ⟨fun e he => ht e (List.mem_cons_of_mem _ he), rfl, rfl⟩, rfl⟩
    · have hnot : ∀ d ∈ (c :: s).head?, p d = false := by simpa using hc
      rw [run_star_of_not hnot, List.mem_singleton]
      exact eq_none_iff hnot f

/-- **The first way of a greedy star takes all it can.** -/
theorem first_star : ∀ (s : List α), (star true (one p)).first s = some ⟨s.takeWhile p, [], s.dropWhile p⟩
  | [] => rfl
  | c :: s => by
    by_cases hc : p c = true
    · rw [first, run_star_cons hc, if_pos rfl, List.head?_append, List.head?_map, ← first, first_star s,
        List.takeWhile_cons_of_pos hc, List.dropWhile_cons_of_pos hc]
      rfl
    · have hc : p c = false := by simpa using hc
      rw [first, run_star_of_not (by simpa using hc), List.takeWhile_cons_of_neg (by simp [hc]),
        List.dropWhile_cons_of_neg (by simp [hc])]
      rfl

theorem first_plus (s : List α) :
    (plus p).first s = if s.takeWhile p = [] then Option.none else some ⟨s.takeWhile p, [], s.dropWhile p⟩ := by
  cases s with
  | nil => rfl
  | cons c s =>
    rw [plus, first_seq]
    by_cases hc : p c = true
    · simp only [run, hc, if_true, List.findSome?_singleton, first_star, List.takeWhile_cons_of_pos hc,
        List.dropWhile_cons_of_pos hc]
      rfl
    · simp only [run, hc, List.takeWhile_cons_of_neg hc]
      rfl

end oneClass

/-! ## Replacing -/

/-- All matches from left to right, each replaced.  The pattern takes at least one character, so as many rounds as there are
characters are enough. -/
def replaceRounds (a : Pattern α) (format : Hit α → List α) : Nat → List α → List α
  | 0, s => s
  | _, [] => []
  | k + 1, c :: s =>
    match a.first (c :: s) with
    | some f => format f ++ replaceRounds a format k f.rest
    | none   => c :: replaceRounds a format k s

def replaceAll (a : Pattern α) (format : Hit α → List α) (s : List α) : List α := a.replaceRounds format s.length s

end Pattern
end Regex
