import OpenSwitch.Regex
import OpenSwitch.ChannelHandlers
import Mathlib.Data.List.Infix
/-!
# Redaction — what the audit shows of the arguments (`RedactArgs`, execute_handler.cc)

The arguments of an `Execute` go to the audit with the matches of one pattern replaced,
`(\S*?(?:password|token|secret)\S*)=(\S+)` without regard to case.  No part of it matches a blank, so a match lies in one
word.  The second `\S*` is greedy and may run across an equals sign: the first group of the match ends at the last equals
sign of the word that has something after it, not at the first one.  A value with an equals sign inside is shown up to it.
-/
namespace Osw
namespace Control

open Regex (Pattern Hit)

/-- A character of the pattern, under `std::regex::icase`. -/
def icase (c x : UInt8) : Bool := toLower x == toLower c

/-- The class `\S`. -/
def nonSpace (c : UInt8) : Bool := !isSpace c

def keywordPattern : Pattern UInt8 :=
  .alt (.lit ((str "password").map icase)) (.alt (.lit ((str "token").map icase)) (.lit ((str "secret").map icase)))

/-- The end of the pattern, `=(\S+)`. -/
def valuePattern : Pattern UInt8 := .seq (.one (icase 61)) (.group 2 (.plus nonSpace))

/-- `kRedactPattern`. -/
def redactPattern : Pattern UInt8 :=
  .seq (.group 1 (.seq (.star false (.one nonSpace)) (.seq keywordPattern (.star true (.one nonSpace))))) valuePattern

/-- The format `$1=[REDACTED]`. -/
def redactFormat (h : Hit UInt8) : Bytes := h.group 1 ++ str "=[REDACTED]"

/-- `RedactArgs`. -/
def redactArgs (args : Bytes) : Bytes := if args = [] then args else redactPattern.replaceAll redactFormat args

/-! ## The equals sign where the first group ends -/

/-- What stands after an equals sign, if anything does. -/
def valueAt : Bytes → Option Bytes
  | []     => none
  | c :: v => if c = 61 ∧ v ≠ [] then some v else none

/-- A word cut at its last equals sign that has something after it. -/
def lastValue : Bytes → Option (Bytes × Bytes)
  | []     => none
  | c :: s => ((lastValue s).map (fun x => (c :: x.1, x.2))).or ((valueAt (c :: s)).map (fun v => ([], v)))

theorem lastValue_eq_none : ∀ {w : Bytes}, lastValue w = none ↔ 61 ∉ w.dropLast
  | []          => by simp [lastValue]
  | [c]         => by simp [lastValue, valueAt]
  | c :: d :: s => by
    have ih := lastValue_eq_none (w := d :: s)
    rw [lastValue, Option.or_eq_none_iff, Option.map_eq_none_iff, Option.map_eq_none_iff, ih, List.dropLast_cons_cons,
      List.mem_cons, not_or, and_comm]
    simp [valueAt, eq_comm]

theorem lastValue_append : ∀ (k : Bytes) {v : Bytes}, v ≠ [] → 61 ∉ v.dropLast → lastValue (k ++ 61 :: v) = some (k, v)
  | [], v, hv, hd => by
    rw [List.nil_append, lastValue, lastValue_eq_none.2 hd, valueAt, if_pos ⟨rfl, hv⟩]
    rfl
  | c :: k, v, hv, hd => by
    rw [List.cons_append, lastValue, lastValue_append k hv hd]
    rfl

theorem lastValue_spec : ∀ {w k v : Bytes}, lastValue w = some (k, v) → w = k ++ 61 :: v ∧ v ≠ [] ∧ 61 ∉ v.dropLast
  | c :: s, k, v, h => by
    rw [lastValue] at h
    cases hs : lastValue s with
    | some x =>
      rw [hs] at h
      obtain ⟨rfl, rfl⟩ := Prod.mk.inj (Option.some.inj h)
      obtain ⟨heq, hv⟩ := lastValue_spec hs
      exact ⟨congrArg (c :: ·) heq, hv⟩
    | none =>
      rw [hs, valueAt] at h
      split at h
      · rename_i hc
        obtain ⟨rfl, rfl⟩ := Prod.mk.inj (Option.some.inj h)
        exact ⟨by rw [hc.1]; rfl, hc.2, lastValue_eq_none.1 hs⟩
      · cases h

/-! ## The first match from the start of a word -/

def keywords : List Bytes := [str "password", str "token", str "secret"]

/-- The text has a keyword in it, in any case. -/
def HasKeyword (s : Bytes) : Prop := ∃ kw ∈ keywords, kw <:+: s.map toLower

instance (s : Bytes) : Decidable (HasKeyword s) := inferInstanceAs (Decidable (∃ kw ∈ keywords, kw <:+: s.map toLower))

theorem forall₂_icase : ∀ (kw s : Bytes),
    List.Forall₂ (fun p c => p c = true) (kw.map icase) s ↔ s.map toLower = kw.map toLower
  | [], s => by
    rw [List.map_nil, List.forall₂_nil_left_iff, List.map_nil, List.map_eq_nil_iff]
  | c :: kw, [] => by simp
  | c :: kw, d :: s => by
    rw [List.map_cons, List.forall₂_cons, forall₂_icase kw s]
    simp [icase]

theorem mem_run_keyword {s : Bytes} {f : Hit UInt8} :
    f ∈ keywordPattern.run s ↔ f.text.map toLower ∈ keywords ∧ f.groups = [] ∧ s = f.text ++ f.rest := by
  have hlower : ∀ kw ∈ keywords, kw.map toLower = kw := by decide +kernel
  have hlit : ∀ kw ∈ keywords, (f ∈ (Pattern.lit (kw.map icase)).run s ↔
      f.text.map toLower = kw ∧ f.groups = [] ∧ s = f.text ++ f.rest) := by
    intro kw hkw
    rw [Pattern.mem_run_lit, forall₂_icase, hlower kw hkw]
  simp only [keywordPattern, Pattern.run, List.mem_append]
  rw [hlit _ (by simp [keywords]), hlit _ (by simp [keywords]), hlit _ (by simp [keywords])]
  simp only [keywords, List.mem_cons, List.not_mem_nil, or_false, or_and_right]

variable {c : UInt8} {w : Bytes}

theorem icase_eq_sign : icase 61 c = true ↔ c = 61 := by
  have h := forall_byte (p := fun c => icase 61 c == decide (c = 61)) (by decide +kernel) c
  rw [eq_of_beq h]
  exact decide_eq_true_iff

def Word (w : Bytes) : Prop := ∀ c ∈ w, nonSpace c = true

/-- A word ends here. -/
def Boundary (t : Bytes) : Prop := ∀ c ∈ t.head?, nonSpace c = false

section word

variable {w t : Bytes}

theorem takeWhile_word (hw : Word w) (ht : Boundary t) : (w ++ t).takeWhile nonSpace = w := by
  have hnil : t.takeWhile nonSpace = [] := by
    cases t with
    | nil => rfl
    | cons c t => exact List.takeWhile_cons_of_neg (by simp [ht c rfl])
  rw [List.takeWhile_append_of_pos hw, hnil, List.append_nil]

theorem dropWhile_word (hw : Word w) (ht : Boundary t) : (w ++ t).dropWhile nonSpace = t := by
  rw [List.dropWhile_append_of_pos hw]
  cases t with
  | nil => rfl
  | cons c t => exact List.dropWhile_cons_of_neg (by simp [ht c rfl])

theorem first_value (hw : Word w) (ht : Boundary t) :
    valuePattern.first (w ++ t) = (valueAt w).map (fun v => ⟨w, [(2, v)], t⟩) := by
  rw [valuePattern, Pattern.first_seq]
  cases w with
  | nil =>
    cases t with
    | nil => rfl
    | cons c t =>
      have hc : icase 61 c = false := by
        rw [Bool.eq_false_iff, ne_eq, icase_eq_sign]
        rintro rfl
        exact absurd (ht 61 rfl) (by decide)
      simp [Pattern.run, hc, valueAt]
  | cons c v =>
    have hv : Word v := fun d hd => hw d (List.mem_cons_of_mem _ hd)
    have hplus := Pattern.first_plus (p := nonSpace) (v ++ t)
    rw [takeWhile_word hv ht, dropWhile_word hv ht] at hplus
    by_cases hc : c = 61
    · have hone : (Pattern.one (icase 61)).run (c :: (v ++ t)) = [⟨[c], [], v ++ t⟩] := by
        simp [Pattern.run, icase_eq_sign.2 hc]
      rw [List.cons_append, hone, List.findSome?_singleton, Pattern.first_group, hplus]
      by_cases hnil : v = []
      · simp [valueAt, hnil]
      · simp [valueAt, hnil, hc, Hit.close, Hit.append]
    · have hone : (Pattern.one (icase 61)).run (c :: (v ++ t)) = [] := by
        simp [Pattern.run, icase_eq_sign, hc]
      rw [List.cons_append, hone]
      simp [valueAt, hc]

/-- **From the end of a keyword on, the greedy star runs to the last equals sign with something after it.** -/
theorem first_greedy (ht : Boundary t) : ∀ {w : Bytes}, Word w → ∀ f : Hit UInt8,
    ((Pattern.star true (.one nonSpace)).run (w ++ t)).findSome?
        (fun g => (valuePattern.first g.rest).map (((f.append g).close 1).append))
      = (lastValue w).map (fun x => ⟨f.text ++ w, (2, x.2) :: (1, f.text ++ x.1) :: f.groups, t⟩)
  | [], hw, f => by
    rw [List.nil_append, Pattern.run_star_of_not ht, List.findSome?_singleton]
    have hval := first_value hw ht
    rw [List.nil_append] at hval
    simp only [Hit.none, hval]
    rfl
  | c :: w, hw, f => by
    have hw' : Word w := fun d hd => hw d (List.mem_cons_of_mem _ hd)
    have ih := first_greedy ht hw' (f.append ⟨[c], [], w ++ t⟩)
    have hval := first_value hw ht
    rw [List.cons_append] at hval
    rw [List.cons_append, Pattern.run_star_cons (hw c List.mem_cons_self), if_pos rfl, List.findSome?_append,
      List.findSome?_map, List.findSome?_singleton]
    simp only [Hit.append_assoc] at ih
    rw [show ((fun g => (valuePattern.first g.rest).map (((f.append g).close 1).append)) ∘ Hit.append ⟨[c], [], w ++ t⟩)
      = fun g : Hit UInt8 => (valuePattern.first g.rest).map (((f.append (Hit.append ⟨[c], [], w ++ t⟩ g)).close 1).append)
      from rfl, ih, lastValue]
    simp only [Hit.none, hval]
    cases lastValue w with
    | some x => simp [Hit.append]
    | none => cases valueAt (c :: w) <;> simp [Hit.append, Hit.close]

/-- A text without blanks at the start of the input is part of its first word. -/
theorem split_word (ht : Boundary t) {x r : Bytes} (hx : Word x) (h : w ++ t = x ++ r) :
    ∃ w', w = x ++ w' ∧ r = w' ++ t := by
  rcases List.append_eq_append_iff.1 h with ⟨y, hy, hty⟩ | ⟨y, hy, hty⟩
  · cases y with
    | nil => exact ⟨[], by simpa using hy.symm, hty.symm⟩
    | cons c y =>
      have hc : nonSpace c = true := hx c (by rw [hy]; simp)
      rw [ht c (by rw [hty]; rfl)] at hc
      cases hc
  · exact ⟨y, hy, hty⟩

/-- A keyword in the word and the greedy star after it: however the word is cut, the first group ends at the same place. -/
theorem group_of_cut (hw : Word w) (ht : Boundary t) {f g y : Hit UInt8}
    (hf : f ∈ (Pattern.star false (.one nonSpace)).run (w ++ t)) (hg : g ∈ keywordPattern.run f.rest)
    (h : ((Pattern.star true (.one nonSpace)).run g.rest).findSome?
      (fun e => (valuePattern.first e.rest).map ((((f.append g).append e).close 1).append)) = some y) :
    ∃ k v, lastValue w = some (k, v) ∧ HasKeyword k ∧ y = ⟨w, [(2, v), (1, k)], t⟩ := by
  obtain ⟨hft, hfg, hfs⟩ := Pattern.mem_run_star.1 hf
  obtain ⟨hkw, hgg, hgs⟩ := mem_run_keyword.1 hg
  obtain ⟨w₁, rfl, hfr⟩ := split_word ht hft hfs
  have hgt : Word g.text := by
    intro c hc
    have hlower : ∀ kw ∈ keywords, ∀ d ∈ kw, isSpace d = false := by decide +kernel
    have hspace := hlower _ hkw (toLower c) (List.mem_map_of_mem hc)
    rw [isSpace_toLower] at hspace
    simp [nonSpace, hspace]
  obtain ⟨w₂, rfl, hgr⟩ := split_word ht hgt (hfr.symm.trans hgs)
  have hw₂ : Word w₂ := fun c hc => hw c (List.mem_append_right _ (List.mem_append_right _ hc))
  rw [hgr, first_greedy ht hw₂] at h
  obtain ⟨⟨k, v⟩, hlast, rfl⟩ := Option.map_eq_some_iff.1 h
  obtain ⟨rfl, hv, hd⟩ := lastValue_spec hlast
  refine ⟨f.text ++ g.text ++ k, v, ?_, ⟨_, hkw, f.text.map toLower, k.map toLower, by simp⟩, ?_⟩
  · rw [← lastValue_append (f.text ++ g.text ++ k) hv hd]
    simp
  · simp [Hit.append, hfg, hgg]

/-- The cut of a word that the pattern matches. -/
def secretCut (w : Bytes) : Option (Bytes × Bytes) := (lastValue w).filter (fun x => decide (HasKeyword x.1))

theorem secretCut_eq_some {k v : Bytes} : secretCut w = some (k, v) ↔ lastValue w = some (k, v) ∧ HasKeyword k := by
  rw [secretCut, Option.filter_eq_some_iff, decide_eq_true_iff]

theorem first_redactPattern_eq (s : Bytes) :
    redactPattern.first s = ((Pattern.star false (.one nonSpace)).run s).findSome? (fun f =>
      (keywordPattern.run f.rest).findSome? (fun g => ((Pattern.star true (.one nonSpace)).run g.rest).findSome?
        (fun e => (valuePattern.first e.rest).map ((((f.append g).append e).close 1).append)))) := by
  rw [redactPattern, Pattern.first_seq, Pattern.findSome?_run_group]
  simp only [Pattern.findSome?_run_seq, Hit.append_assoc]
  rfl

theorem first_redactPattern_eq_some (hw : Word w) (ht : Boundary t) {y : Hit UInt8}
    (h : redactPattern.first (w ++ t) = some y) :
    ∃ k v, secretCut w = some (k, v) ∧ y = ⟨w, [(2, v), (1, k)], t⟩ := by
  rw [first_redactPattern_eq] at h
  obtain ⟨f, hf, h⟩ := List.exists_of_findSome?_eq_some h
  obtain ⟨g, hg, h⟩ := List.exists_of_findSome?_eq_some h
  obtain ⟨k, v, hlast, hkey, rfl⟩ := group_of_cut hw ht hf hg h
  exact ⟨k, v, secretCut_eq_some.2 ⟨hlast, hkey⟩, rfl⟩

theorem first_redactPattern_ne_none (hw : Word w) (ht : Boundary t) {k v : Bytes} (h : secretCut w = some (k, v)) :
    redactPattern.first (w ++ t) ≠ none := by
  obtain ⟨hlast, kw, hkw, a, b, hab⟩ := secretCut_eq_some.1 h
  obtain ⟨rfl, hv, hd⟩ := lastValue_spec hlast
  obtain ⟨xm, r, rfl, hxm, rfl⟩ := List.map_eq_append_iff.1 hab.symm
  obtain ⟨x, m, rfl, rfl, rfl⟩ := List.map_eq_append_iff.1 hxm
  have hx : Word x := fun c hc => hw c (by simp [hc])
  have hr : Word (r ++ 61 :: v) := by
    intro c hc
    rw [List.append_assoc] at hw
    exact hw c (List.mem_append_right _ hc)
  rw [first_redactPattern_eq]
  intro hnone
  have hf := List.findSome?_eq_none_iff.1 hnone ⟨x, [], m ++ (r ++ 61 :: v ++ t)⟩
    (Pattern.mem_run_star.2 ⟨hx, rfl, by simp⟩)
  have hg := List.findSome?_eq_none_iff.1 hf ⟨m, [], r ++ 61 :: v ++ t⟩ (mem_run_keyword.2 ⟨hkw, rfl, rfl⟩)
  rw [first_greedy ht hr, lastValue_append r hv hd] at hg
  cases hg

/-- **From the start of a word, the pattern matches the whole word or nothing.** -/
theorem first_redactPattern (hw : Word w) (ht : Boundary t) :
    redactPattern.first (w ++ t) = (secretCut w).map (fun x => ⟨w, [(2, x.2), (1, x.1)], t⟩) := by
  cases hres : redactPattern.first (w ++ t) with
  | some y =>
    obtain ⟨k, v, hcut, rfl⟩ := first_redactPattern_eq_some hw ht hres
    rw [hcut]
    rfl
  | none =>
    cases hcut : secretCut w with
    | none => rfl
    | some x => exact absurd hres (first_redactPattern_ne_none hw ht hcut)

end word

/-! ## Word by word -/

/-- What becomes of a word. -/
def redactWord (w : Bytes) : Bytes :=
  match secretCut w with
  | some x => x.1 ++ str "=[REDACTED]"
  | none   => w

theorem secretCut_cons {k v : Bytes} (c : UInt8) (h : secretCut w = some (k, v)) :
    secretCut (c :: w) = some (c :: k, v) := by
  obtain ⟨hlast, kw, hkw, hin⟩ := secretCut_eq_some.1 h
  obtain ⟨rfl, hv, hd⟩ := lastValue_spec hlast
  exact secretCut_eq_some.2 ⟨lastValue_append (c :: k) hv hd, kw, hkw, hin.trans (List.infix_cons (List.infix_refl _))⟩

theorem redactWord_of_none (h : secretCut w = none) : redactWord w = w := by
  rw [redactWord, h]

theorem secretCut_of_cons (h : secretCut (c :: w) = none) : secretCut w = none := by
  cases hw : secretCut w with
  | none => rfl
  | some x =>
    rw [secretCut_cons c hw] at h
    cases h

theorem redactWord_word (hw : Word w) : Word (redactWord w) := by
  cases hcut : secretCut w with
  | none =>
    rw [redactWord_of_none hcut]
    exact hw
  | some x =>
    obtain ⟨k, v⟩ := x
    obtain ⟨rfl, -⟩ := lastValue_spec (secretCut_eq_some.1 hcut).1
    have hlit : ∀ c ∈ str "=[REDACTED]", nonSpace c = true := by decide +kernel
    rw [redactWord, hcut]
    intro c hc
    rcases List.mem_append.1 hc with hc | hc
    · exact hw c (List.mem_append_left _ hc)
    · exact hlit c hc

/-- **A word is replaced in one go, or copied byte by byte.** -/
theorem rounds_word {t : Bytes} (ht : Boundary t) : ∀ {w : Bytes} {k : Nat}, Word w → (w ++ t).length ≤ k →
    ∃ k', t.length ≤ k' ∧
      redactPattern.replaceRounds redactFormat k (w ++ t) = redactWord w ++ redactPattern.replaceRounds redactFormat k' t
  | [], k, _, hk => ⟨k, hk, rfl⟩
  | c :: w, 0, _, hk => by cases hk
  | c :: w, k + 1, hw, hk => by
    have hw' : Word w := fun d hd => hw d (List.mem_cons_of_mem _ hd)
    have hk' : (w ++ t).length ≤ k := Nat.le_of_succ_le_succ hk
    have hfirst := first_redactPattern hw ht
    rw [List.cons_append] at hfirst
    rw [List.cons_append, Pattern.replaceRounds, hfirst]
    cases hcut : secretCut (c :: w) with
    | some x =>
      refine ⟨k, ?_, ?_⟩
      · rw [List.length_append] at hk'
        omega
      · rw [redactWord, hcut]
        rfl
    | none =>
      obtain ⟨k', hle, heq⟩ := rounds_word ht hw' hk'
      refine ⟨k', hle, ?_⟩
      rw [redactWord_of_none (secretCut_of_cons hcut)] at heq
      rw [redactWord_of_none hcut]
      exact congrArg (c :: ·) heq

/-- The words of a string, the empty ones between two blanks too. -/
def words (s : Bytes) : List Bytes := s.splitOnP isSpace

theorem words_of_word (hw : Word w) : words w = [w] :=
  List.splitOnP_eq_singleton (fun c hc => by simpa [nonSpace] using hw c hc)

theorem words_append_cons (hw : Word w) (hc : nonSpace c = false) (s : Bytes) : words (w ++ c :: s) = w :: words s :=
  List.splitOnP_append_cons_of_forall_mem (fun d hd => by simpa [nonSpace] using hw d hd) c (by simpa [nonSpace] using hc) s

theorem boundary_dropWhile (s : Bytes) : Boundary (s.dropWhile nonSpace) := by
  intro c hc
  have hnot := List.head?_dropWhile_not nonSpace s
  rw [Option.mem_def.1 hc] at hnot
  exact hnot

/-- By induction on a bound of the length: after a word and the blank behind it comes a shorter string. -/
theorem words_rounds : ∀ (n : Nat) {k : Nat} {s : Bytes}, s.length < n → s.length ≤ k →
    words (redactPattern.replaceRounds redactFormat k s) = (words s).map redactWord
  | n + 1, k, s, hn, hk => by
    have hw : Word (s.takeWhile nonSpace) := fun c hc => List.mem_takeWhile_imp hc
    have ht := boundary_dropWhile s
    have hs : s.takeWhile nonSpace ++ s.dropWhile nonSpace = s := List.takeWhile_append_dropWhile
    generalize s.takeWhile nonSpace = w at hw hs
    generalize s.dropWhile nonSpace = t at ht hs
    subst hs
    obtain ⟨k', hk', heq⟩ := rounds_word ht hw hk
    rw [heq]
    cases t with
    | nil =>
      have hnil : redactPattern.replaceRounds redactFormat k' [] = [] := by cases k' <;> rfl
      rw [hnil, List.append_nil, List.append_nil, words_of_word hw, words_of_word (redactWord_word hw)]
      rfl
    | cons c t =>
      have hc : nonSpace c = false := ht c rfl
      -- the pattern does not match at a blank
      have hfirst : redactPattern.first (c :: t) = none := first_redactPattern (w := []) (by simp [Word]) ht
      have hlt : t.length < n := by
        rw [List.length_append, List.length_cons] at hn
        omega
      cases k' with
      | zero => cases hk'
      | succ k' =>
        rw [Pattern.replaceRounds, hfirst, words_append_cons hw hc, words_append_cons (redactWord_word hw) hc,
          words_rounds n hlt (Nat.le_of_succ_le_succ hk'), List.map_cons]

/-- **The arguments are redacted word by word.** -/
theorem words_redactArgs (args : Bytes) : words (redactArgs args) = (words args).map redactWord := by
  unfold redactArgs
  split
  · rename_i hnil
    rw [hnil]
    decide +kernel
  · exact words_rounds (args.length + 1) (Nat.lt_succ_self _) (Nat.le_refl _)

/-- The headers of the audit event `osw.control.execute`, which a call emits once the application has run. -/
def executeAudit (req : ExecuteRequest) (fs : FreeSwitch) : Option (List (Bytes × Bytes)) :=
  if (executeLive req fs).status = .okay then
    some [(str "uuid", req.uuid), (str "app", req.app), (str "args_redacted", redactArgs req.args)]
  else none

theorem executeAudit_words {req : ExecuteRequest} {fs : FreeSwitch} {hs : List (Bytes × Bytes)}
    (h : executeAudit req fs = some hs) :
    ∃ args, hs.lookup (str "args_redacted") = some args ∧ words args = (words req.args).map redactWord := by
  unfold executeAudit at h
  split at h
  · obtain rfl := Option.some.inj h
    refine ⟨redactArgs req.args, ?_, words_redactArgs req.args⟩
    have huuid : (str "args_redacted" == str "uuid") = false := by decide +kernel
    have happ : (str "args_redacted" == str "app") = false := by decide +kernel
    simp only [List.lookup_cons, huuid, happ, beq_self_eq_true]
  · cases h

/-! ## The words with a secret -/

/-- A word `key=value`, with the key up to its first equals sign, that has a keyword in its key and a value. -/
structure SecretWord (w key value : Bytes) : Prop where
  word     : w = key ++ 61 :: value
  firstCut : 61 ∉ key
  keyword  : HasKeyword key
  nonempty : value ≠ []

theorem HasKeyword.append {s : Bytes} (h : HasKeyword s) (t : Bytes) : HasKeyword (s ++ t) := by
  obtain ⟨kw, hkw, hin⟩ := h
  refine ⟨kw, hkw, hin.trans ?_⟩
  rw [List.map_append]
  exact (List.prefix_append _ _).isInfix

theorem SecretWord.cut {key value : Bytes} (h : SecretWord w key value) :
    ∃ x v, secretCut w = some (x, v) ∧ (x = key ↔ 61 ∉ value.dropLast) := by
  by_cases hd : 61 ∈ value.dropLast
  · cases hv : lastValue value with
    | none => exact absurd hd (lastValue_eq_none.1 hv)
    | some y =>
      obtain ⟨k, v⟩ := y
      obtain ⟨heq, hne, hlast⟩ := lastValue_spec hv
      have hcut : lastValue w = some (key ++ 61 :: k, v) := by
        rw [h.word, heq, ← lastValue_append (key ++ 61 :: k) hne hlast]
        simp
      refine ⟨_, _, secretCut_eq_some.2 ⟨hcut, h.keyword.append _⟩, ?_⟩
      simp [hd]
  · have hcut : lastValue w = some (key, value) := by
      rw [h.word]
      exact lastValue_append key h.nonempty hd
    exact ⟨_, _, secretCut_eq_some.2 ⟨hcut, h.keyword⟩, by simp [hd]⟩

theorem SecretWord.redactWord_iff {key value : Bytes} (h : SecretWord w key value) :
    redactWord w = key ++ str "=[REDACTED]" ↔ 61 ∉ value.dropLast := by
  obtain ⟨x, v, hcut, hx⟩ := h.cut
  rw [redactWord, hcut, ← hx]
  exact List.append_left_inj _

/-- No secret shows: a word with one is output as its key and `[REDACTED]`. -/
def Redacts (args : Bytes) : Prop :=
  ∀ (i : Nat) (w key value : Bytes), (words args)[i]? = some w → SecretWord w key value →
    (words (redactArgs args))[i]? = some (key ++ str "=[REDACTED]")

/-- **Exactly the values with an equals sign before their last byte are shown in part.** -/
theorem redacts_iff (args : Bytes) :
    Redacts args ↔ ∀ w ∈ words args, ∀ key value, SecretWord w key value → 61 ∉ value.dropLast := by
  unfold Redacts
  constructor
  · intro h w hw key value hsecret
    obtain ⟨i, hi⟩ := List.mem_iff_getElem?.1 hw
    have hout := h i w key value hi hsecret
    rw [words_redactArgs, List.getElem?_map, hi] at hout
    exact hsecret.redactWord_iff.1 (Option.some.inj hout)
  · intro h i w key value hi hsecret
    rw [words_redactArgs, List.getElem?_map, hi, Option.map_some]
    exact congrArg some (hsecret.redactWord_iff.2 (h w (List.mem_of_getElem? hi) key value hsecret))

/-- A token whose text ends in padding is shown. -/
theorem padded_token_shown :
    redactArgs (str "token=YWJj==") = str "token=YWJj=[REDACTED]" ∧ ¬ Redacts (str "token=YWJj==") := by
  have hout : redactArgs (str "token=YWJj==") = str "token=YWJj=[REDACTED]" := by decide +kernel
  have hsecret : SecretWord (str "token=YWJj==") (str "token") (str "YWJj==") :=
    ⟨by decide +kernel, by decide +kernel, by decide +kernel, by decide +kernel⟩
  refine ⟨hout, fun h => ?_⟩
  have hword := h 0 _ _ _ (by decide +kernel) hsecret
  rw [hout] at hword
  exact absurd hword (by decide +kernel)

end Control
end Osw
