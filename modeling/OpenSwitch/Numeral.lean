import Mathlib.Data.Nat.Digits.Defs
import Mathlib.Tactic.Ring
/-!
# Numeral — digits in their places, and the order of texts

A numeral is its digits, the highest first, read from left to right: `value b n ds` is what a loop has that starts at `n`
and takes in one digit after the other.  Two numerals of one length stand in the order of their values, whatever the base
(`lex_iff_value_lt`), and so do their hexadecimal texts, since the digits are in order there (`lex_hexText_iff`) and
separators at the same places change nothing (`lex_intercalate_iff`).
-/
namespace Osw
namespace Numeral

/-! ## Values -/

/-- The number read so far is `n`; then come the digits `ds`. -/
def value (b n : Nat) (ds : List Nat) : Nat := ds.foldl (fun m d => m * b + d) n

@[simp] theorem value_nil (b n : Nat) : value b n [] = n := rfl

@[simp] theorem value_cons (b n d : Nat) (ds : List Nat) : value b n (d :: ds) = value b (n * b + d) ds := rfl

theorem value_append (b n : Nat) (ds es : List Nat) : value b n (ds ++ es) = value b (value b n ds) es :=
  List.foldl_append

/-- What was read before only adds its multiple. -/
theorem value_eq (b n : Nat) (ds : List Nat) : value b n ds = n * b ^ ds.length + value b 0 ds := by
  induction ds generalizing n with
  | nil => simp
  | cons d ds ih =>
    rw [value_cons, value_cons, ih, ih (0 * b + d), List.length_cons]
    ring

variable {b : Nat} {ds : List Nat}

theorem le_value (hb : 0 < b) (n : Nat) (ds : List Nat) : n ≤ value b n ds := by
  have hle : n * 1 ≤ n * b ^ ds.length := Nat.mul_le_mul_left n (Nat.pow_pos hb)
  rw [value_eq]
  omega

theorem value_eq_ofDigits (b : Nat) (ds : List Nat) : value b 0 ds = Nat.ofDigits b ds.reverse := by
  rw [Nat.ofDigits_eq_foldr, List.foldr_reverse, value]
  simp only [Nat.cast_id, Nat.mul_comm, Nat.add_comm]

theorem value_lt (hb : 1 < b) (h : ∀ d ∈ ds, d < b) : value b 0 ds < b ^ ds.length := by
  rw [value_eq_ofDigits, ← List.length_reverse]
  exact Nat.ofDigits_lt_base_pow_length hb fun d hd => h d (List.mem_reverse.1 hd)

/-! ## The order of texts -/

variable {α β : Type} {r : α → α → Prop}

/-- Texts that start with as many letters are compared there first. -/
theorem lex_append_iff {a b : List α} (c d : List α) (h : a.length = b.length) :
    List.Lex r (a ++ c) (b ++ d) ↔ List.Lex r a b ∨ a = b ∧ List.Lex r c d := by
  induction a generalizing b with
  | nil =>
    cases b with
    | nil => simp
    | cons y b => cases h
  | cons x a ih =>
    cases b with
    | nil => cases h
    | cons y b =>
      have hlen : a.length = b.length := Nat.succ.inj h
      simp only [List.cons_append, List.cons_lex_cons_iff, ih hlen, List.cons.injEq, and_or_left, or_assoc, and_assoc]

/-- Letters written by a function that keeps their order. -/
theorem lex_map_iff {s : β → β → Prop} {f : α → β} {a b : List α} (hs : ∀ x ∈ a, ∀ y ∈ b, s (f x) (f y) ↔ r x y)
    (hf : ∀ x ∈ a, ∀ y ∈ b, f x = f y ↔ x = y) : List.Lex s (a.map f) (b.map f) ↔ List.Lex r a b := by
  induction a generalizing b with
  | nil => cases b <;> simp
  | cons x a ih =>
    cases b with
    | nil => simp
    | cons y b =>
      have hrest := ih (b := b) (fun u hu v hv => hs u (List.mem_cons_of_mem x hu) v (List.mem_cons_of_mem y hv))
        (fun u hu v hv => hf u (List.mem_cons_of_mem x hu) v (List.mem_cons_of_mem y hv))
      simp only [List.map_cons, List.cons_lex_cons_iff, hrest, hs x List.mem_cons_self y List.mem_cons_self,
        hf x List.mem_cons_self y List.mem_cons_self]

theorem not_lex_self (hr : ∀ x, ¬r x x) (a : List α) : ¬List.Lex r a a := by
  induction a with
  | nil => simp
  | cons x a ih => simp [List.cons_lex_cons_iff, hr x, ih]

/-- Separators at the same places do not change the order. -/
theorem lex_intercalate_iff (hr : ∀ x, ¬r x x) (sep : List α) {gs hs : List (List α)}
    (h : gs.map List.length = hs.map List.length) :
    List.Lex r (sep.intercalate gs) (sep.intercalate hs) ↔ List.Lex r gs.flatten hs.flatten := by
  induction gs generalizing hs with
  | nil =>
    cases hs with
    | nil => simp [not_lex_self hr]
    | cons y hs => cases h
  | cons x gs ih =>
    cases hs with
    | nil => cases h
    | cons y hs =>
      obtain ⟨hlen, hrest⟩ := List.cons.inj h
      have hnext := ih hrest
      cases gs with
      | nil =>
        cases hs with
        | nil => simp
        | cons z hs => cases hrest
      | cons x' gs =>
        cases hs with
        | nil => cases hrest
        | cons y' hs =>
          rw [List.intercalate_cons_cons, List.intercalate_cons_cons, List.append_assoc, List.append_assoc,
            lex_append_iff _ _ hlen, lex_append_iff _ _ rfl, hnext, @List.flatten_cons _ x,
            @List.flatten_cons _ y, lex_append_iff _ _ hlen]
          simp only [not_lex_self hr, false_or, true_and]

/-- **Numerals of one length stand in the order of their values.** -/
theorem lex_iff_value_lt (hb : 1 < b) {es : List Nat} (hlen : ds.length = es.length) (hd : ∀ d ∈ ds, d < b)
    (he : ∀ e ∈ es, e < b) : List.Lex (fun x y => x < y) ds es ↔ value b 0 ds < value b 0 es := by
  induction ds generalizing es with
  | nil =>
    cases es with
    | nil => simp
    | cons e es => cases hlen
  | cons d ds ih =>
    cases es with
    | nil => cases hlen
    | cons e es =>
      have hlen' : ds.length = es.length := Nat.succ.inj hlen
      have hds := fun x hx => hd x (List.mem_cons_of_mem d hx)
      have hes := fun x hx => he x (List.mem_cons_of_mem e hx)
      have hdv := value_lt hb hds
      have hev := value_lt hb hes
      rw [List.cons_lex_cons_iff, ih hlen' hds hes, value_cons, value_cons, value_eq b (0 * b + d), value_eq b (0 * b + e),
        Nat.zero_mul, Nat.zero_add, Nat.zero_add, ← hlen']
      rw [← hlen'] at hev
      -- the first digit decides, as what follows is less than one of its units
      rcases Nat.lt_trichotomy d e with h | h | h
      · have hstep : (d + 1) * b ^ ds.length ≤ e * b ^ ds.length := Nat.mul_le_mul_right _ h
        rw [Nat.succ_mul] at hstep
        simp only [h, true_or, true_iff]
        omega
      · subst h
        simp
      · have hstep : (e + 1) * b ^ ds.length ≤ d * b ^ ds.length := Nat.mul_le_mul_right _ h
        rw [Nat.succ_mul] at hstep
        simp only [Nat.lt_asymm h, Nat.ne_of_gt h, false_and, or_false, false_iff]
        omega

/-! ## Hexadecimal texts -/

def hexDigit (n : Nat) : UInt8 := UInt8.ofNat (if n < 10 then 48 + n else 87 + n)

/-- The two digits of each byte. -/
def nibbles (bs : List UInt8) : List Nat := bs.flatMap fun b => [b.toNat / 16, b.toNat % 16]

def hexText (bs : List UInt8) : List UInt8 := (nibbles bs).map hexDigit

def isHexDigit (c : UInt8) : Bool := (48 ≤ c && c ≤ 57) || (97 ≤ c && c ≤ 102)

def hexValue (c : UInt8) : Option Nat :=
  if 48 ≤ c ∧ c ≤ 57 then some (c.toNat - 48) else if 97 ≤ c ∧ c ≤ 102 then some (c.toNat - 87) else none

/-- The number of a hexadecimal text, after `n`. -/
def readHex : Nat → List UInt8 → Option Nat
  | n, []      => some n
  | n, c :: cs => (hexValue c).bind fun d => readHex (n * 16 + d) cs

theorem nibbles_lt (bs : List UInt8) : ∀ d ∈ nibbles bs, d < 16 := by
  intro d hd
  obtain ⟨b, -, hb⟩ := List.mem_flatMap.1 hd
  have hlt := b.toNat_lt
  simp only [List.mem_cons, List.not_mem_nil, or_false] at hb
  omega

theorem length_nibbles (bs : List UInt8) : (nibbles bs).length = 2 * bs.length := by
  induction bs with
  | nil => rfl
  | cons b bs ih =>
    rw [nibbles, List.flatMap_cons, List.length_append, ← nibbles, ih, List.length_cons]
    simp only [List.length_cons, List.length_nil]
    omega

theorem length_hexText (bs : List UInt8) : (hexText bs).length = 2 * bs.length := by
  rw [hexText, List.length_map, length_nibbles]

theorem length_hexTexts (gs : List (List UInt8)) :
    (gs.map hexText).map List.length = (gs.map List.length).map (2 * ·) := by
  rw [List.map_map, List.map_map]
  exact List.map_congr_left fun g _ => length_hexText g

theorem hexText_cons (b : UInt8) (bs : List UInt8) :
    hexText (b :: bs) = hexDigit (b.toNat / 16) :: hexDigit (b.toNat % 16) :: hexText bs := rfl

theorem value_nibbles (n : Nat) (bs : List UInt8) : value 16 n (nibbles bs) = value 256 n (bs.map (·.toNat)) := by
  induction bs generalizing n with
  | nil => rfl
  | cons b bs ih =>
    rw [nibbles, List.flatMap_cons, value_append, ← nibbles, ih, List.map_cons, value_cons, value_cons, value_cons, value_nil]
    congr 1
    omega

theorem hexDigit_facts : ∀ n < 16, isHexDigit (hexDigit n) = true ∧ hexValue (hexDigit n) = some n := by decide

theorem hexDigit_lt_iff : ∀ m < 16, ∀ n < 16, (hexDigit m < hexDigit n ↔ m < n) ∧ (hexDigit m = hexDigit n ↔ m = n) := by
  decide

theorem isHexDigit_of_mem_hexText {bs : List UInt8} {c : UInt8} (h : c ∈ hexText bs) : isHexDigit c = true := by
  obtain ⟨d, hd, rfl⟩ := List.mem_map.1 h
  exact (hexDigit_facts d (nibbles_lt bs d hd)).1

theorem readHex_map_hexDigit (n : Nat) (h : ∀ d ∈ ds, d < 16) : readHex n (ds.map hexDigit) = some (value 16 n ds) := by
  induction ds generalizing n with
  | nil => rfl
  | cons d ds ih =>
    rw [List.map_cons, readHex, (hexDigit_facts d (h d List.mem_cons_self)).2, Option.bind_some, value_cons,
      ih _ fun x hx => h x (List.mem_cons_of_mem d hx)]

/-- **A hexadecimal text is read back** as the number of its bytes. -/
theorem readHex_hexText (bs : List UInt8) : readHex 0 (hexText bs) = some (value 256 0 (bs.map (·.toNat))) := by
  rw [hexText, readHex_map_hexDigit 0 (nibbles_lt bs), value_nibbles]

/-- **Hexadecimal texts of one length stand in the order of their numbers.** -/
theorem lex_hexText_iff {bs cs : List UInt8} (h : bs.length = cs.length) :
    List.Lex (fun x y => x < y) (hexText bs) (hexText cs) ↔
      value 256 0 (bs.map (·.toNat)) < value 256 0 (cs.map (·.toNat)) := by
  have hb := nibbles_lt bs
  have hc := nibbles_lt cs
  have hlen : (nibbles bs).length = (nibbles cs).length := by rw [length_nibbles, length_nibbles, h]
  rw [hexText, hexText, lex_map_iff (r := fun x y => x < y) (fun x hx y hy => (hexDigit_lt_iff x (hb x hx) y (hc y hy)).1)
    (fun x hx y hy => (hexDigit_lt_iff x (hb x hx) y (hc y hy)).2), lex_iff_value_lt (by decide) hlen hb hc, value_nibbles,
    value_nibbles]

theorem flatten_map_hexText (gs : List (List UInt8)) : (gs.map hexText).flatten = hexText gs.flatten := by
  induction gs with
  | nil => rfl
  | cons g gs ih =>
    rw [List.map_cons, List.flatten_cons, ih, List.flatten_cons]
    simp only [hexText, nibbles, List.flatMap_append, List.map_append]

/-- The separators taken out again. -/
theorem filter_intercalate {sep : UInt8} {gs : List (List UInt8)} (h : ∀ g ∈ gs, sep ∉ g) :
    ([sep].intercalate gs).filter (fun c => decide (c ≠ sep)) = gs.flatten := by
  have hfilter : ∀ g ∈ gs, g.filter (fun c => decide (c ≠ sep)) = g := by
    intro g hg
    rw [List.filter_eq_self]
    intro c hc
    exact decide_eq_true fun he => h g hg (he ▸ hc)
  induction gs with
  | nil => rfl
  | cons g gs ih =>
    have hrest := ih (fun x hx => h x (List.mem_cons_of_mem g hx)) (fun x hx => hfilter x (List.mem_cons_of_mem g hx))
    have hg := hfilter g List.mem_cons_self
    cases gs with
    | nil => simpa using hg
    | cons g' gs =>
      rw [List.intercalate_cons_cons, List.filter_append, List.filter_append, hrest, hg, List.flatten_cons]
      simp

end Numeral
end Osw
