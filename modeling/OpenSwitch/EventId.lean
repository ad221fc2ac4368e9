import OpenSwitch.Basic
import OpenSwitch.Numeral
/-!
# Event ids (`envelope.cc`, `GenerateUuidV7`)

An id is sixteen bytes in hexadecimal: 48 bits of the clock in milliseconds, the version, twelve bits of the first random
word, the variant, and 62 bits of the second.  It is the text of one number (`value_uuidGroups`), from which the clock and
the random bits can be read, and the order of the texts is that of the numbers.
-/
namespace Osw
namespace Events

open Numeral

/-- A byte of a word: `(x >> shift) & 0xFF`. -/
def byteAt (x shift : UInt64) : UInt8 := ((x >>> shift) &&& 0xFF).toUInt8

/-- `0x70 | ((rand_a >> 8) & 0x0F)` -/
def versionByte (randA : UInt16) : UInt8 := ((0x70 : UInt16) ||| ((randA >>> 8) &&& 0x0F)).toUInt8

/-- `0x80 | ((r2 >> 56) & 0x3F)` -/
def variantByte (r2 : UInt64) : UInt8 := ((0x80 : UInt64) ||| ((r2 >>> 56) &&& 0x3F)).toUInt8

/-- `b[0]` to `b[15]`, cut where the format has its dashes. -/
def uuidGroups (ms r1 r2 : UInt64) : List (List UInt8) :=
  let tsMs := ms &&& 0x0000FFFFFFFFFFFF
  let randA := (r1 &&& 0x0FFF).toUInt16
  [ [byteAt tsMs 40, byteAt tsMs 32, byteAt tsMs 24, byteAt tsMs 16],
    [byteAt tsMs 8, byteAt tsMs 0],
    [versionByte randA, (randA &&& 0xFF).toUInt8],
    [variantByte r2, byteAt r2 48],
    [byteAt r2 40, byteAt r2 32, byteAt r2 24, byteAt r2 16, byteAt r2 8, byteAt r2 0] ]

/-- `GenerateUuidV7` at the clock `ms`, when the generator gives `r1` and `r2`. -/
def generateUuidV7 (ms r1 r2 : UInt64) : Bytes := (str "-").intercalate ((uuidGroups ms r1 r2).map hexText)

/-! ## The number of an id -/

/-- The number of an id: its digits, without the dashes. -/
def readUuid (text : Bytes) : Option Nat := readHex 0 (text.filter fun c => decide (c ≠ 45))

def uuidTime (text : Bytes) : Option Nat := (readUuid text).map fun n => n / 2 ^ 80

/-- The bits below the version and those below the variant, twelve and 62. -/
def uuidRandom (text : Bytes) : Option (Nat × Nat) := (readUuid text).map fun n => (n / 2 ^ 64 % 2 ^ 12, n % 2 ^ 62)

theorem str_dash : str "-" = [45] := by decide +kernel

theorem toNat_byteAt (x shift : UInt64) : (byteAt x shift).toNat = x.toNat / 2 ^ (shift.toNat % 64) % 256 := by
  have hand := Nat.and_two_pow_sub_one_eq_mod (x.toNat / 2 ^ (shift.toNat % 64)) 8
  rw [byteAt, UInt64.toNat_toUInt8, UInt64.toNat_and, UInt64.toNat_shiftRight, Nat.shiftRight_eq_div_pow,
    show (0xFF : UInt64).toNat = 2 ^ 8 - 1 from rfl, hand, Nat.mod_mod]

/-- A mark goes above the `i` bits that are kept. -/
theorem or_and_eq_add (a x i : Nat) : 2 ^ i * a ||| (x &&& (2 ^ i - 1)) = 2 ^ i * a + x % 2 ^ i := by
  rw [Nat.and_two_pow_sub_one_eq_mod, Nat.two_pow_add_eq_or_of_lt (Nat.mod_lt x (Nat.two_pow_pos i))]

theorem toNat_versionByte (x : UInt16) : (versionByte x).toNat = 112 + x.toNat / 2 ^ 8 % 16 := by
  have hor := or_and_eq_add 7 (x.toNat / 2 ^ 8) 4
  rw [versionByte, UInt16.toNat_toUInt8, UInt16.toNat_or, UInt16.toNat_and, UInt16.toNat_shiftRight,
    Nat.shiftRight_eq_div_pow]
  show (2 ^ 4 * 7 ||| (x.toNat / 2 ^ 8 &&& (2 ^ 4 - 1))) % 2 ^ 8 = _
  rw [hor]
  omega

theorem toNat_variantByte (x : UInt64) : (variantByte x).toNat = 128 + x.toNat / 2 ^ 56 % 64 := by
  have hor := or_and_eq_add 2 (x.toNat / 2 ^ 56) 6
  rw [variantByte, UInt64.toNat_toUInt8, UInt64.toNat_or, UInt64.toNat_and, UInt64.toNat_shiftRight,
    Nat.shiftRight_eq_div_pow]
  show (2 ^ 6 * 2 ||| (x.toNat / 2 ^ 56 &&& (2 ^ 6 - 1))) % 2 ^ 8 = _
  rw [hor]
  omega

theorem toNat_tsMs (ms : UInt64) : (ms &&& 0x0000FFFFFFFFFFFF).toNat = ms.toNat % 2 ^ 48 := by
  rw [UInt64.toNat_and, show (0x0000FFFFFFFFFFFF : UInt64).toNat = 2 ^ 48 - 1 from rfl, Nat.and_two_pow_sub_one_eq_mod]

theorem toNat_randA (r1 : UInt64) : (r1 &&& 0x0FFF).toUInt16.toNat = r1.toNat % 2 ^ 12 := by
  rw [UInt64.toNat_toUInt16, UInt64.toNat_and, show (0x0FFF : UInt64).toNat = 2 ^ 12 - 1 from rfl,
    Nat.and_two_pow_sub_one_eq_mod]
  omega

theorem toNat_lowByte (x : UInt16) : (x &&& 0xFF).toUInt8.toNat = x.toNat % 256 := by
  rw [UInt16.toNat_toUInt8, UInt16.toNat_and, show (0xFF : UInt16).toNat = 2 ^ 8 - 1 from rfl,
    Nat.and_two_pow_sub_one_eq_mod, Nat.mod_mod]

theorem value_sixBytes (n : Nat) (x : UInt64) :
    value 256 n ([byteAt x 40, byteAt x 32, byteAt x 24, byteAt x 16, byteAt x 8, byteAt x 0].map (·.toNat)) =
      n * 2 ^ 48 + x.toNat % 2 ^ 48 := by
  simp only [List.map_cons, List.map_nil, value_cons, value_nil, toNat_byteAt, UInt64.reduceToNat, Nat.reduceMod]
  omega

/-- **The number of an id**: clock, version, `rand_a`, variant, `rand_b`. -/
theorem value_uuidGroups (ms r1 r2 : UInt64) :
    value 256 0 ((uuidGroups ms r1 r2).flatten.map (·.toNat)) =
      (ms.toNat % 2 ^ 48) * 2 ^ 80 + 7 * 2 ^ 76 + (r1.toNat % 2 ^ 12) * 2 ^ 64 + 2 * 2 ^ 62 + r2.toNat % 2 ^ 62 := by
  have hcut : (uuidGroups ms r1 r2).flatten =
      [byteAt (ms &&& 0x0000FFFFFFFFFFFF) 40, byteAt (ms &&& 0x0000FFFFFFFFFFFF) 32, byteAt (ms &&& 0x0000FFFFFFFFFFFF) 24,
        byteAt (ms &&& 0x0000FFFFFFFFFFFF) 16, byteAt (ms &&& 0x0000FFFFFFFFFFFF) 8, byteAt (ms &&& 0x0000FFFFFFFFFFFF) 0] ++
      ([versionByte (r1 &&& 0x0FFF).toUInt16, ((r1 &&& 0x0FFF).toUInt16 &&& 0xFF).toUInt8, variantByte r2, byteAt r2 48] ++
      [byteAt r2 40, byteAt r2 32, byteAt r2 24, byteAt r2 16, byteAt r2 8, byteAt r2 0]) := rfl
  rw [hcut, List.map_append, List.map_append, value_append, value_append, value_sixBytes, value_sixBytes, toNat_tsMs]
  simp only [List.map_cons, List.map_nil, value_cons, value_nil, toNat_versionByte, toNat_variantByte, toNat_lowByte,
    toNat_randA, toNat_byteAt, UInt64.reduceToNat, Nat.reduceMod]
  omega

/-! ## The text of an id -/

/-- Lower-case digits in groups of eight, four, four, four and twelve, the third with the version in front, the fourth
with the bits `10`. -/
def IsUuidV7 (text : Bytes) : Prop :=
  ∃ a b c d e : Bytes, text = [45].intercalate [a, b, c, d, e] ∧
    [a, b, c, d, e].map List.length = [8, 4, 4, 4, 12] ∧ (∀ g ∈ [a, b, c, d, e], ∀ x ∈ g, isHexDigit x = true) ∧
    c.head? = some 55 ∧ ∃ x, d.head? = some x ∧ x ∈ [56, 57, 97, 98]

theorem length_uuidGroups (ms r1 r2 : UInt64) : (uuidGroups ms r1 r2).map List.length = [4, 2, 2, 2, 6] := rfl

theorem isUuidV7_generateUuidV7 (ms r1 r2 : UInt64) : IsUuidV7 (generateUuidV7 ms r1 r2) := by
  refine ⟨_, _, _, _, _, by rw [generateUuidV7, str_dash]; rfl, rfl, ?_, ?_, ?_⟩
  · intro g hg x hx
    have hmem : g ∈ (uuidGroups ms r1 r2).map hexText := hg
    obtain ⟨bs, -, rfl⟩ := List.mem_map.1 hmem
    exact isHexDigit_of_mem_hexText hx
  · have hseven : (versionByte (r1 &&& 0x0FFF).toUInt16).toNat / 16 = 7 := by
      rw [toNat_versionByte]
      omega
    rw [hexText_cons, List.head?_cons, hseven]
    rfl
  · have hrange : 8 ≤ (variantByte r2).toNat / 16 ∧ (variantByte r2).toNat / 16 < 12 := by
      rw [toNat_variantByte]
      omega
    have hdigits : ∀ n < 12, 8 ≤ n → hexDigit n ∈ [56, 57, 97, 98] := by decide
    exact ⟨_, by rw [hexText_cons, List.head?_cons], hdigits _ hrange.2 hrange.1⟩

theorem readUuid_generateUuidV7 (ms r1 r2 : UInt64) :
    readUuid (generateUuidV7 ms r1 r2) = some (value 256 0 ((uuidGroups ms r1 r2).flatten.map (·.toNat))) := by
  have hdash : ∀ g ∈ (uuidGroups ms r1 r2).map hexText, (45 : UInt8) ∉ g := by
    intro g hg hmem
    obtain ⟨bs, -, rfl⟩ := List.mem_map.1 hg
    exact absurd (isHexDigit_of_mem_hexText hmem) (by decide)
  rw [readUuid, generateUuidV7, str_dash, filter_intercalate hdash, flatten_map_hexText, readHex_hexText]

/-- `std::string` compares byte by byte. -/
def Before (s t : Bytes) : Prop := List.Lex (fun x y => x < y) s t

/-- **The order of the texts is the order of the numbers.** -/
theorem before_generateUuidV7_iff (ms r1 r2 ms' r1' r2' : UInt64) :
    Before (generateUuidV7 ms r1 r2) (generateUuidV7 ms' r1' r2') ↔
      value 256 0 ((uuidGroups ms r1 r2).flatten.map (·.toNat)) <
        value 256 0 ((uuidGroups ms' r1' r2').flatten.map (·.toNat)) := by
  have hgroups : ((uuidGroups ms r1 r2).map hexText).map List.length
      = ((uuidGroups ms' r1' r2').map hexText).map List.length := by
    rw [length_hexTexts, length_hexTexts, length_uuidGroups, length_uuidGroups]
  have hlen : (uuidGroups ms r1 r2).flatten.length = (uuidGroups ms' r1' r2').flatten.length := by
    rw [List.length_flatten, List.length_flatten, length_uuidGroups, length_uuidGroups]
  rw [Before, generateUuidV7, generateUuidV7, lex_intercalate_iff (r := fun x y => x < y) UInt8.lt_irrefl _ hgroups,
    flatten_map_hexText, flatten_map_hexText, lex_hexText_iff hlen]

/-- **Ids are version 7 ids from which clock and random bits can be read, and they stand in the order of the clock.** -/
theorem generateUuidV7_time_ordered (ms r1 r2 : UInt64) (h : ms.toNat < 2 ^ 48) :
    IsUuidV7 (generateUuidV7 ms r1 r2) ∧ uuidTime (generateUuidV7 ms r1 r2) = some ms.toNat ∧
    uuidRandom (generateUuidV7 ms r1 r2) = some (r1.toNat % 2 ^ 12, r2.toNat % 2 ^ 62) ∧
    ∀ ms' r1' r2' : UInt64, ms'.toNat < 2 ^ 48 → ms ≠ ms' →
      (Before (generateUuidV7 ms r1 r2) (generateUuidV7 ms' r1' r2') ↔ ms < ms') := by
  refine ⟨isUuidV7_generateUuidV7 ms r1 r2, ?_, ?_, ?_⟩
  · rw [uuidTime, readUuid_generateUuidV7, value_uuidGroups, Option.map_some, Option.some.injEq]
    omega
  · rw [uuidRandom, readUuid_generateUuidV7, value_uuidGroups, Option.map_some, Option.some.injEq, Prod.mk.injEq]
    omega
  · intro ms' r1' r2' h' hne
    have hne' : ms.toNat ≠ ms'.toNat := fun heq => hne (UInt64.toNat_inj.1 heq)
    rw [before_generateUuidV7_iff, value_uuidGroups, value_uuidGroups, UInt64.lt_iff_toNat_lt, Nat.mod_eq_of_lt h,
      Nat.mod_eq_of_lt h']
    omega

theorem generateUuidV7_time_ordered_at_one :
    uuidTime (generateUuidV7 1 0 0) = some 1 ∧ Before (generateUuidV7 1 0 0) (generateUuidV7 2 0 0) :=
  have hone := generateUuidV7_time_ordered 1 0 0 (by decide)
  ⟨hone.2.1, (hone.2.2.2 2 0 0 (by decide) (by decide)).2 (by decide)⟩

end Events
end Osw
