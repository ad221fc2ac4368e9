import Mathlib.Algebra.Ring.Int.Defs
import Mathlib.Algebra.Ring.Nat
import Mathlib.Data.List.TakeWhile
/-!
# Basic — byte strings and call statuses

The words every component of the module shares: `std::string` as a list of bytes, `c_str()` as what a C function reads
of it, and `grpc::Status`.

A 64-bit counter of the source is taken modulo `2 ^ 64` where a branch or a frame depends on it.  A total that is only
reported may be a plain number: the code shows it modulo `2 ^ 64`, so the two agree up to `2 ^ 64 - 1` events, and its
docstring says so.
-/
namespace Osw

/-- A `std::string`: any bytes, `NUL` included. -/
abbrev Bytes := List UInt8

instance : LawfulBEq Bytes := inferInstance

/-- A literal of the source, as its bytes. -/
def str (s : String) : Bytes := s.toUTF8.toList

/-- What a C function reads of `s.c_str()`: the bytes before the first `NUL`. -/
def cStr (s : Bytes) : Bytes := s.takeWhile (fun b => decide (b ≠ 0))

theorem cStr_of_no_nul : ∀ (s : Bytes), (∀ b ∈ s, b ≠ 0) → cStr s = s := by
  intro s h
  unfold cStr
  exact List.takeWhile_eq_self_iff.2 (fun b hb => by simpa using h b hb)

/-- `std::tolower` on one byte. -/
def toLower (b : UInt8) : UInt8 := if 65 ≤ b ∧ b ≤ 90 then b + 32 else b

/-- `std::isspace` on one byte. -/
def isSpace (b : UInt8) : Bool := b == 32 || (9 ≤ b && b ≤ 13)

theorem forall_byte {p : UInt8 → Bool} (h : ∀ n : Fin 256, p (UInt8.ofNat n) = true) (b : UInt8) : p b = true := by
  have hb := h ⟨b.toNat, b.toNat_lt⟩
  rwa [UInt8.ofNat_toNat] at hb

theorem isSpace_toLower (b : UInt8) : isSpace (toLower b) = isSpace b :=
  eq_of_beq (forall_byte (p := fun b => isSpace (toLower b) == isSpace b) (by decide +kernel) b)

theorem toLower_toLower (b : UInt8) : toLower (toLower b) = toLower b :=
  eq_of_beq (forall_byte (p := fun b => toLower (toLower b) == toLower b) (by decide +kernel) b)

/-- A string without the blanks around it. -/
def trim (s : Bytes) : Bytes := ((s.dropWhile isSpace).reverse.dropWhile isSpace).reverse

/-- The `grpc::StatusCode` values the module returns. -/
inductive StatusCode
  | ok
  | invalidArgument
  | notFound
  | alreadyExists
  | failedPrecondition
  | resourceExhausted
  | deadlineExceeded
  | unavailable
  | unimplemented
  | unauthenticated
  | unknown
  | internal
  deriving DecidableEq, Repr

/-- `grpc::Status`: a code and its message. -/
structure Status where
  code    : StatusCode
  message : Bytes
  deriving DecidableEq, Repr

/-- `grpc::Status::OK`. -/
def Status.okay : Status := ⟨.ok, []⟩

end Osw
