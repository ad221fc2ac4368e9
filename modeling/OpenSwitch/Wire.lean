import Mathlib.Algebra.Ring.Nat
import Mathlib.Tactic.Push
/-!
# Wire — the records of the protocol-buffer wire format

A message on the wire is a sequence of records: a key, which is a field number and a wire type, and a payload of that
type.  The writer's side of the format comes first, with what a reader needs of it: a varint is its low seven bits and
the varint of the rest (`varintLoop_succ`), and every record starts with a byte (`Record.encode_ne_nil`).  The reader's
side is a grammar, since a reader meets more than a writer writes: varints that are not the shortest, keys of any size,
and bytes that are no records.  Every string of bytes is records up to its end or up to bytes that a reader cannot get
past (`exists_leading`).
-/
namespace Osw
namespace Wire

/-- Base 128, the low seven bits first, the top bit set on every byte but the last. -/
def varintLoop : Nat → Nat → List UInt8
  | 0, _ => []
  | k + 1, n => if n < 128 then [UInt8.ofNat n] else UInt8.ofNat (n % 128 + 128) :: varintLoop k (n / 128)

/-- Ten bytes hold 64 bits. -/
def varint (v : BitVec 64) : List UInt8 := varintLoop 10 v.toNat

theorem varintLoop_succ (k n : Nat) : varintLoop (k + 1) n =
    if n < 128 then [UInt8.ofNat n] else UInt8.ofNat (n % 128 + 128) :: varintLoop k (n / 128) := rfl

theorem varint_ne_nil (v : BitVec 64) : varint v ≠ [] := by
  rw [varint, varintLoop_succ]
  split <;> exact List.cons_ne_nil _ _

def littleEndian : Nat → Nat → List UInt8
  | 0, _ => []
  | k + 1, n => UInt8.ofNat (n % 256) :: littleEndian k (n / 256)

theorem length_littleEndian : ∀ k n : Nat, (littleEndian k n).length = k
  | 0, _ => rfl
  | k + 1, n => by rw [littleEndian, List.length_cons, length_littleEndian k]

/-- The payload of a record, of one of the four wire types in use. -/
inductive Payload
  | varint (v : BitVec 64)
  | fixed64 (v : BitVec 64)
  | bytes (b : List UInt8)
  | fixed32 (v : BitVec 32)
  deriving DecidableEq, Repr

namespace Payload

def wireType : Payload → Nat
  | .varint _  => 0
  | .fixed64 _ => 1
  | .bytes _   => 2
  | .fixed32 _ => 5

def encode : Payload → List UInt8
  | .varint v  => Wire.varint v
  | .fixed64 v => littleEndian 8 v.toNat
  | .bytes b   => Wire.varint (BitVec.ofNat 64 b.length) ++ b
  | .fixed32 v => littleEndian 4 v.toNat

end Payload

/-- A record; field numbers have 29 bits. -/
structure Record where
  number    : Nat
  number_lt : number < 2 ^ 29
  payload   : Payload
  deriving DecidableEq, Repr

namespace Record

def key (r : Record) : Nat := 8 * r.number + r.payload.wireType

theorem key_lt (r : Record) : r.key < 2 ^ 64 := by
  have := r.number_lt
  have : r.payload.wireType < 8 := by cases r.payload <;> simp [Payload.wireType]
  unfold key
  omega

def encode (r : Record) : List UInt8 := varint (BitVec.ofNat 64 r.key) ++ r.payload.encode

theorem encode_ne_nil (r : Record) : r.encode ≠ [] :=
  List.append_ne_nil_of_left_ne_nil (varint_ne_nil _) _

end Record

/-- The bytes of a message. -/
def encode (rs : List Record) : List UInt8 := rs.flatMap Record.encode

/-! ## Fields without presence: the default value is not written -/

def varintField (n : Nat) (h : n < 2 ^ 29) (v : BitVec 64) : List Record := if v = 0 then [] else [⟨n, h, .varint v⟩]

def bytesField (n : Nat) (h : n < 2 ^ 29) (b : List UInt8) : List Record := if b = [] then [] else [⟨n, h, .bytes b⟩]

variable {n : Nat} {b : List UInt8}

theorem mem_varintField {h : n < 2 ^ 29} {v : BitVec 64} {r : Record} :
    r ∈ varintField n h v ↔ v ≠ 0 ∧ r = ⟨n, h, .varint v⟩ := by
  unfold varintField
  split <;> simp_all

theorem mem_bytesField {h : n < 2 ^ 29} {r : Record} : r ∈ bytesField n h b ↔ b ≠ [] ∧ r = ⟨n, h, .bytes b⟩ := by
  unfold bytesField
  split <;> simp_all

/-- A field whose number no record of the message carries has its default value. -/
theorem varint_of_absent {h : n < 2 ^ 29} {v : BitVec 64} {rs : List Record} (hsub : ∀ r ∈ varintField n h v, r ∈ rs)
    (habs : n ∉ rs.map (·.number)) : v = 0 :=
  Decidable.byContradiction (fun hv => habs (List.mem_map_of_mem (hsub _ (mem_varintField.2 ⟨hv, rfl⟩))))

theorem bytes_of_absent {h : n < 2 ^ 29} {rs : List Record} (hsub : ∀ r ∈ bytesField n h b, r ∈ rs)
    (habs : n ∉ rs.map (·.number)) : b = [] :=
  Decidable.byContradiction (fun hb => habs (List.mem_map_of_mem (hsub _ (mem_bytesField.2 ⟨hb, rfl⟩))))

/-! ## The reader's side -/

/-- The number that the bytes of a varint stand for. -/
def varintValue : List UInt8 → Nat
  | [] => 0
  | b :: bs => b.toNat % 128 + 128 * varintValue bs

/-- A varint of at most `k` bytes, the shortest one for its number or not. -/
def isVarint : Nat → List UInt8 → Bool
  | 0, _ => false
  | _ + 1, [] => false
  | k + 1, b :: bs => if b.toNat < 128 then bs.isEmpty else isVarint k bs

theorem isVarint_ne_nil : ∀ {k : Nat} {bs : List UInt8}, isVarint k bs = true → bs ≠ []
  | _ + 1, _ :: _, _ => List.cons_ne_nil _ _

/-- A payload as it is read: a varint as its value in 64 bits, the others as their bytes. -/
inductive RawPayload
  | varint (v : Nat)
  | fixed64 (b : List UInt8)
  | bytes (b : List UInt8)
  | fixed32 (b : List UInt8)
  deriving DecidableEq, Repr

/-- A record as it is read. -/
structure RawRecord where
  number  : Nat
  payload : RawPayload
  deriving DecidableEq, Repr

/-- The payloads of a wire type, and their bytes. -/
inductive IsPayload : Nat → RawPayload → List UInt8 → Prop
  | varint {bs : List UInt8} : isVarint 10 bs = true → IsPayload 0 (.varint (varintValue bs % 2 ^ 64)) bs
  | fixed64 {b : List UInt8} : b.length = 8 → IsPayload 1 (.fixed64 b) b
  | bytes {bs b : List UInt8} : isVarint 10 bs = true → varintValue bs % 2 ^ 64 = b.length →
      IsPayload 2 (.bytes b) (bs ++ b)
  | fixed32 {b : List UInt8} : b.length = 4 → IsPayload 5 (.fixed32 b) b

/-- A record and its bytes.  What makes one is the wire type: a key beyond 32 bits and the field number 0, which protobuf
itself refuses, count as records here, as they do for a reader that only looks at the wire type. -/
inductive IsRecord : RawRecord → List UInt8 → Prop
  | mk {ks bs : List UInt8} {p : RawPayload} : isVarint 10 ks = true →
      IsPayload (varintValue ks % 2 ^ 64 % 8) p bs → IsRecord ⟨varintValue ks % 2 ^ 64 / 8, p⟩ (ks ++ bs)

theorem IsRecord.ne_nil {r : RawRecord} (h : IsRecord r b) : b ≠ [] := by
  cases h with
  | mk hk _ => exact List.append_ne_nil_of_left_ne_nil (isVarint_ne_nil hk) _

inductive AreRecords : List RawRecord → List UInt8 → Prop
  | nil : AreRecords [] []
  | cons {r : RawRecord} {rs : List RawRecord} {b bs : List UInt8} : IsRecord r b → AreRecords rs bs →
      AreRecords (r :: rs) (b ++ bs)

/-- A complete sequence of records. -/
def WellFormed (bs : List UInt8) : Prop := ∃ rs, AreRecords rs bs

/-- There are bytes, and no record starts here. -/
def Stuck (bs : List UInt8) : Prop := bs ≠ [] ∧ ∀ r b rest, IsRecord r b → bs ≠ b ++ rest

/-- **Bytes are records up to their end or up to where a reader is stuck.** -/
theorem exists_leading (bs : List UInt8) :
    ∃ rs lead rest, bs = lead ++ rest ∧ AreRecords rs lead ∧ (rest = [] ∨ Stuck rest) := by
  induction hn : bs.length using Nat.strongRecOn generalizing bs with
  | ind n ih =>
    by_cases hnil : bs = []
    · exact ⟨[], [], [], hnil, .nil, .inl rfl⟩
    by_cases hstuck : Stuck bs
    · exact ⟨[], [], bs, rfl, .nil, .inr hstuck⟩
    · rw [Stuck, not_and] at hstuck
      have hsome := hstuck hnil
      push Not at hsome
      obtain ⟨r, b, rest, hr, rfl⟩ := hsome
      have hpos : 0 < b.length := List.length_pos_iff.2 hr.ne_nil
      rw [List.length_append] at hn
      obtain ⟨rs, lead, rest', rfl, hrs, hend⟩ := ih rest.length (by omega) rest rfl
      exact ⟨r :: rs, b ++ lead, rest', by rw [List.append_assoc], .cons hr hrs, hend⟩

end Wire
end Osw
