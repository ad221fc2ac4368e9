import OpenSwitch.Basic
/-!
# Routing — the wire scanner of serialized envelopes (`routing.cc`)

`ExtractRoutingFields` walks the protobuf records of an `EventEnvelope` and keeps the four fields a subscriber's filter
reads.  The pointer pair `p`, `end` of the source is the list of bytes still to read.
-/
namespace Osw
namespace Events

inductive Tier
  | unspecified
  | critical
  | state
  | ephemeral
  deriving DecidableEq, Repr

structure RoutingFields where
  tier         : Tier
  eventName    : Bytes
  subclassName : Bytes
  nodeId       : Bytes
  deriving DecidableEq, Repr

def RoutingFields.default : RoutingFields := ⟨.unspecified, [], [], []⟩

/-- The loop of `ReadVarint`: seven bits a byte, `out` in 64 bits, at most ten bytes. -/
def readVarintLoop (shift out : Nat) : Bytes → Option (Nat × Bytes)
  | [] => none
  | b :: p =>
    let out := out ||| (((b.toNat % 128) <<< shift) % 2 ^ 64)
    if b.toNat < 128 then some (out, p)
    else if 64 ≤ shift + 7 then none
    else readVarintLoop (shift + 7) out p

def readVarint (p : Bytes) : Option (Nat × Bytes) := readVarintLoop 0 0 p

/-- A length and that many bytes. -/
def readDelimited (p : Bytes) : Option (Bytes × Bytes) :=
  match readVarint p with
  | none => none
  | some (len, p) => if p.length < len then none else some (p.take len, p.drop len)

/-- `SkipField`: the bytes after a field of a wire type. -/
def skipField (p : Bytes) (wireType : Nat) : Option Bytes :=
  match wireType with
  | 0 => (readVarint p).map Prod.snd
  | 1 => if p.length < 8 then none else some (p.drop 8)
  | 2 => (readDelimited p).map Prod.snd
  | 5 => if p.length < 4 then none else some (p.drop 4)
  | _ => none

/-- `tier` of an enum value. -/
def tierOfWire : Nat → Tier
  | 1 => .critical
  | 2 => .state
  | 3 => .ephemeral
  | _ => .unspecified

/-- One record after its key: the fields as the record sets them, and the bytes after it; `none` where the source
breaks out of its loop. -/
def scanField (rf : RoutingFields) (fieldNum wireType : Nat) (p : Bytes) : Option (RoutingFields × Bytes) :=
  if fieldNum = 2 ∧ wireType = 0 then (readVarint p).map (fun r => ({ rf with tier := tierOfWire r.1 }, r.2))
  else if fieldNum = 3 ∧ wireType = 2 then (readDelimited p).map (fun r => ({ rf with eventName := r.1 }, r.2))
  else if fieldNum = 4 ∧ wireType = 2 then (readDelimited p).map (fun r => ({ rf with subclassName := r.1 }, r.2))
  else if fieldNum = 5 ∧ wireType = 2 then (readDelimited p).map (fun r => ({ rf with nodeId := r.1 }, r.2))
  else (skipField p wireType).map (fun p => (rf, p))

/-- The loop of `ExtractRoutingFields`; each turn reads at least the byte of a key, so a turn per byte is enough.
`static_cast<int>(key >> 3)` keeps 32 bits. -/
def scanLoop : Nat → RoutingFields → Bytes → RoutingFields
  | 0, rf, _ => rf
  | _ + 1, rf, [] => rf
  | n + 1, rf, b :: p =>
    match readVarint (b :: p) with
    | none => rf
    | some (key, p) =>
      match scanField rf (key / 8 % 2 ^ 32) (key % 8) p with
      | none => rf
      | some (rf, p) => scanLoop n rf p

def extractRoutingFields (bytes : Bytes) : RoutingFields := scanLoop bytes.length .default bytes

/-- A tier-1 envelope named `E`, with an eight-byte field the scanner skips. -/
example : extractRoutingFields [0x10, 1, 0x1a, 1, 69, 0x31, 0, 0, 0, 0, 0, 0, 0, 0, 0x2a, 1, 110]
    = ⟨.critical, [69], [], [110]⟩ := by decide +kernel

end Events
end Osw
