import Mathlib.Data.List.Perm.Basic
import OpenSwitch.Routing
import OpenSwitch.Wire
/-!
# Envelope — the routing scanner reads what protobuf writes (`events.proto`, `routing.cc`)

An `EventEnvelope` is its records on the wire, default values left out, in any order.  The scanner goes over them one
by one and takes the four fields it knows; so on every serialization of an envelope it gives the fields of the envelope
(`extractRoutingFields_serialized`).
-/
namespace Osw
namespace Events

/-- `google.protobuf.Timestamp`. -/
structure Timestamp where
  seconds : BitVec 64
  nanos   : BitVec 32
  deriving DecidableEq, Repr

/-- `open_switch.events.v1.EventEnvelope`.  `tier` is the enum's number; `unknown` are fields of a later schema. -/
structure EventEnvelope where
  eventId        : Bytes
  tier           : BitVec 32
  eventName      : Bytes
  subclassName   : Bytes
  nodeId         : Bytes
  emittedAt      : Option Timestamp
  seq            : BitVec 64
  tenantId       : Bytes
  traceparent    : Bytes
  channelUuid    : Bytes
  vars           : List (Bytes × Bytes)
  headers        : List (Bytes × Bytes)
  body           : Bytes
  schemaVersion  : BitVec 32
  unknown        : List Wire.Record
  unknown_number : ∀ r ∈ unknown, 15 ≤ r.number

/-- Signed 32-bit values, enums among them, are extended to 64 bits on the wire. -/
def Timestamp.records (t : Timestamp) : List Wire.Record :=
  Wire.varintField 1 (by decide) t.seconds ++ Wire.varintField 2 (by decide) (t.nanos.signExtend 64)

/-- An entry of a map is a message of its own; key and value are always written. -/
def mapEntry (e : Bytes × Bytes) : Bytes :=
  Wire.encode [⟨1, by decide, .bytes e.1⟩, ⟨2, by decide, .bytes e.2⟩]

namespace EventEnvelope

/-- The records of an envelope. -/
def records (e : EventEnvelope) : List Wire.Record :=
  Wire.bytesField 1 (by decide) e.eventId ++
  Wire.varintField 2 (by decide) (e.tier.signExtend 64) ++
  Wire.bytesField 3 (by decide) e.eventName ++
  Wire.bytesField 4 (by decide) e.subclassName ++
  Wire.bytesField 5 (by decide) e.nodeId ++
  e.emittedAt.toList.map (fun t => ⟨6, by decide, .bytes (Wire.encode t.records)⟩) ++
  Wire.varintField 7 (by decide) e.seq ++
  Wire.bytesField 8 (by decide) e.tenantId ++
  Wire.bytesField 9 (by decide) e.traceparent ++
  Wire.bytesField 10 (by decide) e.channelUuid ++
  e.vars.map (fun m => ⟨11, by decide, .bytes (mapEntry m)⟩) ++
  e.headers.map (fun m => ⟨12, by decide, .bytes (mapEntry m)⟩) ++
  Wire.bytesField 13 (by decide) e.body ++
  Wire.varintField 14 (by decide) (e.schemaVersion.setWidth 64) ++
  e.unknown

/-- The fields the scanner is to find. -/
def routing (e : EventEnvelope) : RoutingFields where
  tier := if e.tier = 1 then .critical else if e.tier = 2 then .state else if e.tier = 3 then .ephemeral else .unspecified
  eventName := e.eventName
  subclassName := e.subclassName
  nodeId := e.nodeId

end EventEnvelope

/-- A serialization of an envelope: its records, in some order.  The bytes fit a string. -/
structure Serialization (e : EventEnvelope) where
  records : List Wire.Record
  perm    : records.Perm e.records
  size    : (Wire.encode records).length < 2 ^ 64

def Serialization.bytes {e : EventEnvelope} (w : Serialization e) : Bytes := Wire.encode w.records

/-- The serialization that has the fields in the order of their numbers. -/
def EventEnvelope.serialize (e : EventEnvelope) (h : (Wire.encode e.records).length < 2 ^ 64) : Serialization e :=
  ⟨e.records, .refl _, h⟩

/-! ## The readers after the writers -/

theorem or_shiftLeft {out shift b : Nat} (hout : out < 2 ^ shift) (hb : b * 2 ^ shift < 2 ^ 64) :
    out ||| ((b <<< shift) % 2 ^ 64) = out + b * 2 ^ shift := by
  have hor := Nat.two_pow_add_eq_or_of_lt hout b
  rw [Nat.shiftLeft_eq, Nat.mod_eq_of_lt hb, Nat.or_comm, Nat.mul_comm b, ← hor, Nat.add_comm]

theorem toNat_byte {n : Nat} (h : n < 256) : (UInt8.ofNat n).toNat = n := by
  rw [UInt8.toNat_ofNat']
  omega

theorem readVarintLoop_last {out shift n : Nat} (rest : Bytes) (hlt : n < 128) (hout : out < 2 ^ shift)
    (hn : n * 2 ^ shift < 2 ^ 64) :
    readVarintLoop shift out (UInt8.ofNat n :: rest) = some (out + n * 2 ^ shift, rest) := by
  rw [readVarintLoop]
  simp only [toNat_byte (Nat.lt_of_lt_of_le hlt (by decide)), Nat.mod_eq_of_lt hlt, if_pos hlt, or_shiftLeft hout hn]

/-- `ReadVarint` after the writer, in the middle of its loop: `out` holds the bits below `shift`. -/
theorem readVarintLoop_varintLoop (rest : Bytes) : ∀ (k shift out n : Nat), shift + 7 * (k + 1) = 70 → out < 2 ^ shift →
    n * 2 ^ shift < 2 ^ 64 →
      readVarintLoop shift out (Wire.varintLoop (k + 1) n ++ rest) = some (out + n * 2 ^ shift, rest) := by
  intro k
  induction k with
  | zero =>
    intro shift out n hk hout hn
    obtain rfl : shift = 63 := by omega
    have hlt : n < 128 := by omega
    rw [Wire.varintLoop_succ, if_pos hlt]
    exact readVarintLoop_last rest hlt hout hn
  | succ k ih =>
    intro shift out n hk hout hn
    rw [Wire.varintLoop_succ]
    split
    · rename_i hlt
      exact readVarintLoop_last rest hlt hout hn
    · rename_i hge
      have hb : (UInt8.ofNat (n % 128 + 128)).toNat = n % 128 + 128 := toNat_byte (by omega)
      have hsplit : n * 2 ^ shift = n % 128 * 2 ^ shift + n / 128 * 2 ^ (shift + 7) := by
        rw [Nat.pow_add, Nat.mul_comm (2 ^ shift), ← Nat.mul_assoc, ← Nat.add_mul]
        congr 1
        omega
      have hlow : n % 128 * 2 ^ shift < 2 ^ 64 := by omega
      have hhigh : n / 128 * 2 ^ (shift + 7) < 2 ^ 64 := by omega
      have hout' : out + n % 128 * 2 ^ shift < 2 ^ (shift + 7) := by
        have : n % 128 * 2 ^ shift ≤ 127 * 2 ^ shift := Nat.mul_le_mul_right _ (by omega)
        rw [Nat.pow_add]
        omega
      -- a byte follows, so there is room for it
      have hroom : ¬ 64 ≤ shift + 7 := fun h64 => by
        have h1 : 1 ≤ n / 128 := by omega
        have h2 : 2 ^ 64 ≤ 2 ^ (shift + 7) := Nat.pow_le_pow_right (by decide) h64
        have h3 : 1 * 2 ^ (shift + 7) ≤ n / 128 * 2 ^ (shift + 7) := Nat.mul_le_mul_right _ h1
        omega
      rw [List.cons_append, readVarintLoop]
      simp only [hb, Nat.add_mod_right, Nat.mod_mod, or_shiftLeft hout hlow, if_neg hroom]
      rw [if_neg (by omega), ih (shift + 7) _ (n / 128) (by omega) hout' hhigh, hsplit, Nat.add_assoc]

theorem readVarint_varint (v : BitVec 64) (rest : Bytes) : readVarint (Wire.varint v ++ rest) = some (v.toNat, rest) := by
  have := readVarintLoop_varintLoop rest 9 0 0 v.toNat rfl (by decide) (by rw [Nat.pow_zero, Nat.mul_one]; exact v.isLt)
  rw [Nat.pow_zero, Nat.mul_one, Nat.zero_add] at this
  exact this

theorem readDelimited_bytes {b : Bytes} (hb : b.length < 2 ^ 64) (rest : Bytes) :
    readDelimited ((Wire.Payload.bytes b).encode ++ rest) = some (b, rest) := by
  have hlen : (BitVec.ofNat 64 b.length).toNat = b.length := by
    rw [BitVec.toNat_ofNat, Nat.mod_eq_of_lt hb]
  rw [readDelimited, Wire.Payload.encode, List.append_assoc, readVarint_varint, hlen]
  simp

theorem skip_fixed {x : Bytes} {k : Nat} (hx : x.length = k) (rest : Bytes) :
    (if (x ++ rest).length < k then none else some ((x ++ rest).drop k)) = some rest := by
  rw [List.length_append, if_neg (by omega), List.drop_left' hx]

theorem skipField_encode (p : Wire.Payload) (hp : p.encode.length < 2 ^ 64) (rest : Bytes) :
    skipField (p.encode ++ rest) p.wireType = some rest := by
  cases p with
  | varint v =>
    change (readVarint (Wire.varint v ++ rest)).map Prod.snd = some rest
    rw [readVarint_varint]
    rfl
  | fixed64 v => exact skip_fixed (Wire.length_littleEndian 8 v.toNat) rest
  | bytes b =>
    have hb : b.length < 2 ^ 64 := by
      rw [Wire.Payload.encode, List.length_append] at hp
      omega
    change (readDelimited ((Wire.Payload.bytes b).encode ++ rest)).map Prod.snd = some rest
    rw [readDelimited_bytes hb]
    rfl
  | fixed32 v => exact skip_fixed (Wire.length_littleEndian 4 v.toNat) rest

/-! ## The scanner over the records -/

/-- What a record sets. -/
def route (rf : RoutingFields) (r : Wire.Record) : RoutingFields :=
  match r.number, r.payload with
  | 2, .varint v => { rf with tier := tierOfWire v.toNat }
  | 3, .bytes b  => { rf with eventName := b }
  | 4, .bytes b  => { rf with subclassName := b }
  | 5, .bytes b  => { rf with nodeId := b }
  | _, _ => rf

theorem route_eq_self {rf : RoutingFields} {r : Wire.Record} (h2 : ¬(r.number = 2 ∧ r.payload.wireType = 0))
    (h345 : r.payload.wireType = 2 → r.number ≠ 3 ∧ r.number ≠ 4 ∧ r.number ≠ 5) : route rf r = rf := by
  unfold route
  split
  · rename_i hn hp
    exact absurd ⟨hn, by rw [hp]; rfl⟩ h2
  · rename_i hn hp
    exact absurd hn (h345 (by rw [hp]; rfl)).1
  · rename_i hn hp
    exact absurd hn (h345 (by rw [hp]; rfl)).2.1
  · rename_i hn hp
    exact absurd hn (h345 (by rw [hp]; rfl)).2.2
  · rfl

/-- **One record after its key**: the scanner sets what the record sets and goes on after it. -/
theorem scanField_payload (rf : RoutingFields) (r : Wire.Record) (hr : r.payload.encode.length < 2 ^ 64) (rest : Bytes) :
    scanField rf r.number r.payload.wireType (r.payload.encode ++ rest) = some (route rf r, rest) := by
  have hskip : (skipField (r.payload.encode ++ rest) r.payload.wireType).map (fun p => (rf, p)) = some (rf, rest) := by
    rw [skipField_encode r.payload hr rest]
    rfl
  obtain ⟨n, hn, p⟩ := r
  unfold scanField
  cases p with
  | varint v =>
    by_cases h2 : n = 2
    · subst h2
      change (readVarint (Wire.varint v ++ rest)).map _ = _
      rw [readVarint_varint]
      rfl
    · rw [route_eq_self (fun h => h2 h.1) (fun h => by cases h)]
      simpa [h2, Wire.Payload.wireType] using hskip
  | bytes b =>
    have hb : b.length < 2 ^ 64 := by
      simp only [Wire.Payload.encode, List.length_append] at hr
      omega
    by_cases h345 : n = 3 ∨ n = 4 ∨ n = 5
    · rcases h345 with rfl | rfl | rfl
      all_goals
        change (readDelimited ((Wire.Payload.bytes b).encode ++ rest)).map _ = _
        rw [readDelimited_bytes hb]
        rfl
    · obtain ⟨h3, h4, h5⟩ : n ≠ 3 ∧ n ≠ 4 ∧ n ≠ 5 := by omega
      rw [route_eq_self (fun h => by cases h.2) (fun _ => ⟨h3, h4, h5⟩)]
      simpa [h3, h4, h5, Wire.Payload.wireType] using hskip
  | fixed64 v =>
    rw [route_eq_self (fun h => by cases h.2) (fun h => by cases h)]
    simpa [Wire.Payload.wireType] using hskip
  | fixed32 v =>
    rw [route_eq_self (fun h => by cases h.2) (fun h => by cases h)]
    simpa [Wire.Payload.wireType] using hskip

theorem scanLoop_record (fuel : Nat) (rf : RoutingFields) (r : Wire.Record) (hr : r.payload.encode.length < 2 ^ 64)
    (rest : Bytes) : scanLoop (fuel + 1) rf (r.encode ++ rest) = scanLoop fuel (route rf r) rest := by
  have hkey : (BitVec.ofNat 64 r.key).toNat = r.key := by
    rw [BitVec.toNat_ofNat, Nat.mod_eq_of_lt r.key_lt]
  have hread : readVarint (r.encode ++ rest) = some (r.key, r.payload.encode ++ rest) := by
    rw [Wire.Record.encode, List.append_assoc, readVarint_varint, hkey]
  have hwt : r.payload.wireType < 8 := by cases r.payload <;> simp [Wire.Payload.wireType]
  have hnum : r.key / 8 % 2 ^ 32 = r.number := by
    have := r.number_lt
    unfold Wire.Record.key
    omega
  have htype : r.key % 8 = r.payload.wireType := by
    unfold Wire.Record.key
    omega
  obtain ⟨b, p, hbp⟩ := List.exists_cons_of_ne_nil (Wire.Record.encode_ne_nil r)
  rw [hbp, List.cons_append, scanLoop, ← List.cons_append, ← hbp, hread]
  simp only [hnum, htype, scanField_payload rf r hr rest]

/-- **The loop goes over the records one by one**, given a turn for each byte. -/
theorem scanLoop_encode : ∀ (rs : List Wire.Record) (fuel : Nat) (rf : RoutingFields),
    (Wire.encode rs).length ≤ fuel → (Wire.encode rs).length < 2 ^ 64 →
      scanLoop fuel rf (Wire.encode rs) = rs.foldl route rf
  | [], fuel, rf, _, _ => by cases fuel <;> rfl
  | r :: rs, fuel, rf, hfuel, hsize => by
    have hlen : (Wire.encode (r :: rs)).length = r.encode.length + (Wire.encode rs).length := by
      rw [Wire.encode, List.flatMap_cons, List.length_append]
      rfl
    have hpos : 0 < r.encode.length := List.length_pos_iff.2 (Wire.Record.encode_ne_nil r)
    have hpayload : r.payload.encode.length ≤ r.encode.length := by
      rw [Wire.Record.encode, List.length_append]
      omega
    obtain ⟨fuel, rfl⟩ : ∃ k, fuel = k + 1 := ⟨fuel - 1, by omega⟩
    rw [Wire.encode, List.flatMap_cons, scanLoop_record fuel rf r (by omega), List.foldl_cons]
    exact scanLoop_encode rs fuel _ (by omega) (by omega)

theorem extractRoutingFields_encode {rs : List Wire.Record} (h : (Wire.encode rs).length < 2 ^ 64) :
    extractRoutingFields (Wire.encode rs) = rs.foldl route .default :=
  scanLoop_encode rs _ _ (Nat.le_refl _) h

/-! ## The records of an envelope -/

namespace EventEnvelope

/-- What a record of an envelope sets is told by its number. -/
def setField (e : EventEnvelope) (rf : RoutingFields) (n : Nat) : RoutingFields where
  tier := if n = 2 then e.routing.tier else rf.tier
  eventName := if n = 3 then e.routing.eventName else rf.eventName
  subclassName := if n = 4 then e.routing.subclassName else rf.subclassName
  nodeId := if n = 5 then e.routing.nodeId else rf.nodeId

theorem signExtend_eq_small (t : BitVec 32) {k : Nat} (hk : k < 4) :
    (t.signExtend 64).toNat = k ↔ t = BitVec.ofNat 32 k := by
  have hlt := t.isLt
  rw [BitVec.toNat_signExtend, BitVec.toNat_setWidth, BitVec.msb_eq_decide, ← BitVec.toNat_inj, BitVec.toNat_ofNat]
  split <;> simp_all <;> omega

theorem tierOfWire_tier (e : EventEnvelope) : tierOfWire (e.tier.signExtend 64).toNat = e.routing.tier := by
  have hsmall : ∀ k : Nat, k < 4 → ((e.tier.signExtend 64).toNat = k ↔ e.tier = BitVec.ofNat 32 k) :=
    fun _ hk => signExtend_eq_small e.tier hk
  unfold tierOfWire
  split
  · rename_i h
    rw [hsmall 1 (by decide)] at h
    simp [routing, h]
  · rename_i h
    rw [hsmall 2 (by decide)] at h
    simp [routing, h]
  · rename_i h
    rw [hsmall 3 (by decide)] at h
    simp [routing, h]
  · rename_i h1 h2 h3
    have h1 : e.tier ≠ 1 := fun h => h1 ((hsmall 1 (by decide)).2 h)
    have h2 : e.tier ≠ 2 := fun h => h2 ((hsmall 2 (by decide)).2 h)
    have h3 : e.tier ≠ 3 := fun h => h3 ((hsmall 3 (by decide)).2 h)
    rw [routing, if_neg h1, if_neg h2, if_neg h3]

theorem setField_of_ge (e : EventEnvelope) (rf : RoutingFields) {n : Nat} (h : 6 ≤ n) : e.setField rf n = rf := by
  rw [setField, if_neg (by omega), if_neg (by omega), if_neg (by omega), if_neg (by omega)]

theorem route_of_ge (rf : RoutingFields) {r : Wire.Record} (h : 6 ≤ r.number) : route rf r = rf :=
  route_eq_self (fun h2 => by omega) (fun _ => ⟨by omega, by omega, by omega⟩)

theorem route_records (e : EventEnvelope) (rf : RoutingFields) {r : Wire.Record} (hr : r ∈ e.records) :
    route rf r = e.setField rf r.number := by
  by_cases hge : 6 ≤ r.number
  · rw [route_of_ge rf hge, setField_of_ge e rf hge]
  · simp only [records, List.mem_append, List.mem_map, Wire.mem_bytesField, Wire.mem_varintField, or_assoc] at hr
    rcases hr with ⟨_, rfl⟩ | ⟨_, rfl⟩ | ⟨_, rfl⟩ | ⟨_, rfl⟩ | ⟨_, rfl⟩ | ⟨_, _, rfl⟩ | ⟨_, rfl⟩ | ⟨_, rfl⟩ | ⟨_, rfl⟩ |
      ⟨_, rfl⟩ | ⟨_, _, rfl⟩ | ⟨_, _, rfl⟩ | ⟨_, rfl⟩ | ⟨_, rfl⟩ | hu
    · rfl
    · exact congrArg (fun tier => { rf with tier := tier }) e.tierOfWire_tier
    · rfl
    · rfl
    · rfl
    -- the other fields have larger numbers
    iterate 9 exact absurd (Nat.le_of_ble_eq_true rfl) hge
    · have := e.unknown_number r hu
      omega

/-- Setting the fields of a list of numbers, in any order and any number of times, sets exactly those. -/
theorem foldl_setField (e : EventEnvelope) : ∀ (ns : List Nat) (rf : RoutingFields), ns.foldl e.setField rf =
    ⟨if 2 ∈ ns then e.routing.tier else rf.tier, if 3 ∈ ns then e.routing.eventName else rf.eventName,
      if 4 ∈ ns then e.routing.subclassName else rf.subclassName, if 5 ∈ ns then e.routing.nodeId else rf.nodeId⟩
  | [], _ => rfl
  | n :: ns, rf => by
    have hor : ∀ {α : Type} (k : Nat) (a b : α),
        (if k ∈ ns then a else if n = k then a else b) = if k ∈ n :: ns then a else b := fun k a b => by
      by_cases hk : k ∈ ns
      · rw [if_pos hk, if_pos (List.mem_cons_of_mem _ hk)]
      · simp only [hk, if_false, List.mem_cons, or_false, eq_comm]
    rw [List.foldl_cons, foldl_setField e ns, setField, hor, hor, hor, hor]

theorem subset_records (e : EventEnvelope) :
    (∀ r ∈ Wire.varintField 2 (by decide) (e.tier.signExtend 64), r ∈ e.records) ∧
    (∀ r ∈ Wire.bytesField 3 (by decide) e.eventName, r ∈ e.records) ∧
    (∀ r ∈ Wire.bytesField 4 (by decide) e.subclassName, r ∈ e.records) ∧
    (∀ r ∈ Wire.bytesField 5 (by decide) e.nodeId, r ∈ e.records) := by
  refine ⟨fun r hr => ?_, fun r hr => ?_, fun r hr => ?_, fun r hr => ?_⟩ <;>
    simp only [records, List.mem_append, hr, true_or, or_true]

theorem routing_of_absent (e : EventEnvelope) :
    (2 ∉ e.records.map (·.number) → e.routing.tier = .unspecified) ∧
    (3 ∉ e.records.map (·.number) → e.routing.eventName = []) ∧
    (4 ∉ e.records.map (·.number) → e.routing.subclassName = []) ∧
    (5 ∉ e.records.map (·.number) → e.routing.nodeId = []) := by
  obtain ⟨h2, h3, h4, h5⟩ := e.subset_records
  refine ⟨fun h => ?_, Wire.bytes_of_absent h3, Wire.bytes_of_absent h4, Wire.bytes_of_absent h5⟩
  have hzero : e.tier.signExtend 64 = 0 := Wire.varint_of_absent h2 h
  have htier : e.tier = 0 := (signExtend_eq_small e.tier (by decide)).1 (congrArg BitVec.toNat hzero)
  rw [routing, htier]
  rfl

end EventEnvelope

/-- The records of a serialization, in whatever order, carry the routing fields of the envelope. -/
theorem Serialization.foldl_route {e : EventEnvelope} (w : Serialization e) :
    w.records.foldl route .default = e.routing := by
  have hfold : w.records.foldl route .default = (w.records.map (·.number)).foldl e.setField .default := by
    rw [List.foldl_map]
    exact List.foldl_ext _ _ _ fun rf r hr => e.route_records rf (w.perm.mem_iff.1 hr)
  have hmem : ∀ n, n ∈ w.records.map (·.number) ↔ n ∈ e.records.map (·.number) := fun n => (w.perm.map _).mem_iff
  obtain ⟨h2, h3, h4, h5⟩ := e.routing_of_absent
  rw [hfold, e.foldl_setField]
  simp only [hmem, RoutingFields.default]
  rw [ite_eq_left_iff.2 (fun h => (h2 h).symm), ite_eq_left_iff.2 (fun h => (h3 h).symm),
    ite_eq_left_iff.2 (fun h => (h4 h).symm), ite_eq_left_iff.2 (fun h => (h5 h).symm)]

/-- **The routing scanner agrees with protobuf**: on every serialization of an envelope it returns the envelope's event
name, subclass name and node id, and its tier. -/
theorem extractRoutingFields_serialized (e : EventEnvelope) (w : Serialization e) :
    extractRoutingFields w.bytes = e.routing := by
  rw [Serialization.bytes, extractRoutingFields_encode w.size, w.foldl_route]

/-- A tier-1 envelope named `E` of node `n`, with an id, a time before the epoch, a variable and a body. -/
def answered : EventEnvelope where
  eventId := [105]
  tier := 1
  eventName := [69]
  subclassName := []
  nodeId := [110]
  emittedAt := some ⟨-1, 0⟩
  seq := 300
  tenantId := []
  traceparent := []
  channelUuid := []
  vars := [([97], [98])]
  headers := []
  body := [0, 255]
  schemaVersion := 1
  unknown := []
  unknown_number := nofun

theorem extractRoutingFields_answered :
    answered.routing = ⟨.critical, [69], [], [110]⟩ ∧
    extractRoutingFields (answered.serialize (by decide +kernel)).bytes = answered.routing :=
  ⟨by decide +kernel, extractRoutingFields_serialized answered (answered.serialize (by decide +kernel))⟩

end Events
end Osw
