import Mathlib.Data.List.Infix
import OpenSwitch.Envelope
import OpenSwitch.Subscriber
/-!
# FailClosed — the routing scanner on any bytes (`routing.cc`)

What `ExtractRoutingFields` does with bytes that protobuf did not write.  One turn of its loop reads a record of the
grammar of `Wire` or stops (`scanRecord_iff`), so the result is what the complete records at the front set, whatever
comes after them (`scanLoop_leading`).  The loop ends, its views lie inside the input, and it is only on malformed bytes
whose leading records set nothing that it returns the defaults (`scanner_fails_closed_iff`).
-/
namespace Osw
namespace Events

open Wire (isVarint varintValue RawPayload RawRecord IsPayload IsRecord AreRecords WellFormed Stuck)

/-! ## The readers and the grammar -/

/-- A byte goes in above the bits there are; what does not fit 64 bits is cut off. -/
theorem or_shiftLeft_mod {out shift : Nat} (hout : out < 2 ^ shift) (hshift : shift ≤ 63) (b : Nat) :
    out ||| ((b <<< shift) % 2 ^ 64) = (out + b * 2 ^ shift) % 2 ^ 64 := by
  obtain ⟨k, hk⟩ : ∃ k, 64 = shift + k := ⟨64 - shift, by omega⟩
  have hcut : b * 2 ^ shift % 2 ^ 64 = b % 2 ^ k * 2 ^ shift := by
    rw [hk, Nat.pow_add, Nat.mul_comm (2 ^ shift), Nat.mul_mod_mul_right]
  have hfit : b % 2 ^ k * 2 ^ shift + 2 ^ shift ≤ 2 ^ 64 := by
    have hlt : b % 2 ^ k + 1 ≤ 2 ^ k := Nat.mod_lt _ (Nat.two_pow_pos k)
    calc b % 2 ^ k * 2 ^ shift + 2 ^ shift = (b % 2 ^ k + 1) * 2 ^ shift := by rw [Nat.add_mul, Nat.one_mul]
      _ ≤ 2 ^ k * 2 ^ shift := Nat.mul_le_mul_right _ hlt
      _ = 2 ^ 64 := by rw [hk, ← Nat.pow_add, Nat.add_comm k]
  have hsum : (out + b * 2 ^ shift) % 2 ^ 64 = out + b % 2 ^ k * 2 ^ shift := by
    rw [Nat.add_mod, hcut, Nat.mod_eq_of_lt (by omega : out < 2 ^ 64), Nat.mod_eq_of_lt (by omega)]
  have hor := Nat.two_pow_add_eq_or_of_lt hout (b % 2 ^ k)
  rw [Nat.shiftLeft_eq, hcut, hsum, Nat.or_comm, Nat.mul_comm (b % 2 ^ k), ← hor, Nat.add_comm]

/-- `ReadVarint` in the middle of its loop, with `k` bytes to go. -/
theorem readVarintLoop_iff : ∀ (k shift out : Nat) (p : Bytes) (v : Nat) (q : Bytes), shift + 7 * (k + 1) = 70 →
    out < 2 ^ shift → (readVarintLoop shift out p = some (v, q) ↔
      ∃ bs, p = bs ++ q ∧ isVarint (k + 1) bs = true ∧ v = (out + varintValue bs * 2 ^ shift) % 2 ^ 64)
  | _, _, _, [], _, _, _, _ => by
    refine ⟨fun h => (by cases h), ?_⟩
    rintro ⟨bs, hp, hbs, -⟩
    exact absurd (List.append_eq_nil_iff.1 hp.symm).1 (Wire.isVarint_ne_nil hbs)
  | k, shift, out, b :: p, v, q, hk, hout => by
    have hor := or_shiftLeft_mod hout (by omega) (b.toNat % 128)
    rw [readVarintLoop]
    simp only [hor]
    by_cases hlast : b.toNat < 128
    · rw [if_pos hlast, Option.some.injEq, Prod.mk.injEq]
      constructor
      · rintro ⟨rfl, rfl⟩
        refine ⟨[b], rfl, by simp [isVarint, hlast], ?_⟩
        rw [varintValue, varintValue, Nat.mul_zero, Nat.add_zero]
      · rintro ⟨bs, hp, hbs, rfl⟩
        obtain ⟨b', bs, rfl⟩ := List.exists_cons_of_ne_nil (Wire.isVarint_ne_nil hbs)
        rw [List.cons_append, List.cons.injEq] at hp
        obtain ⟨rfl, rfl⟩ := hp
        rw [isVarint, if_pos hlast, List.isEmpty_iff] at hbs
        subst hbs
        rw [varintValue, varintValue, Nat.mul_zero, Nat.add_zero]
        exact ⟨rfl, rfl⟩
    · rw [if_neg hlast]
      cases k with
      | zero =>
        -- the tenth byte asks for an eleventh
        rw [if_pos (by omega)]
        refine ⟨fun h => (by cases h), ?_⟩
        rintro ⟨bs, hp, hbs, -⟩
        obtain ⟨b', bs, rfl⟩ := List.exists_cons_of_ne_nil (Wire.isVarint_ne_nil hbs)
        rw [List.cons_append, List.cons.injEq] at hp
        obtain ⟨rfl, rfl⟩ := hp
        rw [isVarint, if_neg hlast, isVarint] at hbs
        cases hbs
      | succ k =>
        have hpow : 2 ^ (shift + 7) = 2 ^ shift * 128 := Nat.pow_add 2 shift 7
        have hfit : 2 ^ (shift + 7) ≤ 2 ^ 64 := Nat.pow_le_pow_right (by decide) (by omega)
        have hlt : out + b.toNat % 128 * 2 ^ shift < 2 ^ (shift + 7) := by
          have : b.toNat % 128 * 2 ^ shift ≤ 127 * 2 ^ shift := Nat.mul_le_mul_right _ (by omega)
          omega
        have hvalue : ∀ bs, out + b.toNat % 128 * 2 ^ shift + varintValue bs * 2 ^ (shift + 7)
            = out + varintValue (b :: bs) * 2 ^ shift := by
          intro bs
          have hscale : varintValue bs * (2 ^ shift * 128) = 128 * varintValue bs * 2 ^ shift := by
            rw [Nat.mul_comm (2 ^ shift), ← Nat.mul_assoc, Nat.mul_comm 128]
          rw [varintValue, Nat.add_mul, hpow, hscale, Nat.add_assoc]
        rw [if_neg (by omega), Nat.mod_eq_of_lt (by omega), readVarintLoop_iff k _ _ p v q (by omega) hlt]
        constructor
        · rintro ⟨bs, rfl, hbs, rfl⟩
          exact ⟨b :: bs, rfl, by rw [isVarint, if_neg hlast]; exact hbs, by rw [hvalue]⟩
        · rintro ⟨bs, hp, hbs, rfl⟩
          obtain ⟨b', bs, rfl⟩ := List.exists_cons_of_ne_nil (Wire.isVarint_ne_nil hbs)
          rw [List.cons_append, List.cons.injEq] at hp
          obtain ⟨rfl, rfl⟩ := hp
          rw [isVarint, if_neg hlast] at hbs
          exact ⟨bs, rfl, hbs, by rw [hvalue]⟩

theorem readVarint_iff (p : Bytes) (v : Nat) (q : Bytes) :
    readVarint p = some (v, q) ↔ ∃ bs, p = bs ++ q ∧ isVarint 10 bs = true ∧ v = varintValue bs % 2 ^ 64 := by
  rw [readVarint, readVarintLoop_iff 9 0 0 p v q rfl (by decide)]
  simp only [Nat.zero_add, Nat.pow_zero, Nat.mul_one]

theorem readDelimited_iff (p b q : Bytes) :
    readDelimited p = some (b, q) ↔
      ∃ bs, p = bs ++ b ++ q ∧ isVarint 10 bs = true ∧ varintValue bs % 2 ^ 64 = b.length := by
  unfold readDelimited
  constructor
  · intro h
    cases hv : readVarint p with
    | none => rw [hv] at h; cases h
    | some r =>
      obtain ⟨len, p'⟩ := r
      obtain ⟨bs, rfl, hbs, rfl⟩ := (readVarint_iff p len p').1 hv
      simp only [hv] at h
      split at h
      · cases h
      · rename_i hle
        cases h
        refine ⟨bs, ?_, hbs, ?_⟩
        · rw [List.append_assoc, List.take_append_drop]
        · rw [List.length_take]
          omega
  · rintro ⟨bs, rfl, hbs, hlen⟩
    have hv : readVarint (bs ++ b ++ q) = some (b.length, b ++ q) :=
      (readVarint_iff _ _ _).2 ⟨bs, by rw [List.append_assoc], hbs, hlen.symm⟩
    simp only [hv]
    rw [if_neg (by rw [List.length_append]; omega), List.take_left, List.drop_left]

theorem skip_fixed_iff (p q : Bytes) (k : Nat) :
    (if p.length < k then none else some (p.drop k)) = some q ↔ ∃ b, p = b ++ q ∧ b.length = k := by
  constructor
  · intro h
    split at h
    · cases h
    · cases h
      exact ⟨p.take k, (List.take_append_drop k p).symm, by rw [List.length_take]; omega⟩
  · rintro ⟨b, rfl, rfl⟩
    rw [if_neg (by rw [List.length_append]; omega), List.drop_left]

theorem skipField_iff (p : Bytes) (wireType : Nat) (q : Bytes) :
    skipField p wireType = some q ↔ ∃ pl bs, p = bs ++ q ∧ IsPayload wireType pl bs := by
  unfold skipField
  constructor
  · intro h
    split at h
    · obtain ⟨⟨v, _⟩, hv, rfl⟩ := Option.map_eq_some_iff.1 h
      obtain ⟨bs, rfl, hbs, -⟩ := (readVarint_iff _ _ _).1 hv
      exact ⟨_, bs, rfl, .varint hbs⟩
    · obtain ⟨b, rfl, hb⟩ := (skip_fixed_iff p q 8).1 h
      exact ⟨_, b, rfl, .fixed64 hb⟩
    · obtain ⟨⟨b, _⟩, hb, rfl⟩ := Option.map_eq_some_iff.1 h
      obtain ⟨bs, rfl, hbs, hlen⟩ := (readDelimited_iff _ _ _).1 hb
      exact ⟨_, bs ++ b, rfl, .bytes hbs hlen⟩
    · obtain ⟨b, rfl, hb⟩ := (skip_fixed_iff p q 4).1 h
      exact ⟨_, b, rfl, .fixed32 hb⟩
    · cases h
  · rintro ⟨pl, bs, rfl, hpl⟩
    cases hpl with
    | varint hbs => exact Option.map_eq_some_iff.2 ⟨(_, q), (readVarint_iff _ _ _).2 ⟨bs, rfl, hbs, rfl⟩, rfl⟩
    | fixed64 hb => exact (skip_fixed_iff _ q 8).2 ⟨bs, rfl, hb⟩
    | bytes hbs hlen => exact Option.map_eq_some_iff.2 ⟨(_, q), (readDelimited_iff _ _ _).2 ⟨_, rfl, hbs, hlen⟩, rfl⟩
    | fixed32 hb => exact (skip_fixed_iff _ q 4).2 ⟨bs, rfl, hb⟩

/-- What a payload sets under a field number. -/
def setRaw (rf : RoutingFields) (fieldNum : Nat) (p : RawPayload) : RoutingFields :=
  match p with
  | .varint v => if fieldNum = 2 then { rf with tier := tierOfWire v } else rf
  | .bytes b =>
    if fieldNum = 3 then { rf with eventName := b }
    else if fieldNum = 4 then { rf with subclassName := b }
    else if fieldNum = 5 then { rf with nodeId := b }
    else rf
  | _ => rf

/-- What a record sets; of its number the scanner reads 32 bits. -/
def routeRaw (rf : RoutingFields) (r : RawRecord) : RoutingFields := setRaw rf (r.number % 2 ^ 32) r.payload

variable {lead p q rest : Bytes} {rf rf' : RoutingFields} {rs : List RawRecord}

theorem scanName_iff {n wireType : Nat} (set : Bytes → RoutingFields) (hw : wireType = 2)
    (hset : ∀ b, setRaw rf n (.bytes b) = set b) :
    (readDelimited p).map (fun r => (set r.1, r.2)) = some (rf', q) ↔
      ∃ pl bs, p = bs ++ q ∧ IsPayload wireType pl bs ∧ rf' = setRaw rf n pl := by
  subst hw
  rw [Option.map_eq_some_iff]
  constructor
  · rintro ⟨⟨b, _⟩, hb, heq⟩
    cases heq
    obtain ⟨bs, rfl, hbs, hlen⟩ := (readDelimited_iff _ _ _).1 hb
    exact ⟨_, bs ++ b, rfl, .bytes hbs hlen, (hset b).symm⟩
  · rintro ⟨pl, bs, rfl, hpl, rfl⟩
    cases hpl with
    | bytes hbs hlen => exact ⟨(_, q), (readDelimited_iff _ _ _).2 ⟨_, rfl, hbs, hlen⟩, by rw [hset]⟩

theorem scanField_iff (rf : RoutingFields) (n wireType : Nat) (p : Bytes) (rf' : RoutingFields) (q : Bytes) :
    scanField rf n wireType p = some (rf', q) ↔
      ∃ pl bs, p = bs ++ q ∧ IsPayload wireType pl bs ∧ rf' = setRaw rf n pl := by
  unfold scanField
  split
  · rename_i h
    obtain ⟨rfl, rfl⟩ := h
    rw [Option.map_eq_some_iff]
    constructor
    · rintro ⟨⟨v, _⟩, hv, heq⟩
      cases heq
      obtain ⟨bs, rfl, hbs, rfl⟩ := (readVarint_iff _ _ _).1 hv
      exact ⟨_, bs, rfl, .varint hbs, rfl⟩
    · rintro ⟨pl, bs, rfl, hpl, rfl⟩
      cases hpl with
      | varint hbs => exact ⟨(_, q), (readVarint_iff _ _ _).2 ⟨bs, rfl, hbs, rfl⟩, rfl⟩
  rename_i h2
  split
  · rename_i h
    exact scanName_iff (fun b => { rf with eventName := b }) h.2 (fun b => by rw [setRaw, if_pos h.1])
  rename_i h3
  split
  · rename_i h
    exact scanName_iff (fun b => { rf with subclassName := b }) h.2
      (fun b => by rw [setRaw, if_neg (by omega), if_pos h.1])
  rename_i h4
  split
  · rename_i h
    exact scanName_iff (fun b => { rf with nodeId := b }) h.2
      (fun b => by rw [setRaw, if_neg (by omega), if_neg (by omega), if_pos h.1])
  rename_i h5
  -- any other record is skipped, and sets nothing
  have hsame : ∀ pl bs, IsPayload wireType pl bs → setRaw rf n pl = rf := by
    intro pl bs hpl
    cases hpl with
    | varint _ => exact if_neg (fun h => h2 ⟨h, rfl⟩)
    | bytes _ _ =>
      rw [setRaw, if_neg (fun h => h3 ⟨h, rfl⟩), if_neg (fun h => h4 ⟨h, rfl⟩), if_neg (fun h => h5 ⟨h, rfl⟩)]
    | fixed64 _ => rfl
    | fixed32 _ => rfl
  rw [Option.map_eq_some_iff]
  constructor
  · rintro ⟨_, hs, heq⟩
    cases heq
    obtain ⟨pl, bs, rfl, hpl⟩ := (skipField_iff _ _ _).1 hs
    exact ⟨pl, bs, rfl, hpl, (hsame pl bs hpl).symm⟩
  · rintro ⟨pl, bs, rfl, hpl, rfl⟩
    exact ⟨q, (skipField_iff _ _ _).2 ⟨pl, bs, rfl, hpl⟩, by rw [hsame pl bs hpl]⟩

/-! ## The loop -/

/-- One turn of the loop of `ExtractRoutingFields`; `none` where it breaks. -/
def scanRecord (rf : RoutingFields) (p : Bytes) : Option (RoutingFields × Bytes) :=
  match readVarint p with
  | none => none
  | some (key, p) => scanField rf (key / 8 % 2 ^ 32) (key % 8) p

/-- **A turn reads exactly a record.** -/
theorem scanRecord_iff (rf : RoutingFields) (p : Bytes) (rf' : RoutingFields) (q : Bytes) :
    scanRecord rf p = some (rf', q) ↔ ∃ r b, p = b ++ q ∧ IsRecord r b ∧ rf' = routeRaw rf r := by
  unfold scanRecord
  constructor
  · intro h
    cases hv : readVarint p with
    | none => rw [hv] at h; cases h
    | some kp =>
      obtain ⟨key, p'⟩ := kp
      rw [hv] at h
      obtain ⟨ks, rfl, hks, rfl⟩ := (readVarint_iff _ _ _).1 hv
      obtain ⟨pl, bs, rfl, hpl, rfl⟩ := (scanField_iff _ _ _ _ _ _).1 h
      exact ⟨_, ks ++ bs, by rw [List.append_assoc], .mk hks hpl, rfl⟩
  · rintro ⟨r, b, rfl, hr, rfl⟩
    cases hr with
    | @mk ks bs pl hks hpl =>
      have hv : readVarint (ks ++ bs ++ q) = some (varintValue ks % 2 ^ 64, bs ++ q) :=
        (readVarint_iff _ _ _).2 ⟨ks, by rw [List.append_assoc], hks, rfl⟩
      simp only [hv]
      exact (scanField_iff _ _ _ _ _ _).2 ⟨pl, bs, rfl, hpl, rfl⟩

theorem scanRecord_shortens (h : scanRecord rf p = some (rf', q)) : q.length < p.length := by
  obtain ⟨r, b, rfl, hr, -⟩ := (scanRecord_iff _ _ _ _).1 h
  have := List.length_pos_iff.2 hr.ne_nil
  rw [List.length_append]
  omega

theorem stuck_iff (rf : RoutingFields) (p : Bytes) : Stuck p ↔ p ≠ [] ∧ scanRecord rf p = none := by
  refine and_congr_right fun _ => ⟨fun h => ?_, fun h r b rest hr hp => ?_⟩
  · cases hs : scanRecord rf p with
    | none => rfl
    | some x =>
      obtain ⟨r, b, hp, hr, -⟩ := (scanRecord_iff _ _ x.1 x.2).1 hs
      exact absurd hp (h r b x.2 hr)
  · rw [(scanRecord_iff rf p _ rest).2 ⟨r, b, hp, hr, rfl⟩] at h
    cases h

theorem scanLoop_succ (n : Nat) (rf : RoutingFields) (b : UInt8) (p : Bytes) :
    scanLoop (n + 1) rf (b :: p) = match scanRecord rf (b :: p) with
      | none => rf
      | some (rf', p') => scanLoop n rf' p' := by
  rw [scanLoop, scanRecord]
  cases readVarint (b :: p) with
  | none => rfl
  | some r => rfl

/-- The loop with its turns counted; `none` when it has not ended after `n` of them. -/
def scanTurns : Nat → RoutingFields → Bytes → Option RoutingFields
  | _, rf, [] => some rf
  | 0, _, _ :: _ => none
  | n + 1, rf, b :: p =>
    match scanRecord rf (b :: p) with
    | none => some rf
    | some (rf, p) => scanTurns n rf p

/-- **The loop ends**: it needs no more turns than there are bytes. -/
theorem scanTurns_eq : ∀ (n : Nat) (rf : RoutingFields) (p : Bytes), p.length ≤ n →
    scanTurns n rf p = some (scanLoop n rf p)
  | n, rf, [], _ => by cases n <;> rfl
  | n + 1, rf, b :: p, h => by
    rw [scanTurns, scanLoop_succ]
    cases hs : scanRecord rf (b :: p) with
    | none => rfl
    | some x =>
      have := scanRecord_shortens hs
      exact scanTurns_eq n x.1 x.2 (by omega)

/-- **The result is what the leading records set**, whether the bytes end after them or a reader is stuck there. -/
theorem scanLoop_leading (h : AreRecords rs lead) (hend : rest = [] ∨ Stuck rest) :
    ∀ (n : Nat) (rf : RoutingFields), (lead ++ rest).length ≤ n →
      scanLoop n rf (lead ++ rest) = rs.foldl routeRaw rf := by
  induction h with
  | nil =>
    intro n rf hn
    rw [List.nil_append] at hn ⊢
    cases rest with
    | nil => cases n <;> rfl
    | cons b p =>
      obtain ⟨n, rfl⟩ : ∃ k, n = k + 1 := ⟨n - 1, by rw [List.length_cons] at hn; omega⟩
      have hstuck := hend.resolve_left (List.cons_ne_nil b p)
      rw [scanLoop_succ, ((stuck_iff rf _).1 hstuck).2]
      rfl
  | @cons r rs b bs hr _ ih =>
    intro n rf hn
    obtain ⟨x, b, rfl⟩ := List.exists_cons_of_ne_nil hr.ne_nil
    rw [List.append_assoc, List.length_append, List.length_cons] at hn
    obtain ⟨n, rfl⟩ : ∃ k, n = k + 1 := ⟨n - 1, by omega⟩
    have hturn : scanRecord rf (x :: (b ++ (bs ++ rest))) = some (routeRaw rf r, bs ++ rest) :=
      (scanRecord_iff _ _ _ _).2 ⟨r, x :: b, rfl, hr, rfl⟩
    rw [List.append_assoc, List.cons_append, scanLoop_succ, hturn]
    exact ih n (routeRaw rf r) (by omega)

/-- Bytes that get stuck after some records are not a complete sequence: a record is told from its front. -/
theorem not_wellFormed_of_stuck (h : AreRecords rs lead) (hstuck : Stuck rest) : ¬ WellFormed (lead ++ rest) := by
  induction h with
  | nil =>
    rintro ⟨rs', hrs'⟩
    rw [List.nil_append] at hrs'
    cases hrs' with
    | nil => exact hstuck.1 rfl
    | @cons r _ b bs hr _ => exact hstuck.2 r b bs hr rfl
  | @cons r rs b bs hr _ ih =>
    rintro ⟨rs', hrs'⟩
    have hturn : scanRecord .default (b ++ bs ++ rest) = some (routeRaw .default r, bs ++ rest) :=
      (scanRecord_iff _ _ _ _).2 ⟨r, b, by rw [List.append_assoc], hr, rfl⟩
    generalize hall : b ++ bs ++ rest = all at hrs' hturn
    cases hrs' with
    | nil => exact absurd hall (by simp [hr.ne_nil])
    | @cons r' rs' b' bs' hr' hrs' =>
      have hturn' : scanRecord .default (b' ++ bs') = some (routeRaw .default r', bs') :=
        (scanRecord_iff _ _ _ _).2 ⟨r', b', rfl, hr', rfl⟩
      rw [hturn', Option.some.injEq, Prod.mk.injEq] at hturn
      exact ih ⟨rs', by rw [← hturn.2]; exact hrs'⟩

/-! ## What the leading records set -/

/-- The tier a record carries, as a number. -/
def tierRecord (r : RawRecord) : Option Nat :=
  match r.payload with
  | .varint v => if r.number % 2 ^ 32 = 2 then some v else none
  | _ => none

/-- The name a record carries for field `n`. -/
def nameRecord (n : Nat) (r : RawRecord) : Option Bytes :=
  match r.payload with
  | .bytes b => if r.number % 2 ^ 32 = n then some b else none
  | _ => none

theorem routeRaw_eq (rf : RoutingFields) (r : RawRecord) : routeRaw rf r =
    ⟨((tierRecord r).map tierOfWire).getD rf.tier, (nameRecord 3 r).getD rf.eventName,
      (nameRecord 4 r).getD rf.subclassName, (nameRecord 5 r).getD rf.nodeId⟩ := by
  obtain ⟨n, p⟩ := r
  unfold routeRaw setRaw tierRecord nameRecord
  cases p with
  | varint v => simp only; split <;> rfl
  | bytes b =>
    simp only
    generalize n % 2 ^ 32 = k
    by_cases h3 : k = 3
    · simp [h3]
    by_cases h4 : k = 4
    · simp [h4]
    by_cases h5 : k = 5
    · simp [h5]
    · simp [h3, h4, h5]
  | fixed64 b => rfl
  | fixed32 b => rfl

theorem foldl_routeRaw (rf : RoutingFields) (rs : List RawRecord) : rs.foldl routeRaw rf =
    ⟨((rs.filterMap tierRecord).getLast?.map tierOfWire).getD rf.tier,
      (rs.filterMap (nameRecord 3)).getLast?.getD rf.eventName,
      (rs.filterMap (nameRecord 4)).getLast?.getD rf.subclassName,
      (rs.filterMap (nameRecord 5)).getLast?.getD rf.nodeId⟩ := by
  induction rs using List.reverseRecOn with
  | nil => rfl
  | append_singleton rs r ih =>
    have hlast : ∀ {α β : Type} (f : RawRecord → Option α) (g : α → β) (d : β),
        ((f r).map g).getD (((rs.filterMap f).getLast?.map g).getD d)
          = (((rs ++ [r]).filterMap f).getLast?.map g).getD d := by
      intro α β f g d
      rw [List.filterMap_append]
      cases hf : f r with
      | none => simp [hf]
      | some x => simp [hf]
    have hname : ∀ (n : Nat) (d : Bytes), (nameRecord n r).getD ((rs.filterMap (nameRecord n)).getLast?.getD d)
        = ((rs ++ [r]).filterMap (nameRecord n)).getLast?.getD d := by
      intro n d
      have := hlast (nameRecord n) id d
      rwa [Option.map_id] at this
    rw [List.foldl_append, ih, List.foldl_cons, List.foldl_nil, routeRaw_eq]
    simp only [hlast tierRecord tierOfWire, hname]

/-- The records set no routing field: the last of each has the value that is the default. -/
def SetsNothing (rs : List RawRecord) : Prop :=
  (∀ v ∈ (rs.filterMap tierRecord).getLast?, v ≠ 1 ∧ v ≠ 2 ∧ v ≠ 3) ∧
  ∀ n ∈ [3, 4, 5], ∀ b ∈ (rs.filterMap (nameRecord n)).getLast?, b = []

theorem tierOfWire_eq_unspecified (v : Nat) : tierOfWire v = .unspecified ↔ v ≠ 1 ∧ v ≠ 2 ∧ v ≠ 3 := by
  unfold tierOfWire
  split <;> simp_all

theorem getD_map_eq_iff {α β : Type} (o : Option α) (g : α → β) (d : β) :
    (o.map g).getD d = d ↔ ∀ x ∈ o, g x = d := by
  cases o <;> simp

theorem foldl_routeRaw_default (rs : List RawRecord) : rs.foldl routeRaw .default = .default ↔ SetsNothing rs := by
  have hname : ∀ o : Option Bytes, o.getD [] = [] ↔ ∀ b ∈ o, b = [] := fun o => by cases o <;> simp
  rw [foldl_routeRaw, SetsNothing]
  simp only [RoutingFields.default, RoutingFields.mk.injEq, getD_map_eq_iff, hname, tierOfWire_eq_unspecified,
    List.mem_cons, List.not_mem_nil, or_false, forall_eq_or_imp, forall_eq]

/-! ## The views -/

/-- A `std::string_view` into the input. -/
structure View where
  offset : Nat
  length : Nat
  deriving DecidableEq, Repr

/-- The fields as the source returns them; `none` is the default view. -/
structure RoutingViews where
  tier         : Tier
  eventName    : Option View
  subclassName : Option View
  nodeId       : Option View
  deriving DecidableEq, Repr

/-- The bytes a view shows. -/
def View.read (bytes : Bytes) : Option View → Bytes
  | none => []
  | some v => (bytes.drop v.offset).take v.length

namespace RoutingViews

def default : RoutingViews := ⟨.unspecified, none, none, none⟩

def views (rv : RoutingViews) : List View := rv.eventName.toList ++ rv.subclassName.toList ++ rv.nodeId.toList

def read (rv : RoutingViews) (bytes : Bytes) : RoutingFields :=
  ⟨rv.tier, View.read bytes rv.eventName, View.read bytes rv.subclassName, View.read bytes rv.nodeId⟩

end RoutingViews

/-- A length and a view of that many bytes; `p` is what is left of `size` bytes. -/
def viewDelimited (size : Nat) (p : Bytes) : Option (View × Bytes) :=
  match readVarint p with
  | none => none
  | some (len, p) => if p.length < len then none else some (⟨size - p.length, len⟩, p.drop len)

def viewField (size : Nat) (rv : RoutingViews) (fieldNum wireType : Nat) (p : Bytes) : Option (RoutingViews × Bytes) :=
  if fieldNum = 2 ∧ wireType = 0 then (readVarint p).map (fun r => ({ rv with tier := tierOfWire r.1 }, r.2))
  else if fieldNum = 3 ∧ wireType = 2 then (viewDelimited size p).map (fun r => ({ rv with eventName := r.1 }, r.2))
  else if fieldNum = 4 ∧ wireType = 2 then (viewDelimited size p).map (fun r => ({ rv with subclassName := r.1 }, r.2))
  else if fieldNum = 5 ∧ wireType = 2 then (viewDelimited size p).map (fun r => ({ rv with nodeId := r.1 }, r.2))
  else (skipField p wireType).map (fun p => (rv, p))

def viewLoop (size : Nat) : Nat → RoutingViews → Bytes → RoutingViews
  | 0, rv, _ => rv
  | _ + 1, rv, [] => rv
  | n + 1, rv, b :: p =>
    match readVarint (b :: p) with
    | none => rv
    | some (key, p) =>
      match viewField size rv (key / 8 % 2 ^ 32) (key % 8) p with
      | none => rv
      | some (rv, p) => viewLoop size n rv p

/-- `ExtractRoutingFields` with its views as places in the input. -/
def extractRoutingViews (bytes : Bytes) : RoutingViews := viewLoop bytes.length bytes.length .default bytes

/-- Every view lies inside the input. -/
def RoutingViews.Inside (rv : RoutingViews) (size : Nat) : Prop := ∀ v ∈ rv.views, v.offset + v.length ≤ size

theorem viewDelimited_map (bytes p : Bytes) (hp : p <:+ bytes) :
    (viewDelimited bytes.length p).map (fun r => (View.read bytes (some r.1), r.2)) = readDelimited p ∧
    ∀ r, viewDelimited bytes.length p = some r → r.1.offset + r.1.length ≤ bytes.length ∧ r.2 <:+ bytes := by
  unfold viewDelimited readDelimited
  cases hv : readVarint p with
  | none => exact ⟨rfl, nofun⟩
  | some x =>
    obtain ⟨len, q⟩ := x
    obtain ⟨bs, rfl, -, -⟩ := (readVarint_iff _ _ _).1 hv
    have hq : q <:+ bytes := (List.suffix_append bs q).trans hp
    have hle := hq.length_le
    simp only
    split
    · exact ⟨rfl, nofun⟩
    · rename_i hlen
      refine ⟨?_, fun r hr => ?_⟩
      · rw [Option.map_some, View.read, ← List.suffix_iff_eq_drop.1 hq]
      · cases hr
        exact ⟨by simp only; omega, (List.drop_suffix len q).trans hq⟩

/-- A turn with views is a turn with bytes, and keeps the views inside the input. -/
theorem viewField_map (bytes : Bytes) (rv : RoutingViews) (n wireType : Nat) (p : Bytes) (hp : p <:+ bytes)
    (hin : rv.Inside bytes.length) :
    (viewField bytes.length rv n wireType p).map (fun r => (r.1.read bytes, r.2))
      = scanField (rv.read bytes) n wireType p ∧
    ∀ r, viewField bytes.length rv n wireType p = some r → r.1.Inside bytes.length ∧ r.2 <:+ bytes := by
  obtain ⟨hmap, hview⟩ := viewDelimited_map bytes p hp
  have hname : ∀ (setv : View → RoutingViews) (set : Bytes → RoutingFields),
      (∀ v, (setv v).read bytes = set (View.read bytes (some v))) →
      (∀ v, v.offset + v.length ≤ bytes.length → (setv v).Inside bytes.length) →
      ((viewDelimited bytes.length p).map (fun r => (setv r.1, r.2))).map (fun r => (r.1.read bytes, r.2))
        = (readDelimited p).map (fun r => (set r.1, r.2)) ∧
      ∀ r, (viewDelimited bytes.length p).map (fun r => (setv r.1, r.2)) = some r →
        r.1.Inside bytes.length ∧ r.2 <:+ bytes := by
    intro setv set hset hins
    refine ⟨?_, fun r hr => ?_⟩
    · rw [← hmap, Option.map_map, Option.map_map]
      exact congrArg (fun f => Option.map f _) (funext fun r => by simp only [Function.comp_apply, hset])
    · obtain ⟨x, hx, rfl⟩ := Option.map_eq_some_iff.1 hr
      exact ⟨hins x.1 (hview x hx).1, (hview x hx).2⟩
  have hmem : ∀ v : View, v.offset + v.length ≤ bytes.length →
      RoutingViews.Inside { rv with eventName := v } bytes.length ∧
      RoutingViews.Inside { rv with subclassName := v } bytes.length ∧
      RoutingViews.Inside { rv with nodeId := v } bytes.length := by
    intro v hv
    simp only [RoutingViews.Inside, RoutingViews.views, List.mem_append, Option.mem_toList] at hin ⊢
    refine ⟨fun w hw => ?_, fun w hw => ?_, fun w hw => ?_⟩ <;> grind
  unfold viewField scanField
  split
  · refine ⟨by rw [Option.map_map]; rfl, fun r hr => ?_⟩
    obtain ⟨x, hx, rfl⟩ := Option.map_eq_some_iff.1 hr
    obtain ⟨bs, rfl, -, -⟩ := (readVarint_iff _ x.1 x.2).1 hx
    exact ⟨hin, (List.suffix_append bs x.2).trans hp⟩
  split
  · exact hname (fun v => { rv with eventName := v }) (fun b => { rv.read bytes with eventName := b }) (fun _ => rfl)
      (fun v hv => (hmem v hv).1)
  split
  · exact hname (fun v => { rv with subclassName := v }) (fun b => { rv.read bytes with subclassName := b })
      (fun _ => rfl) (fun v hv => (hmem v hv).2.1)
  split
  · exact hname (fun v => { rv with nodeId := v }) (fun b => { rv.read bytes with nodeId := b }) (fun _ => rfl)
      (fun v hv => (hmem v hv).2.2)
  · refine ⟨by rw [Option.map_map]; rfl, fun r hr => ?_⟩
    obtain ⟨q, hq, rfl⟩ := Option.map_eq_some_iff.1 hr
    obtain ⟨_, bs, rfl, -⟩ := (skipField_iff _ _ _).1 hq
    exact ⟨hin, (List.suffix_append bs q).trans hp⟩

theorem viewLoop_read (bytes : Bytes) : ∀ (n : Nat) (rv : RoutingViews) (p : Bytes), p <:+ bytes →
    rv.Inside bytes.length →
    (viewLoop bytes.length n rv p).read bytes = scanLoop n (rv.read bytes) p ∧
    (viewLoop bytes.length n rv p).Inside bytes.length
  | 0, _, _, _, hin => ⟨rfl, hin⟩
  | _ + 1, _, [], _, hin => ⟨rfl, hin⟩
  | n + 1, rv, b :: p, hp, hin => by
    rw [viewLoop, scanLoop]
    cases hv : readVarint (b :: p) with
    | none => exact ⟨rfl, hin⟩
    | some x =>
      obtain ⟨bs, hbs, -, -⟩ := (readVarint_iff _ x.1 x.2).1 hv
      have hx : x.2 <:+ bytes := (List.suffix_append bs x.2).trans (hbs ▸ hp)
      obtain ⟨hmap, hkeep⟩ := viewField_map bytes rv (x.1 / 8 % 2 ^ 32) (x.1 % 8) x.2 hx hin
      simp only
      rw [← hmap]
      cases hf : viewField bytes.length rv (x.1 / 8 % 2 ^ 32) (x.1 % 8) x.2 with
      | none => exact ⟨rfl, hin⟩
      | some y => exact viewLoop_read bytes n y.1 y.2 (hkeep y hf).2 (hkeep y hf).1

/-- **When the routing scanner fails closed.**  For every byte string its loop ends within a turn per byte, and every
view it returns lies inside the input and shows the field.  On bytes that are no complete sequence of records it returns
the defaults exactly when the complete records at their front set no routing field. -/
theorem scanner_fails_closed_iff (bytes : Bytes) :
    scanTurns bytes.length .default bytes = some (extractRoutingFields bytes) ∧
    (∀ v ∈ (extractRoutingViews bytes).views, v.offset + v.length ≤ bytes.length) ∧
    (extractRoutingViews bytes).read bytes = extractRoutingFields bytes ∧
    ((¬ WellFormed bytes → extractRoutingFields bytes = .default) ↔
      WellFormed bytes ∨ ∃ rs lead rest, bytes = lead ++ rest ∧ AreRecords rs lead ∧ Stuck rest ∧ SetsNothing rs) := by
  obtain ⟨hread, hinside⟩ := viewLoop_read bytes bytes.length .default bytes List.suffix_rfl (fun v hv => by cases hv)
  refine ⟨scanTurns_eq _ _ _ (Nat.le_refl _), hinside, hread, ?_, ?_⟩
  · intro h
    obtain ⟨rs, lead, rest, rfl, hrs, hend⟩ := Wire.exists_leading bytes
    rcases hend with rfl | hstuck
    · exact .inl ⟨rs, by rw [List.append_nil]; exact hrs⟩
    · refine .inr ⟨rs, lead, rest, rfl, hrs, hstuck, ?_⟩
      have hres := h (not_wellFormed_of_stuck hrs hstuck)
      rw [extractRoutingFields, scanLoop_leading hrs (.inr hstuck) _ _ (Nat.le_refl _)] at hres
      exact (foldl_routeRaw_default rs).1 hres
  · rintro (hwf | ⟨rs, lead, rest, rfl, hrs, hstuck, hnone⟩) hbad
    · exact absurd hwf hbad
    · rw [extractRoutingFields, scanLoop_leading hrs (.inr hstuck) _ _ (Nat.le_refl _)]
      exact (foldl_routeRaw_default rs).2 hnone

/-- The name `E` and a key that never ends: the bytes are malformed, and the event passes a filter on its name. -/
theorem fragment_matches_filter :
    ¬ WellFormed [0x1a, 1, 69, 0xff] ∧
    extractRoutingFields [0x1a, 1, 69, 0xff] = ⟨.unspecified, [69], [], []⟩ ∧
    SubscriberFilter.wants ⟨[], [], [[69]], []⟩ .critical ⟨1, some [0x1a, 1, 69, 0xff]⟩ = true := by
  have hpayload : IsPayload 2 (.bytes [69]) ([1] ++ [69]) := .bytes rfl rfl
  have hrecord : IsRecord ⟨3, .bytes [69]⟩ ([0x1a] ++ ([1] ++ [69])) := @IsRecord.mk [0x1a] [1, 69] (.bytes [69]) rfl hpayload
  have hlead : AreRecords [⟨3, .bytes [69]⟩] [0x1a, 1, 69] := .cons hrecord .nil
  have hstuck : Stuck [0xff] := (stuck_iff .default _).2 ⟨by decide, by decide +kernel⟩
  exact ⟨not_wellFormed_of_stuck hlead hstuck, by decide +kernel, by decide +kernel⟩

end Events
end Osw
