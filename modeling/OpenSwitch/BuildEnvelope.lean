import OpenSwitch.Envelope
import OpenSwitch.EventId
/-!
# Building an envelope (`envelope.cc`)

`BuildEnvelope` takes the headers of a FreeSWITCH event over into an `EventEnvelope`.  The time of the event is a header
in microseconds, read digit by digit; the guard of that loop lets a last digit through with which the number no longer
fits an `int64_t`, so the time is exact for the headers without such a number in front (`timestamp_exact_iff`).
-/
namespace Osw
namespace Events

open Numeral

/-- A `switch_event_t` as `switch_event_get_header` and `switch_event_get_body` show it. -/
structure SwitchEvent where
  header : Bytes → Option Bytes
  body   : Option Bytes

/-- `EventGetHeader`: the name and the value are C strings. -/
def SwitchEvent.getHeader (ev : SwitchEvent) (name : Bytes) : Option Bytes := (ev.header (cStr name)).map cStr

/-- `HeaderOr` with the empty fallback, and `HeaderOrEmpty`. -/
def SwitchEvent.headerOr (ev : SwitchEvent) (name : Bytes) : Bytes := (ev.getHeader name).getD []

/-- The three sets of `EnvelopeBuildConfig`, in the order they are gone through. -/
structure EnvelopeBuildConfig where
  headersInclude       : List Bytes
  headersAlwaysExclude : List Bytes
  variablesInclude     : List Bytes

def makeDefaultEnvelopeConfig : EnvelopeBuildConfig where
  headersInclude := [str "Caller-Caller-ID-Name", str "Caller-Caller-ID-Number", str "Caller-Destination-Number",
    str "Caller-Direction", str "Caller-Context", str "Answer-State", str "Hangup-Cause", str "Hangup-Cause-Q.850",
    str "Channel-State", str "Channel-Call-State", str "Channel-Name"]
  headersAlwaysExclude := [str "Event-Name", str "Event-Subclass", str "Event-Date-Timestamp", str "Unique-ID"]
  variablesInclude := []

/-- `MapTierToProto` -/
def mapTierToProto : Tier → BitVec 32
  | .critical    => 1
  | .state       => 2
  | .ephemeral   => 3
  | .unspecified => 0

/-! ## The time of an event -/

/-- `INT64_MAX` -/
def int64Max : Nat := 2 ^ 63 - 1

def isDigit (c : UInt8) : Bool := 48 ≤ c && c ≤ 57

def digit (c : UInt8) : Nat := c.toNat - 48

/-- The loop of `ParseEventTimestampMicros`; `none` is a signed overflow, which has no defined result. -/
def parseLoop : Nat → Bytes → Option Nat
  | out, []     => some out
  | out, c :: s =>
    if !isDigit c then some 0
    else if int64Max / 10 < out then some 0
    else if int64Max < out * 10 + digit c then none
    else parseLoop (out * 10 + digit c) s

def parseEventTimestampMicros (s : Bytes) : Option Nat := if s = [] then some 0 else parseLoop 0 s

/-- `emitted_at` of a time in microseconds. -/
def emittedAt (micros : Int) : Timestamp :=
  ⟨BitVec.ofInt 64 (micros.tdiv 1000000), BitVec.ofInt 32 (micros.tmod 1000000 * 1000)⟩

/-! ## The envelope -/

/-- What a call takes from the clock, in milliseconds and in microseconds, and from the generator. -/
structure Draw where
  ms  : UInt64
  r1  : UInt64
  r2  : UInt64
  now : Int

inductive Built
  | null
  /-- The header of the time overflowed. -/
  | undefined
  | made (env : EventEnvelope)

/-- The named values an event has. -/
def forwarded (names : List Bytes) (read : Bytes → Option Bytes) : List (Bytes × Bytes) :=
  names.filterMap fun n => (read n).map fun v => (n, v)

theorem unknown_number_nil : ∀ r ∈ ([] : List Wire.Record), 15 ≤ r.number := by
  intro r hr
  cases hr

/-- The fields of the envelope, when its time is `micros`. -/
def envelopeOf (draw : Draw) (ev : SwitchEvent) (tier : Tier) (seq : BitVec 64) (nodeId : Bytes) (cfg : EnvelopeBuildConfig)
    (micros : Int) : EventEnvelope where
  eventId := generateUuidV7 draw.ms draw.r1 draw.r2
  tier := mapTierToProto tier
  seq := seq
  nodeId := nodeId
  schemaVersion := 1
  eventName := ev.headerOr (str "Event-Name")
  subclassName := ev.headerOr (str "Event-Subclass")
  channelUuid := ev.headerOr (str "Unique-ID")
  emittedAt := some (Events.emittedAt micros)
  tenantId := ev.headerOr (str "variable_osw_tenant_id")
  traceparent := ev.headerOr (str "variable_osw_traceparent")
  vars := forwarded cfg.variablesInclude fun n => ev.getHeader (str "variable_" ++ n)
  headers := forwarded (cfg.headersInclude.filter fun n => !cfg.headersAlwaysExclude.contains n) ev.getHeader
  body := (ev.body.map cStr).getD []
  unknown := []
  unknown_number := unknown_number_nil

/-- `BuildEnvelope`, with an arena that allocates. -/
def buildEnvelope (draw : Draw) (ev : Option SwitchEvent) (tier : Tier) (seq : BitVec 64) (nodeId : Bytes)
    (cfg : EnvelopeBuildConfig) : Built :=
  match ev with
  | none => .null
  | some ev =>
    match parseEventTimestampMicros (ev.headerOr (str "Event-Date-Timestamp")) with
    | none => .undefined
    | some parsed => .made (envelopeOf draw ev tier seq nodeId cfg (if 0 < parsed then (parsed : Int) else draw.now))

/-- What the routing scanner finds in the envelope is what the call was given: tier and node, and the names in the
event. -/
theorem routing_envelopeOf (draw : Draw) (ev : SwitchEvent) (tier : Tier) (seq : BitVec 64) (nodeId : Bytes)
    (cfg : EnvelopeBuildConfig) (micros : Int) : (envelopeOf draw ev tier seq nodeId cfg micros).routing =
      ⟨tier, ev.headerOr (str "Event-Name"), ev.headerOr (str "Event-Subclass"), nodeId⟩ := by
  cases tier <;> rfl

/-! ## The digit loop -/

def AllDigits (s : Bytes) : Prop := ∀ c ∈ s, isDigit c = true

instance (s : Bytes) : Decidable (AllDigits s) := inferInstanceAs (Decidable (∀ c ∈ s, _))

/-- The number with the digits `s` behind `out`. -/
def decimalValue (out : Nat) (s : Bytes) : Nat := value 10 out (s.map digit)

/-- What the header means: its number, when it is one that fits. -/
def timestampMeant (s : Bytes) : Nat :=
  if s ≠ [] ∧ AllDigits s ∧ decimalValue 0 s ≤ 2 ^ 63 - 1 then decimalValue 0 s else 0

/-- Some first digits of `s`, behind `out`, make one of the two numbers that only their last digit puts above
`INT64_MAX`. -/
def Overruns (out : Nat) (s : Bytes) : Prop :=
  ∃ p, p <+: s ∧ AllDigits p ∧ (decimalValue out p = 2 ^ 63 ∨ decimalValue out p = 2 ^ 63 + 1)

theorem decimalValue_cons (out : Nat) (c : UInt8) (s : Bytes) :
    decimalValue out (c :: s) = decimalValue (out * 10 + digit c) s := by
  rw [decimalValue, decimalValue, List.map_cons, value_cons]

variable {s : Bytes} {m out : Nat}

theorem le_decimalValue (out : Nat) (s : Bytes) : out ≤ decimalValue out s := le_value (by decide) out _

theorem allDigits_cons {c : UInt8} : AllDigits (c :: s) ↔ isDigit c = true ∧ AllDigits s := List.forall_mem_cons

theorem digit_le {c : UInt8} (h : isDigit c = true) : digit c ≤ 9 := by
  simp only [isDigit, Bool.and_eq_true, decide_eq_true_eq, UInt8.le_iff_toNat_le, UInt8.reduceToNat] at h
  simp only [digit]
  omega

theorem overruns_nil (h : out ≤ int64Max) : ¬Overruns out [] := by
  rintro ⟨p, hp, -, hv⟩
  rw [List.prefix_nil.1 hp] at hv
  simp only [decimalValue, List.map_nil, value_nil, int64Max] at hv h
  omega

theorem overruns_cons (h : out ≤ int64Max) (c : UInt8) (s : Bytes) :
    Overruns out (c :: s) ↔ isDigit c = true ∧ Overruns (out * 10 + digit c) s := by
  constructor
  · rintro ⟨p, hp, hd, hv⟩
    rcases List.prefix_cons_iff.1 hp with rfl | ⟨q, rfl, hq⟩
    · exact absurd ⟨[], List.prefix_refl [], hd, hv⟩ (overruns_nil h)
    · exact ⟨(allDigits_cons.1 hd).1, q, hq, (allDigits_cons.1 hd).2, hv⟩
  · rintro ⟨hc, q, hq, hd, hv⟩
    exact ⟨c :: q, List.prefix_cons_iff.2 (.inr ⟨q, rfl, hq⟩), allDigits_cons.2 ⟨hc, hd⟩, hv⟩

theorem not_overruns_of_lt (h : 2 ^ 63 + 1 < out) (s : Bytes) : ¬Overruns out s := by
  rintro ⟨p, -, -, hv⟩
  have hle := le_decimalValue out p
  omega

/-- **What the loop comes to**: it overflows on a number right above the largest, and without one it has the number, or
nothing when it does not fit. -/
theorem parseLoop_spec (h : out ≤ int64Max) (s : Bytes) :
    (Overruns out s → parseLoop out s = none) ∧
    (¬Overruns out s →
      parseLoop out s = some (if AllDigits s ∧ decimalValue out s ≤ int64Max then decimalValue out s else 0)) := by
  induction s generalizing out with
  | nil => exact ⟨fun ho => absurd ho (overruns_nil h), fun _ => by simp [parseLoop, AllDigits, decimalValue, h]⟩
  | cons c s ih =>
    rw [overruns_cons h, parseLoop, decimalValue_cons]
    simp only [allDigits_cons]
    cases hc : isDigit c with
    | false => simp
    | true =>
      have hd := digit_le hc
      have hle := le_decimalValue (out * 10 + digit c) s
      simp only [Bool.not_true, Bool.false_eq_true, if_false, true_and]
      by_cases hguard : int64Max / 10 < out
      · have hpast : 2 ^ 63 + 1 < out * 10 + digit c := by
          simp only [int64Max] at hguard
          omega
        have hlarge : ¬decimalValue (out * 10 + digit c) s ≤ int64Max := by
          simp only [int64Max]
          omega
        simp [hguard, hlarge, not_overruns_of_lt hpast s]
      · by_cases hover : int64Max < out * 10 + digit c
        · -- the guard leaves the last digit to decide, and only eight and nine are too much
          have hhit : out * 10 + digit c = 2 ^ 63 ∨ out * 10 + digit c = 2 ^ 63 + 1 := by
            simp only [int64Max] at hguard hover
            omega
          have hruns : Overruns (out * 10 + digit c) s := ⟨[], List.nil_prefix, by simp [AllDigits], hhit⟩
          rw [if_neg hguard, if_pos hover]
          exact ⟨fun _ => rfl, fun hn => absurd hruns hn⟩
        · rw [if_neg hguard, if_neg hover]
          exact ih (Nat.not_lt.1 hover)

theorem parseEventTimestampMicros_eq_iff (s : Bytes) :
    parseEventTimestampMicros s = some (timestampMeant s) ↔ ¬Overruns 0 s := by
  have hzero : 0 ≤ int64Max := Nat.zero_le _
  by_cases hs : s = []
  · subst hs
    simp [parseEventTimestampMicros, timestampMeant, overruns_nil hzero]
  · rw [parseEventTimestampMicros, if_neg hs]
    constructor
    · intro hp ho
      rw [(parseLoop_spec hzero s).1 ho] at hp
      cases hp
    · intro hn
      rw [(parseLoop_spec hzero s).2 hn, timestampMeant]
      exact congrArg some (if_congr ⟨fun h => ⟨hs, h⟩, And.right⟩ rfl rfl)

/-! ## The time in the envelope -/

theorem parseLoop_le (h : out ≤ int64Max) (hp : parseLoop out s = some m) : m ≤ int64Max := by
  have hn : ¬Overruns out s := by
    intro ho
    rw [(parseLoop_spec h s).1 ho] at hp
    cases hp
  rw [(parseLoop_spec h s).2 hn] at hp
  have hm := Option.some.inj hp
  split at hm
  · rename_i hfits
    rw [← hm]
    exact hfits.2
  · rw [← hm]
    exact Nat.zero_le _

/-- A parsed value is an `int64_t`. -/
theorem parseEventTimestampMicros_le (hp : parseEventTimestampMicros s = some m) : m ≤ int64Max := by
  by_cases hs : s = []
  · rw [parseEventTimestampMicros, if_pos hs] at hp
    rw [← Option.some.inj hp]
    exact Nat.zero_le _
  · rw [parseEventTimestampMicros, if_neg hs] at hp
    exact parseLoop_le (Nat.zero_le _) hp

/-- A timestamp is the time in microseconds, and normalised. -/
def Timestamp.IsMicros (t : Timestamp) (m : Nat) : Prop :=
  t.seconds.toInt * 10 ^ 6 + t.nanos.toInt / 1000 = m ∧ 0 ≤ t.nanos.toInt ∧ t.nanos.toInt < 10 ^ 9

theorem isMicros_emittedAt (h : m ≤ int64Max) : (emittedAt m).IsMicros m := by
  have hs : (emittedAt m).seconds.toInt = (m : Int) / 1000000 := by
    rw [emittedAt, BitVec.toInt_ofInt, Int.tdiv_eq_ediv_of_nonneg (Int.natCast_nonneg m)]
    apply Int.bmod_eq_of_le <;> simp only [int64Max] at h <;> omega
  have hn : (emittedAt m).nanos.toInt = (m : Int) % 1000000 * 1000 := by
    rw [emittedAt, BitVec.toInt_ofInt, Int.tmod_eq_emod_of_nonneg (Int.natCast_nonneg m)]
    apply Int.bmod_eq_of_le <;> omega
  rw [Timestamp.IsMicros, hs, hn]
  omega

/-- The header is read exactly, and so is the time in every envelope built from an event with it. -/
def TimestampExact (s : Bytes) : Prop :=
  parseEventTimestampMicros s = some (timestampMeant s) ∧
  ∀ m, parseEventTimestampMicros s = some m → 0 < m →
    ∀ (draw : Draw) (ev : SwitchEvent) (tier : Tier) (seq : BitVec 64) (nodeId : Bytes) (cfg : EnvelopeBuildConfig),
      ev.headerOr (str "Event-Date-Timestamp") = s →
        ∃ env t, buildEnvelope draw (some ev) tier seq nodeId cfg = .made env ∧ env.emittedAt = some t ∧ t.IsMicros m

/-- **Timestamps are exact on the headers with no number right above the largest in front.** -/
theorem timestamp_exact_iff (s : Bytes) :
    TimestampExact s ↔
      ¬∃ p, p <+: s ∧ AllDigits p ∧ (decimalValue 0 p = 2 ^ 63 ∨ decimalValue 0 p = 2 ^ 63 + 1) := by
  constructor
  · intro h
    exact (parseEventTimestampMicros_eq_iff s).1 h.1
  · intro h
    refine ⟨(parseEventTimestampMicros_eq_iff s).2 h, ?_⟩
    intro m hp hm draw ev tier seq nodeId cfg hev
    refine ⟨envelopeOf draw ev tier seq nodeId cfg m, emittedAt m, ?_, rfl,
      isMicros_emittedAt (parseEventTimestampMicros_le hp)⟩
    rw [buildEnvelope, hev, hp]
    simp only [if_pos hm]

/-- The number after the largest passes the guard. -/
theorem timestamp_overflows :
    parseEventTimestampMicros (str "9223372036854775808") = none ∧ ¬TimestampExact (str "9223372036854775808") := by
  have hnone : parseEventTimestampMicros (str "9223372036854775808") = none := by decide +kernel
  refine ⟨hnone, ?_⟩
  intro h
  rw [TimestampExact, hnone] at h
  cases h.1

end Events
end Osw
