import OpenSwitch.ChannelHandlers
/-!
# Originate — dial options and the Originate handler

`OriginateOptions::Build` turns a request into the arguments of `switch_ivr_originate`: one dial string, a timeout in
whole seconds and an `ovars` event with the variables of the request.  Unlike the handlers that set variables on a
channel, it looks at no name.  The timeout is tested part by part and its seconds are cut to 32 bits, so that it is
what the request says for the durations of `Duration.Readable` only.
-/
namespace Osw
namespace Control

inductive Strategy
  | unspecified
  | failover
  | multiple
  | simultaneous
  deriving DecidableEq, Repr

/-- `google.protobuf.Duration`. -/
structure Duration where
  seconds : Int
  nanos   : Int
  deriving DecidableEq, Repr

structure OriginateRequest where
  endpoints      : List Bytes
  strategy       : Strategy
  callerIdName   : Bytes
  callerIdNumber : Bytes
  timeout        : Option Duration
  vars           : List (Bytes × Bytes)

structure OriginateOptions where
  dialString : Bytes
  cidName    : Bytes
  cidNum     : Bytes
  timeoutSec : Nat
  ovars      : List (Bytes × Bytes)

def defaultTimeoutSec : Nat := 60

def Strategy.separator : Strategy → Bytes
  | .simultaneous => str ","
  | .multiple     => str ":_:"
  | _             => str "|"

def buildDialString (req : OriginateRequest) : Bytes := req.strategy.separator.intercalate req.endpoints

/-- `timeout_sec`, when the timeout is accepted: the seconds as a `uint32_t`, one second for a fraction of one. -/
def timeoutSeconds : Option Duration → Option Nat
  | none => some defaultTimeoutSec
  | some d =>
    if d.seconds ≤ 0 ∧ d.nanos ≤ 0 then none
    else some (if 0 < d.seconds then (d.seconds % 2 ^ 32).toNat else 1)

/-- `OriginateOptions::Build`; `alloc` is whether the event of the variables can be made. -/
def OriginateOptions.build (alloc : Bool) (req : OriginateRequest) : Except Bytes OriginateOptions :=
  if req.endpoints = [] then .error (str "at least one endpoint is required")
  else
    match req.endpoints.findIdx? (fun e => e == []) with
    | some i => .error (str "endpoint at index " ++ str (toString i) ++ str " is empty")
    | none =>
      match timeoutSeconds req.timeout with
      | none => .error (str "timeout must be > 0")
      | some t =>
        if req.vars ≠ [] ∧ alloc = false then .error (str "failed to allocate channel variables event")
        else .ok ⟨buildDialString req, req.callerIdName, req.callerIdNumber, t,
          req.vars.map (fun kv => (cStr kv.1, cStr kv.2))⟩

/-- `SWITCH_CAUSE_ORIGINATOR_CANCEL`, `ALLOTTED_TIMEOUT`, `PROGRESS_TIMEOUT`, `MEDIA_TIMEOUT`. -/
def timeoutCauses : List Nat := [487, 802, 807, 804]

def mapOriginateFailure (cause : Nat) : Status :=
  if timeoutCauses.contains cause then ⟨.deadlineExceeded, str "originate timed out before answer"⟩
  else ⟨.failedPrecondition, str "originate failed: cause=" ++ causeToString cause⟩

/-- The part of `Originate` after the cache lookup; the response is `channel_uuid`. -/
def originateLive (req : OriginateRequest) (fs : FreeSwitch) : Verdict :=
  match OriginateOptions.build (fs.allocates fs.log.length) req with
  | .error e => ⟨fs, invalidArgument e, [], true⟩
  | .ok opts =>
    let (fs', o) := fs.originateSession opts.dialString opts.timeoutSec (nullIfEmpty opts.cidName)
      (nullIfEmpty opts.cidNum) opts.ovars
    if o.rc ≠ FreeSwitch.statusSuccess then ⟨fs', mapOriginateFailure o.cause, [], true⟩
    else
      match o.session with
      | none => ⟨fs', ⟨.unavailable, str "FS returned null session"⟩, [], false⟩
      | some (uuid, _) =>
        if uuid = [] then ⟨fs', ⟨.internal, str "originated session has no UUID"⟩, [], false⟩
        else ⟨fs', .okay, uuid, true⟩

/-- `Originate`; `hit` is a cache hit whose response parses. -/
def originate (hit : Option Status) (req : OriginateRequest) (fs : FreeSwitch) : FreeSwitch × Status :=
  match hit with
  | some st => (fs, st)
  | none    => ((originateLive req fs).fs, (originateLive req fs).status)

/-! ## The timeout -/

/-- On the wire the seconds are an `int64` and the nanoseconds an `int32`; they need not be normalised. -/
def Duration.InRange (d : Duration) : Prop :=
  -2 ^ 63 ≤ d.seconds ∧ d.seconds < 2 ^ 63 ∧ -2 ^ 31 ≤ d.nanos ∧ d.nanos < 2 ^ 31

def Duration.totalNanos (d : Duration) : Int := d.seconds * 10 ^ 9 + d.nanos

def Duration.wholeSeconds (d : Duration) : Int := d.totalNanos / 10 ^ 9

/-- Nothing but the timeout can make the request invalid. -/
def OriginateRequest.ValidButTimeout (alloc : Bool) (req : OriginateRequest) : Prop :=
  req.endpoints ≠ [] ∧ [] ∉ req.endpoints ∧ (req.vars ≠ [] → alloc = true)

/-- The seconds `t` stand for the duration: its whole seconds, one for less than a second, and no fewer than
`2 ^ 32 - 1` when there are too many. -/
def Duration.StoodFor (d : Duration) (t : Nat) : Prop :=
  1 ≤ t ∧ (d.wholeSeconds < 2 ^ 32 → (t : Int) = max 1 d.wholeSeconds) ∧ (2 ^ 32 ≤ d.wholeSeconds → 2 ^ 32 - 1 ≤ t)

/-- The result of `Build` keeps the duration: it is accepted exactly when positive, and its seconds stand for it. -/
def Duration.Kept (d : Duration) (r : Except Bytes OriginateOptions) : Prop :=
  ((∃ o, r = .ok o) ↔ 0 < d.totalNanos) ∧ ∀ o, r = .ok o → d.StoodFor o.timeoutSec

/-- The durations whose two parts can be looked at one by one. -/
def Duration.Readable (d : Duration) : Prop :=
  (d.seconds ≤ 0 ∧ d.nanos ≤ 0) ∨
  (d.seconds ≤ 0 ∧ 0 < d.nanos ∧ 0 < d.totalNanos ∧ d.totalNanos < 2 * 10 ^ 9) ∨
  (0 < d.seconds ∧ d.seconds < 2 ^ 32 ∧ 0 ≤ d.nanos ∧ d.nanos < 10 ^ 9) ∨
  (d.seconds = 1 ∧ -10 ^ 9 < d.nanos ∧ d.nanos < 0) ∨
  (d.seconds % 2 ^ 32 = 2 ^ 32 - 1 ∧ 2 ^ 32 * 10 ^ 9 ≤ d.totalNanos)

theorem build_of_validButTimeout {alloc : Bool} {req : OriginateRequest} (hv : req.ValidButTimeout alloc) :
    OriginateOptions.build alloc req =
      match timeoutSeconds req.timeout with
      | none => .error (str "timeout must be > 0")
      | some t => .ok ⟨buildDialString req, req.callerIdName, req.callerIdNumber, t,
          req.vars.map (fun kv => (cStr kv.1, cStr kv.2))⟩ := by
  obtain ⟨hne, hend, halloc⟩ := hv
  have hidx : req.endpoints.findIdx? (fun e => e == []) = none := by
    rw [List.findIdx?_eq_none_iff]
    intro e he
    exact beq_false_of_ne fun h => hend (h ▸ he)
  have hvars : ¬(req.vars ≠ [] ∧ alloc = false) := by
    rintro ⟨h, hf⟩
    rw [halloc h] at hf
    cases hf
  rw [OriginateOptions.build, if_neg hne, hidx]
  simp only [if_neg hvars]

variable {d : Duration}

/-- What `Build` keeps of a duration depends on its seconds alone. -/
theorem kept_build_iff {alloc : Bool} {req : OriginateRequest} (hv : req.ValidButTimeout alloc)
    (ht : req.timeout = some d) :
    d.Kept (OriginateOptions.build alloc req) ↔
      (((∃ t, timeoutSeconds (some d) = some t) ↔ 0 < d.totalNanos) ∧
        ∀ t, timeoutSeconds (some d) = some t → d.StoodFor t) := by
  rw [build_of_validButTimeout hv, ht, Duration.Kept]
  cases timeoutSeconds (some d) with
  | none => simp
  | some t => simp

theorem timeoutSeconds_none (hs : d.seconds ≤ 0) (hn : d.nanos ≤ 0) : timeoutSeconds (some d) = none :=
  if_pos ⟨hs, hn⟩

theorem timeoutSeconds_one (hs : d.seconds ≤ 0) (hn : 0 < d.nanos) : timeoutSeconds (some d) = some 1 := by
  rw [timeoutSeconds, if_neg (fun h => Int.not_le.2 hn h.2), if_neg (Int.not_lt.2 hs)]

theorem timeoutSeconds_pos (hs : 0 < d.seconds) : timeoutSeconds (some d) = some (d.seconds % 2 ^ 32).toNat := by
  rw [timeoutSeconds, if_neg (fun h => Int.not_le.2 hs h.1), if_pos hs]

theorem stoodFor_one_iff (hpos : 0 < d.totalNanos) : d.StoodFor 1 ↔ d.totalNanos < 2 * 10 ^ 9 := by
  simp only [Duration.StoodFor, Duration.wholeSeconds]
  omega

theorem stoodFor_seconds_iff (hr : d.InRange) (hs : 0 < d.seconds) (hpos : 0 < d.totalNanos) :
    d.StoodFor (d.seconds % 2 ^ 32).toNat ↔
      (d.seconds < 2 ^ 32 ∧ 0 ≤ d.nanos ∧ d.nanos < 10 ^ 9) ∨ (d.seconds = 1 ∧ -10 ^ 9 < d.nanos ∧ d.nanos < 0) ∨
      (d.seconds % 2 ^ 32 = 2 ^ 32 - 1 ∧ 2 ^ 32 * 10 ^ 9 ≤ d.totalNanos) := by
  simp only [Duration.InRange, Duration.StoodFor, Duration.wholeSeconds, Duration.totalNanos] at *
  omega

/-- **`Build` keeps a duration exactly when it is readable part by part.** -/
theorem build_keeps_timeout_iff (alloc : Bool) (req : OriginateRequest) (d : Duration) (hv : req.ValidButTimeout alloc)
    (ht : req.timeout = some d) (hr : d.InRange) :
    d.Kept (OriginateOptions.build alloc req) ↔ d.Readable := by
  rw [kept_build_iff hv ht]
  -- the sign of the seconds decides whether they or one second are taken; the nanoseconds only let a request in
  by_cases hs : 0 < d.seconds
  · rw [timeoutSeconds_pos hs]
    have hnot : ¬d.seconds ≤ 0 := Int.not_le.2 hs
    simp only [Option.some.injEq, exists_eq', true_iff, forall_eq', Duration.Readable, hnot, hs, false_and, false_or,
      true_and]
    constructor
    · rintro ⟨hpos, hkept⟩
      exact (stoodFor_seconds_iff hr hs hpos).1 hkept
    · intro h
      have hpos : 0 < d.totalNanos := by
        simp only [Duration.totalNanos] at *
        omega
      exact ⟨hpos, (stoodFor_seconds_iff hr hs hpos).2 h⟩
  · have hle := Int.not_lt.1 hs
    by_cases hn : d.nanos ≤ 0
    · have hpos : ¬0 < d.totalNanos := by
        simp only [Duration.totalNanos]
        omega
      rw [timeoutSeconds_none hle hn]
      exact ⟨fun _ => .inl ⟨hle, hn⟩, fun _ => ⟨by simp [hpos], by simp⟩⟩
    · have hlt := Int.not_le.1 hn
      rw [timeoutSeconds_one hle hlt]
      simp only [Option.some.injEq, exists_eq', true_iff, forall_eq']
      constructor
      · rintro ⟨hpos, hkept⟩
        exact .inr (.inl ⟨hle, hlt, hpos, (stoodFor_one_iff hpos).1 hkept⟩)
      · intro h
        have hT : 0 < d.totalNanos ∧ d.totalNanos < 2 * 10 ^ 9 := by
          simp only [Duration.Readable, Duration.InRange, Duration.totalNanos] at *
          omega
        exact ⟨hT.1, (stoodFor_one_iff hT.1).2 hT.2⟩

/-- A request with nothing but an endpoint and a timeout. -/
def timeoutRequest (seconds nanos : Int) : OriginateRequest :=
  ⟨[str "user/1000"], .failover, [], [], some ⟨seconds, nanos⟩, []⟩

theorem validButTimeout_timeoutRequest (seconds nanos : Int) :
    (timeoutRequest seconds nanos).ValidButTimeout true := by
  refine ⟨List.cons_ne_nil _ _, ?_, fun _ => rfl⟩
  intro h
  exact absurd (List.mem_singleton.1 h) (by decide +kernel)

theorem build_keeps_ninety_seconds :
    (⟨90, 500000000⟩ : Duration).Kept (OriginateOptions.build true (timeoutRequest 90 500000000)) :=
  (build_keeps_timeout_iff true (timeoutRequest 90 500000000) ⟨90, 500000000⟩ (validButTimeout_timeoutRequest _ _) rfl
    (by simp [Duration.InRange])).2 (by simp [Duration.Readable])

/-- `2 ^ 32` seconds are accepted as a timeout of zero, and a negative duration as one of a second. -/
theorem build_loses_long_timeout :
    ((timeoutRequest 4294967296 0).ValidButTimeout true ∧ (⟨4294967296, 0⟩ : Duration).InRange ∧
      (OriginateOptions.build true (timeoutRequest 4294967296 0)).toOption.map (·.timeoutSec) = some 0 ∧
      ¬(⟨4294967296, 0⟩ : Duration).Kept (OriginateOptions.build true (timeoutRequest 4294967296 0))) ∧
    ((timeoutRequest (-1) 1).ValidButTimeout true ∧ (⟨-1, 1⟩ : Duration).InRange ∧
      (OriginateOptions.build true (timeoutRequest (-1) 1)).toOption.map (·.timeoutSec) = some 1 ∧
      ¬(⟨-1, 1⟩ : Duration).Kept (OriginateOptions.build true (timeoutRequest (-1) 1))) := by
  have hlong : timeoutSeconds (some ⟨4294967296, 0⟩) = some 0 := by decide
  have hneg : timeoutSeconds (some ⟨-1, 1⟩) = some 1 := by decide
  refine ⟨⟨validButTimeout_timeoutRequest _ _, by simp [Duration.InRange], ?_, ?_⟩,
    validButTimeout_timeoutRequest _ _, by simp [Duration.InRange], ?_, ?_⟩
  · rw [build_of_validButTimeout (validButTimeout_timeoutRequest _ _), timeoutRequest, hlong]
    rfl
  · rw [kept_build_iff (validButTimeout_timeoutRequest _ _) rfl, hlong]
    simp [Duration.StoodFor]
  · rw [build_of_validButTimeout (validButTimeout_timeoutRequest _ _), timeoutRequest, hneg]
    rfl
  · rw [kept_build_iff (validButTimeout_timeoutRequest _ _) rfl, hneg]
    simp [Duration.totalNanos]

end Control
end Osw
