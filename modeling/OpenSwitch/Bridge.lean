import OpenSwitch.ChannelHandlers
/-!
# Bridge — the Bridge handler (`bridge_handler.cc`)

`Bridge` joins two legs.  It takes the sessions in the order of their uuids, whatever their order in the request, and
hands them to the switch in the order of the request.  What it sees of the switch is what one call sees: the legs it
can locate and what the switch answers when it is asked to bridge them.
-/
namespace Osw
namespace Control

/-- `switch_channel_state_t`. -/
inductive ChannelState
  | new
  | init
  | routing
  | softExecute
  | execute
  | exchangeMedia
  | park
  | consumeMedia
  | hibernate
  | reset
  | hangup
  | reporting
  | destroy
  | none
  deriving DecidableEq, Repr

/-- `IsChannelBridgeable`. -/
def ChannelState.bridgeable : ChannelState → Bool
  | .routing | .execute => true
  | _ => false

/-- A located leg: whether its guard has a channel, and the channel's state. -/
structure Leg where
  attached : Bool
  state    : ChannelState
  deriving DecidableEq, Repr

/-- The switch at a `Bridge` call: the legs by the C string of their uuid, and the answer of `switch_ivr_uuid_bridge`. -/
structure BridgeSwitch where
  legs : Bytes → Option Leg
  rc   : Nat

/-- `SessionGuard::Locate`. -/
def BridgeSwitch.locate (sw : BridgeSwitch) (uuid : Bytes) : Option Leg :=
  if uuid = [] then none else sw.legs (cStr uuid)

structure BridgeRequest where
  legAUuid : Bytes
  legBUuid : Bytes
  deriving DecidableEq, Repr

/-- The two uuids in the order their sessions are taken. -/
def BridgeRequest.ordered (req : BridgeRequest) : Bytes × Bytes :=
  if req.legAUuid < req.legBUuid then (req.legAUuid, req.legBUuid) else (req.legBUuid, req.legAUuid)

def notBridgeable (uuid : Bytes) : Status :=
  ⟨.failedPrecondition, str "channel not in bridgeable state: uuid=" ++ uuid⟩

/-- How the part of `Bridge` after the cache lookup ends: what the switch was asked to bridge, the status, the
response, and whether the answer is stored or the reservation cancelled. -/
structure BridgeVerdict where
  asked    : List (Bytes × Bytes)
  status   : Status
  response : Bytes
  cached   : Bool
  deriving DecidableEq, Repr

/-- The part of `Bridge` after the cache lookup; the response is `bridged_uuid`. -/
def bridgeLive (req : BridgeRequest) (sw : BridgeSwitch) : BridgeVerdict :=
  let a := req.legAUuid
  let b := req.legBUuid
  if a = [] then ⟨[], invalidArgument (str "leg_a_uuid must not be empty"), [], true⟩
  else if b = [] then ⟨[], invalidArgument (str "leg_b_uuid must not be empty"), [], true⟩
  else if a = b then ⟨[], invalidArgument (str "leg_a_uuid and leg_b_uuid must be different"), [], true⟩
  else
    let first := req.ordered.1
    let second := req.ordered.2
    match sw.locate first with
    | none => ⟨[], sessionNotFound first, [], true⟩
    | some l₁ =>
      match sw.locate second with
      | none => ⟨[], sessionNotFound second, [], true⟩
      | some l₂ =>
        if !l₁.attached || !l₂.attached then ⟨[], channelNull, [], false⟩
        else if !l₁.state.bridgeable then ⟨[], notBridgeable first, [], true⟩
        else if !l₂.state.bridgeable then ⟨[], notBridgeable second, [], true⟩
        else if sw.rc ≠ FreeSwitch.statusSuccess then
          ⟨[(cStr a, cStr b)],
            ⟨.failedPrecondition, str "switch_ivr_uuid_bridge failed: rc=" ++ str (toString sw.rc)⟩, [], true⟩
        else ⟨[(cStr a, cStr b)], .okay, b, true⟩

/-- Of the exits of `Bridge` only the one for a null channel cancels, and it bridges nothing; no exit asks twice. -/
theorem bridgeLive_exit (req : BridgeRequest) (sw : BridgeSwitch) :
    (bridgeLive req sw).asked.length ≤ 1 ∧
    ((bridgeLive req sw).cached = false →
      (bridgeLive req sw).asked = [] ∧ (bridgeLive req sw).status = channelNull ∧
        ∃ l₁ l₂, sw.locate req.ordered.1 = some l₁ ∧ sw.locate req.ordered.2 = some l₂ ∧
          (l₁.attached = false ∨ l₂.attached = false)) := by
  unfold bridgeLive
  by_cases ha : req.legAUuid = []
  · rw [if_pos ha]
    exact ⟨by simp, nofun⟩
  by_cases hb : req.legBUuid = []
  · rw [if_neg ha, if_pos hb]
    exact ⟨by simp, nofun⟩
  by_cases hab : req.legAUuid = req.legBUuid
  · rw [if_neg ha, if_neg hb, if_pos hab]
    exact ⟨by simp, nofun⟩
  rw [if_neg ha, if_neg hb, if_neg hab]
  simp only
  cases h₁ : sw.locate req.ordered.1 with
  | none => exact ⟨by simp, nofun⟩
  | some l₁ =>
    cases h₂ : sw.locate req.ordered.2 with
    | none => exact ⟨by simp, nofun⟩
    | some l₂ =>
      simp only
      split
      · rename_i hnull
        refine ⟨by simp, fun _ => ⟨rfl, rfl, l₁, l₂, rfl, rfl, ?_⟩⟩
        simpa using hnull
      split
      · exact ⟨by simp, nofun⟩
      split
      · exact ⟨by simp, nofun⟩
      split
      · exact ⟨by simp, nofun⟩
      · exact ⟨by simp, nofun⟩

end Control
end Osw
