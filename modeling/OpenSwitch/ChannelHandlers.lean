import OpenSwitch.FreeSwitch
import OpenSwitch.VarDenylist
/-!
# ChannelHandlers — SetVariables, Hangup, Hold and Execute

The handlers of the control service that act on channels which exist.  A protobuf map is a list of its entries in the
order the loop meets them.  `SetVariables` looks at every name before it sets one; `Hangup` and `Hold` check and act
in the same pass.
-/
namespace Osw
namespace Control

def invalidArgument (message : Bytes) : Status := ⟨.invalidArgument, message⟩

def uuidEmpty : Status := invalidArgument (str "uuid must not be empty")

def sessionNotFound (uuid : Bytes) : Status := ⟨.notFound, str "session not found: uuid=" ++ uuid⟩

def channelNull : Status := ⟨.internal, str "channel pointer null"⟩

def alreadyHungUp (uuid : Bytes) : Status :=
  ⟨.failedPrecondition, str "channel already hung up: uuid=" ++ uuid⟩

def reservedName (name : Bytes) : Status :=
  invalidArgument (str "variable name is reserved: '" ++ name ++ str "'")

/-! ## SetVariables -/

structure SetVariablesRequest where
  uuid : Bytes
  vars : List (Bytes × Bytes)

def maxVariables : Nat := 64

def isVarNameByte (b : UInt8) : Bool :=
  (65 ≤ b && b ≤ 90) || (97 ≤ b && b ≤ 122) || (48 ≤ b && b ≤ 57) || b == 95 || b == 45

def isValidVarName (name : Bytes) : Bool := name != [] && name.all isVarNameByte

/-- The loop over the names, before any call of the switch: the first fault is the answer. -/
def checkNames : List (Bytes × Bytes) → Option Status
  | [] => none
  | (name, _) :: vars =>
    if !isValidVarName name then
      some (invalidArgument (str "invalid variable name: '" ++ name ++ str "' (must match [A-Za-z0-9_-]+)"))
    else if isReservedVar name then some (reservedName name)
    else checkNames vars

def setVariables (req : SetVariablesRequest) (fs : FreeSwitch) : FreeSwitch × Status :=
  if req.uuid = [] then (fs, uuidEmpty)
  else if req.vars = [] then (fs, invalidArgument (str "variables map must not be empty"))
  else if maxVariables < req.vars.length then
    (fs, ⟨.resourceExhausted, str "too many variables: max=" ++ str (toString maxVariables) ++ str " got=" ++
      str (toString req.vars.length)⟩)
  else
    match checkNames req.vars with
    | some st => (fs, st)
    | none =>
      match fs.locate req.uuid with
      | none => (fs, sessionNotFound req.uuid)
      | some ch =>
        if !ch.attached then (fs, channelNull)
        else (fs.setVariables req.uuid req.vars, .okay)

/-! ## Hangup -/

structure HangupRequest where
  uuid  : Bytes
  cause : Bytes
  vars  : List (Bytes × Bytes)

/-- The loop over the variables: each is set before the next one's name is looked at. -/
def hangupVariables (uuid : Bytes) : List (Bytes × Bytes) → FreeSwitch → FreeSwitch × Option Status
  | [], fs => (fs, none)
  | (k, v) :: vars, fs =>
    if isReservedVar k then (fs, some (reservedName k))
    else hangupVariables uuid vars (fs.channelSetVariable uuid k v)

def hangup (req : HangupRequest) (fs : FreeSwitch) : FreeSwitch × Status :=
  if req.uuid = [] then (fs, uuidEmpty)
  else
    match fs.locate req.uuid with
    | none => (fs, sessionNotFound req.uuid)
    | some ch =>
      if !ch.attached then (fs, channelNull)
      else if ch.hungUp then (fs, alreadyHungUp req.uuid)
      else
        match hangupVariables req.uuid req.vars fs with
        | (fs', some st) => (fs', st)
        | (fs', none) => (fs'.channelHangup req.uuid (causeFromString req.cause), .okay)

/-! ## Hold -/

structure HoldRequest where
  uuids : List Bytes

/-- The checks `Hold` makes of one uuid before it asks the switch. -/
def holdRefusal (uuid : Bytes) (fs : FreeSwitch) : Option Status :=
  if uuid = [] then some uuidEmpty
  else
    match fs.locate uuid with
    | none => some (sessionNotFound uuid)
    | some ch =>
      if !ch.attached then some channelNull
      else if !ch.answered then
        some ⟨.failedPrecondition, str "channel not in answered state: uuid=" ++ uuid⟩
      else if ch.onHold then some ⟨.failedPrecondition, str "channel already on hold: uuid=" ++ uuid⟩
      else none

/-- The loop over the uuids; the last component is `held_uuids` of the response. -/
def holdEach : List Bytes → FreeSwitch → List Bytes → FreeSwitch × Status × List Bytes
  | [], fs, held => (fs, .okay, held)
  | uuid :: uuids, fs, held =>
    match holdRefusal uuid fs with
    | some st => (fs, st, held)
    | none =>
      let (fs', rc) := fs.holdUuid uuid
      if rc ≠ FreeSwitch.statusSuccess then
        (fs', ⟨.internal, str "HoldUuid failed for uuid=" ++ uuid⟩, held)
      else holdEach uuids fs' (held ++ [uuid])

def hold (req : HoldRequest) (fs : FreeSwitch) : FreeSwitch × Status × List Bytes :=
  if req.uuids = [] then (fs, invalidArgument (str "uuids list must not be empty"), [])
  else holdEach req.uuids fs []

/-! ## Execute -/

/-- What a handler that uses the idempotency cache leaves behind: whether its answer is stored or its reservation
cancelled. -/
structure Verdict where
  fs       : FreeSwitch
  status   : Status
  response : Bytes
  cached   : Bool

structure ExecuteRequest where
  uuid : Bytes
  app  : Bytes
  args : Bytes

def allowedApps : List Bytes := [str "playback", str "set", str "hangup", str "answer"]

/-- A C string argument that is null when there is nothing to pass. -/
def nullIfEmpty (s : Bytes) : Option Bytes := if s = [] then none else some s

/-- The part of `Execute` after the cache lookup. -/
def executeLive (req : ExecuteRequest) (fs : FreeSwitch) : Verdict :=
  if req.uuid = [] then ⟨fs, uuidEmpty, [], true⟩
  else if req.app = [] then ⟨fs, invalidArgument (str "app must not be empty"), [], true⟩
  else if !allowedApps.contains req.app then
    ⟨fs, invalidArgument (str "app '" ++ req.app ++ str "' is not in the V1 allow-list"), [], true⟩
  else
    match fs.locate req.uuid with
    | none => ⟨fs, sessionNotFound req.uuid, [], true⟩
    | some ch =>
      if !ch.attached then ⟨fs, channelNull, [], false⟩
      else if ch.hungUp then ⟨fs, alreadyHungUp req.uuid, [], true⟩
      else if req.app = str "set" ∧ req.args ≠ [] ∧ isReservedVar (FreeSwitch.setName req.args) = true then
        ⟨fs, reservedName (FreeSwitch.setName req.args), [], true⟩
      else
        let (fs', rc) := fs.executeApplication req.uuid req.app (nullIfEmpty req.args)
        if rc ≠ FreeSwitch.statusSuccess then
          ⟨fs', ⟨.failedPrecondition, str "execute_application failed: rc=" ++ str (toString rc)⟩, [], true⟩
        else ⟨fs', .okay, [], true⟩

/-- `Execute`; `hit` is a cache hit whose response parses. -/
def execute (hit : Option Status) (req : ExecuteRequest) (fs : FreeSwitch) : FreeSwitch × Status :=
  match hit with
  | some st => (fs, st)
  | none    => ((executeLive req fs).fs, (executeLive req fs).status)

end Control
end Osw
