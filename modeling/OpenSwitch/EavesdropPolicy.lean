import OpenSwitch.FreeSwitch
/-!
# EavesdropPolicy — tenant policies and the marker on a bot's channel

A tenant's policy is read from the module's configuration (`ResolveEffectivePolicy`), written on the channel as four
variables (`MarkBotSession`) and read back from them by the eavesdrop application and the detector.  What is read back
is what was written.
-/
namespace Osw
namespace Security

inductive EavesdropPolicy
  | deny
  | audit
  | allow
  deriving DecidableEq, Repr

def lowerTrim (raw : Bytes) : Bytes := (trim raw).map toLower

def parseEavesdropPolicy (raw : Bytes) : EavesdropPolicy :=
  if lowerTrim raw = str "audit" then .audit
  else if lowerTrim raw = str "allow" then .allow
  else .deny

def EavesdropPolicy.name : EavesdropPolicy → Bytes
  | .audit => str "audit"
  | .allow => str "allow"
  | .deny  => str "deny"

def isKnownEavesdropPolicy (raw : Bytes) : Bool :=
  [str "deny", str "audit", str "allow"].contains (lowerTrim raw)

/-! ## Tenant entries -/

/-- The pieces of a string between separators; nothing follows a separator at the end. -/
def splitEntries (sep : UInt8) : Bytes → List Bytes
  | [] => []
  | b :: bs =>
    if b = sep then [] :: splitEntries sep bs
    else
      match splitEntries sep bs with
      | []      => [[b]]
      | e :: es => (b :: e) :: es

/-- What stands before the first colon and after it. -/
def cutAtColon (s : Bytes) : Option (Bytes × Bytes) :=
  if s.contains 58 then some (s.takeWhile (fun b => b != 58), (s.dropWhile (fun b => b != 58)).tail) else none

structure TenantEntry where
  tenant : Bytes
  policy : Bytes
  gate   : Bytes
  deriving DecidableEq, Repr

def splitTenantEntry (entry : Bytes) : Option TenantEntry :=
  match cutAtColon entry with
  | none => none
  | some (before, rest) =>
    if trim before = [] then none
    else
      let e : TenantEntry :=
        match cutAtColon rest with
        | none          => ⟨trim before, trim rest, []⟩
        | some (p, gate) => ⟨trim before, trim p, trim gate⟩
      if e.policy = [] then none else some e

def gateForcesDeny (gate : Bytes) : Bool :=
  [str "deny", str "false", str "0", str "off"].contains (lowerTrim gate)

/-- The two settings the resolver reads. -/
structure PolicyConfig where
  eavesdropPolicy         : Bytes
  tenantEavesdropPolicies : Bytes

/-- The loop over the entries: the first one of the tenant decides. -/
def resolveEntries (config : PolicyConfig) (tenantId : Bytes) : List Bytes → EavesdropPolicy
  | [] => parseEavesdropPolicy config.eavesdropPolicy
  | entry :: entries =>
    match splitTenantEntry (trim entry) with
    | none => resolveEntries config tenantId entries
    | some e =>
      if e.tenant ≠ tenantId then resolveEntries config tenantId entries
      else if e.gate ≠ [] ∧ gateForcesDeny e.gate = true then .deny
      else parseEavesdropPolicy e.policy

def resolveEffectivePolicy (config : PolicyConfig) (tenantId : Bytes) : EavesdropPolicy :=
  resolveEntries config tenantId (splitEntries 59 config.tenantEavesdropPolicies)

/-- The check of one entry: what its error says after the setting's name. -/
def tenantEntryError (entry : Bytes) : Option Bytes :=
  if trim entry = [] then none
  else
    match splitTenantEntry (trim entry) with
    | none => some (str " entry must be tenant:policy[:allow|deny]")
    | some e =>
      if isKnownEavesdropPolicy e.policy = false then some (str " contains unknown policy")
      else if e.gate ≠ [] ∧ ¬ [str "allow", str "true", str "1", str "on"].contains (lowerTrim e.gate) ∧
          ¬ gateForcesDeny (lowerTrim e.gate) then
        some (str " gate must be allow/deny or true/false")
      else none

/-- `ValidateTenantEavesdropPolicies`: the error of the first entry that has one. -/
def validateTenantEavesdropPolicies (raw : Bytes) : Option Bytes := (splitEntries 59 raw).findSome? tenantEntryError

/-! ## The marker -/

def botSessionVar : Bytes := str "osw_bot_session"
def botPurposeVar : Bytes := str "osw_bot_purpose"
def eavesdropPolicyVar : Bytes := str "osw_eavesdrop_policy"
def tenantVar : Bytes := str "osw_tenant"

def markerVars : List Bytes := [botSessionVar, botPurposeVar, eavesdropPolicyVar, tenantVar]

/-- The variables `MarkBotSession` sets, in its order. -/
def markWrites (purpose : Bytes) (policy : EavesdropPolicy) (tenant : Bytes) : List (Bytes × Bytes) :=
  [(botSessionVar, str "true"), (botPurposeVar, purpose), (eavesdropPolicyVar, policy.name), (tenantVar, tenant)]

def markBotSession (purpose : Bytes) (policy : EavesdropPolicy) (tenant : Bytes) (c : Channel) : Channel :=
  c.setVariables ((markWrites purpose policy tenant).map (fun kv => (kv.1, cStr kv.2)))

/-- `osw_bot_session` is `true`. -/
def isMarked (c : Channel) : Bool := c.vars botSessionVar == some (str "true")

/-- The policy a reader takes from the channel: `deny` when the variable is missing. -/
def readPolicy (c : Channel) : EavesdropPolicy :=
  match c.vars eavesdropPolicyVar with
  | some raw => parseEavesdropPolicy raw
  | none     => .deny

theorem parseEavesdropPolicy_name (p : EavesdropPolicy) : parseEavesdropPolicy p.name = p := by
  cases p <;> decide +kernel

theorem botSessionVar_ne : botSessionVar ≠ [] ∧ botSessionVar ≠ botPurposeVar ∧ botSessionVar ≠ eavesdropPolicyVar ∧
    botSessionVar ≠ tenantVar := by
  decide +kernel

theorem eavesdropPolicyVar_ne : eavesdropPolicyVar ≠ [] ∧ eavesdropPolicyVar ≠ botSessionVar ∧
    eavesdropPolicyVar ≠ botPurposeVar ∧ eavesdropPolicyVar ≠ tenantVar := by
  decide +kernel

theorem cStr_true : cStr (str "true") = str "true" ∧ str "true" ≠ [] := by
  decide +kernel

theorem cStr_name (p : EavesdropPolicy) : cStr p.name = p.name ∧ p.name ≠ [] := by
  cases p <;> decide +kernel

theorem isMarked_setVariable_of_ne {c : Channel} {name : Bytes} (value : Bytes) (h : botSessionVar ≠ name) :
    isMarked (c.setVariable name value) = isMarked c := by
  simp only [isMarked, Channel.setVariable_vars_of_ne c value h]

theorem readPolicy_setVariable_of_ne {c : Channel} {name : Bytes} (value : Bytes) (h : eavesdropPolicyVar ≠ name) :
    readPolicy (c.setVariable name value) = readPolicy c := by
  simp only [readPolicy, Channel.setVariable_vars_of_ne c value h]

theorem isMarked_setVariable_true (c : Channel) : isMarked (c.setVariable botSessionVar (cStr (str "true"))) = true := by
  rw [isMarked, cStr_true.1, Channel.setVariable_vars_self c botSessionVar_ne.1 cStr_true.2, beq_self_eq_true]

theorem readPolicy_setVariable_name (c : Channel) (p : EavesdropPolicy) :
    readPolicy (c.setVariable eavesdropPolicyVar (cStr p.name)) = p := by
  rw [readPolicy, (cStr_name p).1, Channel.setVariable_vars_self c eavesdropPolicyVar_ne.1 (cStr_name p).2]
  exact parseEavesdropPolicy_name p

end Security
end Osw
