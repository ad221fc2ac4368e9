import OpenSwitch.EavesdropPolicy
import Mathlib.Data.List.DropRight
/-!
# TenantPolicies — the tenant policies mean what validation accepted

`tenant_eavesdrop_policies` is read by two loops that were written apart: `ValidateTenantEavesdropPolicies` when the module
is configured, `ResolveEffectivePolicy` whenever a bot is attached.  The grammar they have in common is stated here without
either of them, on the pieces between semicolons and between colons (`entryRule`); the first loop accepts exactly the
strings of the grammar, and the second returns what the first rule of the tenant says.
-/
namespace Osw
namespace Security

/-! ## Blanks around a string -/

section trim

variable {a b s : Bytes} {c : UInt8}

theorem trim_eq (s : Bytes) : trim s = (s.dropWhile isSpace).rdropWhile isSpace := rfl

theorem dropWhile_append_cons (hc : isSpace c = false) :
    (a ++ c :: b).dropWhile isSpace = a.dropWhile isSpace ++ c :: b := by
  induction a with
  | nil => simp [hc]
  | cons x a ih =>
    rw [List.cons_append, List.dropWhile_cons, List.dropWhile_cons]
    split
    · exact ih
    · rfl

theorem rdropWhile_append_cons (hc : isSpace c = false) :
    (a ++ c :: b).rdropWhile isSpace = a ++ c :: b.rdropWhile isSpace := by
  have h := dropWhile_append_cons (a := b.reverse) (b := a.reverse) hc
  simp [List.rdropWhile, h]

theorem trim_append_cons (hc : isSpace c = false) :
    trim (a ++ c :: b) = a.dropWhile isSpace ++ c :: b.rdropWhile isSpace := by
  rw [trim_eq, dropWhile_append_cons hc, rdropWhile_append_cons hc]

theorem trim_dropWhile (s : Bytes) : trim (s.dropWhile isSpace) = trim s := by
  rw [trim_eq, trim_eq, List.dropWhile_idempotent]

theorem trim_eq_nil (h : ∀ b ∈ s, isSpace b = true) : trim s = [] := by
  simp [trim, List.dropWhile_eq_nil_iff.2 h]

theorem trim_rdropWhile (s : Bytes) : trim (s.rdropWhile isSpace) = trim s := by
  by_cases h : ∀ b ∈ s, isSpace b = true
  · rw [List.rdropWhile_eq_nil_iff.2 h, trim_eq_nil h]
    rfl
  · simp only [not_forall, Bool.not_eq_true] at h
    obtain ⟨c, hmem, hc⟩ := h
    obtain ⟨a, b, rfl⟩ := List.append_of_mem hmem
    rw [rdropWhile_append_cons hc, trim_append_cons hc, trim_append_cons hc, List.rdropWhile_idempotent]

theorem trim_trim (s : Bytes) : trim (trim s) = trim s := (trim_rdropWhile _).trans (trim_dropWhile s)

theorem mem_of_mem_rdropWhile (h : c ∈ s.rdropWhile isSpace) : c ∈ s := (List.rdropWhile_prefix isSpace s).subset h

theorem mem_of_mem_dropWhile (h : c ∈ s.dropWhile isSpace) : c ∈ s := (List.dropWhile_sublist isSpace).subset h

theorem mem_of_mem_trim (h : c ∈ trim s) : c ∈ s := mem_of_mem_dropWhile (mem_of_mem_rdropWhile h)

theorem mem_trim_of_mem (hc : isSpace c = false) (h : c ∈ s) : c ∈ trim s := by
  obtain ⟨a, b, rfl⟩ := List.append_of_mem h
  rw [trim_append_cons hc]
  exact List.mem_append_right _ List.mem_cons_self

theorem trim_map_toLower (s : Bytes) : trim (s.map toLower) = (trim s).map toLower := by
  have hcomp : isSpace ∘ toLower = isSpace := funext isSpace_toLower
  simp only [trim, List.dropWhile_map, ← List.map_reverse, hcomp]

theorem lowerTrim_lowerTrim (s : Bytes) : lowerTrim (lowerTrim s) = lowerTrim s := by
  have hcomp : toLower ∘ toLower = toLower := funext toLower_toLower
  unfold lowerTrim
  rw [trim_map_toLower, trim_trim, List.map_map, hcomp]

theorem lowerTrim_trim (s : Bytes) : lowerTrim (trim s) = lowerTrim s := by
  rw [lowerTrim, trim_trim, lowerTrim]

end trim

/-! ## The grammar -/

/-- The policy a word stands for. -/
def policyNamed (word : Bytes) : Option EavesdropPolicy :=
  if word = str "audit" then some .audit
  else if word = str "allow" then some .allow
  else if word = str "deny" then some .deny
  else none

/-- Whether the word of a gate says deny; no word at all is as good as `allow`. -/
def gateNamed (word : Bytes) : Option Bool :=
  if word ∈ [str "deny", str "false", str "0", str "off"] then some true
  else if word = [] ∨ word ∈ [str "allow", str "true", str "1", str "on"] then some false
  else none

/-- What an entry of the setting says: the policy of a tenant. -/
structure TenantRule where
  tenant : Bytes
  policy : EavesdropPolicy
  deriving DecidableEq, Repr

/-- The rule of three parts of an entry. -/
def partsRule (tenant policy gate : Bytes) : Option TenantRule :=
  if trim tenant = [] then none
  else
    match policyNamed (lowerTrim policy), gateNamed (lowerTrim gate) with
    | some p, some denies => some ⟨trim tenant, if denies then .deny else p⟩
    | _, _                => none

/-- The rule of an entry: `tenant:policy` or `tenant:policy:gate`. -/
def entryRule (entry : Bytes) : Option TenantRule :=
  match entry.splitOn 58 with
  | [tenant, policy]       => partsRule tenant policy []
  | [tenant, policy, gate] => partsRule tenant policy gate
  | _                      => none

/-- The rules of the setting, in their order. -/
def tenantRules (raw : Bytes) : List TenantRule := (raw.splitOn 59).filterMap entryRule

/-! ## One entry -/

/-- Where the colons of an entry are. -/
inductive Colons : Bytes → Prop
  | none {s : Bytes} (h : 58 ∉ s) : Colons s
  | one {t p : Bytes} (ht : 58 ∉ t) (hp : 58 ∉ p) : Colons (t ++ 58 :: p)
  | two {t p : Bytes} (g : Bytes) (ht : 58 ∉ t) (hp : 58 ∉ p) : Colons (t ++ 58 :: (p ++ 58 :: g))

theorem colons (s : Bytes) : Colons s := by
  by_cases h : (58 : UInt8) ∈ s
  · obtain ⟨t, rest, rfl, ht⟩ := List.eq_append_cons_of_mem h
    by_cases hrest : (58 : UInt8) ∈ rest
    · obtain ⟨p, g, rfl, hp⟩ := List.eq_append_cons_of_mem hrest
      exact .two g ht hp
    · exact .one ht hrest
  · exact .none h

variable {p t : Bytes}

theorem cutAtColon_of_not_mem {s : Bytes} (h : 58 ∉ s) : cutAtColon s = none := by
  simp [cutAtColon, h]

theorem cutAtColon_append (rest : Bytes) (h : 58 ∉ t) : cutAtColon (t ++ 58 :: rest) = some (t, rest) := by
  have hall : ∀ b ∈ t, (b != 58) = true := by
    intro b hb
    simp only [bne_iff_ne, ne_eq]
    rintro rfl
    exact h hb
  simp [cutAtColon, List.takeWhile_append_of_pos hall, List.dropWhile_append_of_pos hall]

/-- What `SplitTenantEntry` makes of three parts. -/
def partsEntry (tenant policy gate : Bytes) : Option TenantEntry :=
  if trim tenant = [] then none
  else if trim policy = [] then none
  else some ⟨trim tenant, trim policy, trim gate⟩

theorem splitTenantEntry_none {s : Bytes} (h : 58 ∉ s) : splitTenantEntry s = none := by
  simp only [splitTenantEntry, cutAtColon_of_not_mem h]

theorem splitTenantEntry_one (ht : 58 ∉ t) (hp : 58 ∉ p) : splitTenantEntry (t ++ 58 :: p) = partsEntry t p [] := by
  simp only [splitTenantEntry, cutAtColon_append p ht, cutAtColon_of_not_mem hp]
  rfl

theorem splitTenantEntry_two (g : Bytes) (ht : 58 ∉ t) (hp : 58 ∉ p) :
    splitTenantEntry (t ++ 58 :: (p ++ 58 :: g)) = partsEntry t p g := by
  simp only [splitTenantEntry, cutAtColon_append _ ht, cutAtColon_append g hp]
  rfl

theorem partsEntry_congr {g t' p' g' : Bytes} (ht : trim t' = trim t) (hp : trim p' = trim p) (hg : trim g' = trim g) :
    partsEntry t' p' g' = partsEntry t p g := by
  simp only [partsEntry, ht, hp, hg]

/-- **The blanks around an entry do not matter.** -/
theorem splitTenantEntry_trim (s : Bytes) : splitTenantEntry (trim s) = splitTenantEntry s := by
  have hcolon : isSpace 58 = false := rfl
  cases colons s with
  | none h => rw [splitTenantEntry_none h, splitTenantEntry_none (fun hm => h (mem_of_mem_trim hm))]
  | @one t p ht hp =>
    have ht' : 58 ∉ t.dropWhile isSpace := fun hm => ht (mem_of_mem_dropWhile hm)
    have hp' : 58 ∉ p.rdropWhile isSpace := fun hm => hp (mem_of_mem_rdropWhile hm)
    rw [trim_append_cons hcolon, splitTenantEntry_one ht' hp', splitTenantEntry_one ht hp]
    exact partsEntry_congr (trim_dropWhile t) (trim_rdropWhile p) rfl
  | @two t p g ht hp =>
    have ht' : 58 ∉ t.dropWhile isSpace := fun hm => ht (mem_of_mem_dropWhile hm)
    rw [trim_append_cons hcolon, rdropWhile_append_cons hcolon, splitTenantEntry_two _ ht' hp, splitTenantEntry_two g ht hp]
    exact partsEntry_congr (trim_dropWhile t) rfl (trim_rdropWhile g)

/-- The gate of an entry is empty or known. -/
def knownGate (gate : Bytes) : Bool :=
  gate == [] || [str "allow", str "true", str "1", str "on"].contains (lowerTrim gate) || gateForcesDeny (lowerTrim gate)

/-- What `ResolveEffectivePolicy` returns for an entry of the tenant. -/
def entryPolicy (e : TenantEntry) : EavesdropPolicy :=
  if e.gate ≠ [] ∧ gateForcesDeny e.gate = true then .deny else parseEavesdropPolicy e.policy

/-- The rule of an entry, from what `SplitTenantEntry` has made of it. -/
def splitRule (e : TenantEntry) : Option TenantRule :=
  if isKnownEavesdropPolicy e.policy && knownGate e.gate then some ⟨e.tenant, entryPolicy e⟩ else none

theorem policyNamed_eq (word : Bytes) :
    policyNamed word = if [str "deny", str "audit", str "allow"].contains word then
      some (if word = str "audit" then .audit else if word = str "allow" then .allow else .deny) else none := by
  unfold policyNamed
  split_ifs <;> simp_all

theorem gateNamed_eq (word : Bytes) :
    gateNamed word = if word == [] || [str "allow", str "true", str "1", str "on"].contains word
        || [str "deny", str "false", str "0", str "off"].contains word then
      some (decide (word ≠ [] ∧ [str "deny", str "false", str "0", str "off"].contains word = true)) else none := by
  have hne : ([] : Bytes) ∉ [str "deny", str "false", str "0", str "off"] := by decide +kernel
  unfold gateNamed
  by_cases hdeny : word ∈ [str "deny", str "false", str "0", str "off"]
  · have hword : word ≠ [] := fun he => hne (he ▸ hdeny)
    rw [if_pos hdeny, List.contains_iff_mem.2 hdeny, Bool.or_true, if_pos rfl]
    simp [hword]
  · have hcontains : [str "deny", str "false", str "0", str "off"].contains word = false := by
      simpa using hdeny
    rw [if_neg hdeny, hcontains]
    split_ifs <;> simp_all

theorem lowerTrim_eq_nil (s : Bytes) : lowerTrim s = [] ↔ trim s = [] := List.map_eq_nil_iff

theorem partsRule_eq (t p g : Bytes) : partsRule t p g = (partsEntry t p g).bind splitRule := by
  have hnone : policyNamed [] = none := by decide +kernel
  unfold partsRule partsEntry
  split
  · rfl
  · by_cases hp : trim p = []
    · rw [if_pos hp, (lowerTrim_eq_nil p).2 hp, hnone]
      rfl
    · have hgate : (trim g == []) = (lowerTrim g == []) := by
        rw [Bool.eq_iff_iff, beq_iff_eq, beq_iff_eq, lowerTrim_eq_nil]
      rw [if_neg hp, policyNamed_eq, gateNamed_eq]
      simp only [Option.bind_some, splitRule, entryPolicy, isKnownEavesdropPolicy, knownGate, gateForcesDeny,
        parseEavesdropPolicy, lowerTrim_trim, lowerTrim_lowerTrim, hgate, ne_eq, ← lowerTrim_eq_nil]
      cases hknown : [str "deny", str "audit", str "allow"].contains (lowerTrim p) with
      | false => rfl
      | true =>
        generalize (lowerTrim g == [] || [str "allow", str "true", str "1", str "on"].contains (lowerTrim g)
          || [str "deny", str "false", str "0", str "off"].contains (lowerTrim g)) = gateKnown
        cases gateKnown with
        | false => rfl
        | true => simp only [Bool.and_self, if_true, decide_eq_true_eq]

/-- A colon more than the grammar has makes a gate that is not known. -/
theorem splitRule_colon {g : Bytes} (hg : 58 ∈ g) : (partsEntry t p g).bind splitRule = none := by
  have hdenies : ∀ w ∈ [str "deny", str "false", str "0", str "off"], (58 : UInt8) ∉ w := by decide +kernel
  have hallows : ∀ w ∈ [str "allow", str "true", str "1", str "on"], (58 : UInt8) ∉ w := by decide +kernel
  have hmem : (58 : UInt8) ∈ lowerTrim g := List.mem_map.2 ⟨58, mem_trim_of_mem rfl hg, rfl⟩
  have hgate : gateNamed (lowerTrim g) = none := by
    unfold gateNamed
    rw [if_neg, if_neg]
    · rintro (he | hin)
      · rw [he] at hmem
        cases hmem
      · exact hallows _ hin hmem
    · exact fun hin => hdenies _ hin hmem
  rw [← partsRule_eq, partsRule, hgate]
  split
  · rfl
  · split
    · rename_i hnone
      cases hnone
    · rfl

theorem splitOn_append_cons {sep : UInt8} (rest : Bytes) (h : sep ∉ t) :
    (t ++ sep :: rest).splitOn sep = t :: rest.splitOn sep := by
  have hnot : ∀ x ∈ t, (fun x => x == sep) x = false := by
    intro x hx
    rw [beq_eq_false_iff_ne]
    rintro rfl
    exact h hx
  exact List.splitOnP_append_cons_of_forall_mem hnot sep (beq_self_eq_true sep) rest

/-- **The grammar's rule of an entry is the one the code has after splitting and checking it.** -/
theorem entryRule_eq (e : Bytes) : entryRule e = (splitTenantEntry e).bind splitRule := by
  unfold entryRule
  cases colons e with
  | none h =>
    rw [List.splitOn_eq_singleton h, splitTenantEntry_none h]
    rfl
  | @one t p ht hp =>
    rw [splitOn_append_cons p ht, List.splitOn_eq_singleton hp, splitTenantEntry_one ht hp]
    exact partsRule_eq t p []
  | @two t p g ht hp =>
    rw [splitOn_append_cons _ ht, splitOn_append_cons g hp, splitTenantEntry_two g ht hp]
    by_cases hg : 58 ∈ g
    · rw [splitRule_colon hg]
      obtain ⟨a, b, rfl, ha⟩ := List.eq_append_cons_of_mem hg
      rw [splitOn_append_cons b ha]
      obtain ⟨x, xs, hx⟩ := List.exists_cons_of_ne_nil (List.splitOn_ne_nil 58 b)
      rw [hx]
    · rw [List.splitOn_eq_singleton hg]
      exact partsRule_eq t p g

theorem tenantEntryError_eq_none (e : Bytes) : tenantEntryError e = none ↔ (trim e ≠ [] → (entryRule e).isSome = true) := by
  unfold tenantEntryError
  by_cases hblank : trim e = []
  · simp [hblank]
  · rw [if_neg hblank, splitTenantEntry_trim, entryRule_eq]
    cases splitTenantEntry e with
    | none => simp [hblank]
    | some te =>
      have hgate : knownGate te.gate = true ↔
          ¬ (te.gate ≠ [] ∧ ¬ [str "allow", str "true", str "1", str "on"].contains (lowerTrim te.gate) ∧
            ¬ gateForcesDeny (lowerTrim te.gate)) := by
        simp only [knownGate, Bool.or_eq_true, beq_iff_eq]
        rw [not_and_or, not_and_or, not_not, not_not, not_not, or_assoc]
      cases hknown : isKnownEavesdropPolicy te.policy with
      | false => simp [hblank, splitRule, hknown]
      | true =>
        simp only [hknown, Bool.true_eq_false, if_false, Option.bind_some, splitRule, Bool.true_and]
        by_cases hg : knownGate te.gate = true
        · rw [if_neg (hgate.1 hg), if_pos hg]
          simp
        · rw [if_pos (not_not.1 (fun hn => hg (hgate.2 hn))), if_neg hg]
          simp [hblank]

theorem entryRule_blank {e : Bytes} (h : trim e = []) : entryRule e = none := by
  rw [entryRule_eq, ← splitTenantEntry_trim, h]
  rfl

/-! ## The string -/

/-- The loops leave out an empty piece at the end; otherwise they see every piece. -/
theorem splitOn_eq_splitEntries (sep : UInt8) (s : Bytes) :
    s.splitOn sep = splitEntries sep s ∨ s.splitOn sep = splitEntries sep s ++ [[]] := by
  induction s with
  | nil => exact .inr (List.splitOn_nil sep)
  | cons b s ih =>
    have hcons : (b :: s).splitOn sep = if b == sep then [] :: s.splitOn sep else (s.splitOn sep).modifyHead (List.cons b) :=
      List.splitOnP_cons_eq_if_modifyHead b s
    rw [hcons, splitEntries]
    by_cases hb : b = sep
    · rw [if_pos (beq_iff_eq.2 hb), if_pos hb]
      rcases ih with heq | heq
      · exact .inl (by rw [heq])
      · exact .inr (by rw [heq]; rfl)
    · rw [if_neg (fun h => hb (beq_iff_eq.1 h)), if_neg hb]
      cases hes : splitEntries sep s with
      | nil =>
        -- the string is empty: its one piece is the one the loops leave out
        rw [hes] at ih
        rcases ih with heq | heq
        · exact absurd heq (List.splitOn_ne_nil sep s)
        · exact .inl (by rw [heq]; rfl)
      | cons e es =>
        rw [hes] at ih
        rcases ih with heq | heq
        · exact .inl (by rw [heq]; rfl)
        · exact .inr (by rw [heq]; rfl)

theorem tenantRules_eq (raw : Bytes) : tenantRules raw = (splitEntries 59 raw).filterMap entryRule := by
  unfold tenantRules
  rcases splitOn_eq_splitEntries 59 raw with heq | heq
  · rw [heq]
  · rw [heq, List.filterMap_append]
    simp [entryRule_blank (e := []) rfl]

/-- **A string is accepted when every entry that is not blank has a rule.** -/
theorem validate_eq_none (raw : Bytes) :
    validateTenantEavesdropPolicies raw = none ↔ ∀ e ∈ raw.splitOn 59, trim e ≠ [] → (entryRule e).isSome = true := by
  unfold validateTenantEavesdropPolicies
  simp only [List.findSome?_eq_none_iff, tenantEntryError_eq_none]
  rcases splitOn_eq_splitEntries 59 raw with heq | heq
  · rw [heq]
  · rw [heq]
    constructor
    · intro h e he hne
      rcases List.mem_append.1 he with he | he
      · exact h e he hne
      · rw [List.mem_singleton.1 he] at hne
        exact absurd rfl hne
    · exact fun h e he => h e (List.mem_append_left _ he)

/-- The loop over entries that have all been accepted: a blank one is skipped, and every other has its rule looked at. -/
theorem resolveEntries_eq (config : PolicyConfig) (tenantId : Bytes) (es : List Bytes)
    (h : ∀ e ∈ es, tenantEntryError e = none) :
    resolveEntries config tenantId es = (((es.filterMap entryRule).find? (fun r => r.tenant == tenantId)).map
      TenantRule.policy).getD (parseEavesdropPolicy config.eavesdropPolicy) := by
  induction es with
  | nil => rfl
  | cons e es ih =>
    have ih := ih (fun e he => h e (List.mem_cons_of_mem _ he))
    have herr := (tenantEntryError_eq_none e).1 (h e List.mem_cons_self)
    rw [resolveEntries, splitTenantEntry_trim]
    cases hsplit : splitTenantEntry e with
    | none =>
      have hrule : entryRule e = none := by rw [entryRule_eq, hsplit]; rfl
      rw [List.filterMap_cons_none hrule]
      exact ih
    | some te =>
      have hblank : trim e ≠ [] := by
        intro hb
        rw [← splitTenantEntry_trim, hb] at hsplit
        cases hsplit
      have hrule : entryRule e = some ⟨te.tenant, entryPolicy te⟩ := by
        have hsome := herr hblank
        rw [entryRule_eq, hsplit, Option.bind_some, splitRule] at hsome ⊢
        split at hsome
        · rename_i hok
          rw [if_pos hok]
        · cases hsome
      rw [List.filterMap_cons_some hrule, List.find?_cons]
      by_cases htenant : te.tenant = tenantId
      · simp [htenant, entryPolicy]
      · simp only [htenant, ne_eq, not_false_eq_true, if_true, beq_eq_false_iff_ne.2 htenant]
        exact ih

theorem map_entryRule {es : List Bytes} (h : ∀ e ∈ es, trim e ≠ [] → (entryRule e).isSome = true) :
    (es.filter (fun e => trim e ≠ [])).map entryRule = (es.filterMap entryRule).map some := by
  induction es with
  | nil => rfl
  | cons e es ih =>
    have ih := ih (fun e he => h e (List.mem_cons_of_mem _ he))
    by_cases hblank : trim e = []
    · rw [List.filter_cons_of_neg (by simpa using hblank), List.filterMap_cons_none (entryRule_blank hblank)]
      exact ih
    · obtain ⟨r, hr⟩ := Option.isSome_iff_exists.1 (h e List.mem_cons_self hblank)
      rw [List.filter_cons_of_pos (by simpa using hblank), List.filterMap_cons_some hr, List.map_cons, List.map_cons, hr, ih]

/-- **Tenant policies mean what validation accepted**: a string is accepted exactly when each of its entries that is not
blank has a rule, and then the resolver returns the policy of the first rule for the tenant, or the module's default; the
rules it goes through are those of all entries that are not blank. -/
theorem tenant_policies_accepted (raw : Bytes) :
    (validateTenantEavesdropPolicies raw = none ↔ ∀ e ∈ raw.splitOn 59, trim e ≠ [] → (entryRule e).isSome = true) ∧
    (validateTenantEavesdropPolicies raw = none →
      ((raw.splitOn 59).filter (fun e => trim e ≠ [])).map entryRule = (tenantRules raw).map some ∧
      ∀ modulePolicy tenantId, resolveEffectivePolicy ⟨modulePolicy, raw⟩ tenantId
        = (((tenantRules raw).find? (fun r => r.tenant == tenantId)).map TenantRule.policy).getD
            (parseEavesdropPolicy modulePolicy)) := by
  refine ⟨validate_eq_none raw, fun h => ⟨?_, fun modulePolicy tenantId => ?_⟩⟩
  · exact map_entryRule ((validate_eq_none raw).1 h)
  · rw [tenantRules_eq]
    exact resolveEntries_eq _ tenantId _ (List.findSome?_eq_none_iff.1 h)

/-- Blanks, a gate that denies, an empty gate, and a second entry for one tenant that is never reached. -/
def fourEntries : Bytes := str " acme : Audit ;; globex:allow:OFF; initech:allow: ;acme:allow;"

theorem tenant_policies_accepted_fourEntries :
    validateTenantEavesdropPolicies fourEntries = none ∧
      resolveEffectivePolicy ⟨str "deny", fourEntries⟩ (str "acme") = .audit ∧
      resolveEffectivePolicy ⟨str "audit", fourEntries⟩ (str "globex") = .deny := by
  have hok : validateTenantEavesdropPolicies fourEntries = none := by decide +kernel
  refine ⟨hok, ?_, ?_⟩
  · rw [((tenant_policies_accepted fourEntries).2 hok).2]
    decide +kernel
  · rw [((tenant_policies_accepted fourEntries).2 hok).2]
    decide +kernel

end Security
end Osw
