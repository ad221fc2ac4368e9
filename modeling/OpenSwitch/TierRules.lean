import OpenSwitch.BuildEnvelope
import OpenSwitch.Subscriber
/-!
# TierRules — the tier of an event (`tier.cc`), and of the module's own events (`audit.cc`)

The classifier compiles its globs once: a pattern that ends in an asterisk becomes a literal with a flag.  The compiled
patterns match what a subscriber's globs match, so an operator's rule and a client's subscription mean the same names.
The first glob that matches decides; where no name matches two globs of different tiers the order says nothing, and the
default rules are of that kind.
-/
namespace Osw
namespace Events

/-- `TierRules`; of two events with one name the map keeps the first. -/
structure TierRules where
  events        : List (Bytes × Tier)
  subclassGlobs : List (Bytes × Tier)
  defaultTier   : Tier

def defaultTier1Events : List Bytes :=
  [str "CHANNEL_CREATE", str "CHANNEL_PROGRESS", str "CHANNEL_ANSWER", str "CHANNEL_BRIDGE", str "CHANNEL_UNBRIDGE",
    str "CHANNEL_DESTROY", str "CHANNEL_HANGUP_COMPLETE", str "CDR_REPORT", str "RECORD_START", str "RECORD_STOP"]

def defaultTier2Events : List Bytes :=
  [str "CHANNEL_CALLSTATE", str "CHANNEL_HOLD", str "CHANNEL_UNHOLD", str "DTMF"]

def defaultTier3Events : List Bytes :=
  [str "HEARTBEAT", str "RE_SCHEDULE", str "SESSION_HEARTBEAT", str "MEDIA_BUG_START", str "MEDIA_BUG_STOP",
    str "MESSAGE", str "CALL_UPDATE", str "LOG"]

def makeDefaultRules : TierRules where
  events := defaultTier1Events.map (·, .critical) ++ defaultTier2Events.map (·, .state) ++
    defaultTier3Events.map (·, .ephemeral)
  subclassGlobs := [
    (str "osw.recording.relay_started", .critical),
    (str "osw.recording.relay_stopped", .critical),
    (str "osw.recording.warn_record_before_inject", .critical),
    (str "osw.recording.send_overflow", .state),
    (str "osw.recording.lr_desync", .state),
    (str "osw.eavesdrop.denied", .critical),
    (str "osw.eavesdrop.audit", .critical),
    (str "osw.eavesdrop.allowed", .critical),
    (str "osw.eavesdrop.detected_post_attach", .critical),
    (str "osw.media.bot.started", .critical),
    (str "osw.media.bot.stopped", .critical),
    (str "osw.media.bot.target_attach_failed", .critical),
    (str "osw.media.bot.target_drop", .state),
    (str "osw.audit.*", .critical),
    (str "sofia::register", .state),
    (str "sofia::unregister", .state)]
  defaultTier := .ephemeral

/-- `CompiledGlob`; `literal` is the source's `prefix`. -/
structure CompiledGlob where
  literal     : Bytes
  hasWildcard : Bool
  tier        : Tier

def CompiledGlob.compile (src : Bytes × Tier) : CompiledGlob :=
  if src.1 ≠ [] ∧ src.1.getLast? = some 42 then ⟨src.1.dropLast, true, src.2⟩ else ⟨src.1, false, src.2⟩

/-- The test of `Classify` on one glob: a size and a comparison of that many bytes, or equality. -/
def CompiledGlob.hits (g : CompiledGlob) (subclassName : Bytes) : Bool :=
  if g.hasWildcard then
    decide (g.literal.length ≤ subclassName.length) && decide (subclassName.take g.literal.length = g.literal)
  else decide (subclassName = g.literal)

structure TierClassifier where
  rules         : TierRules
  compiledGlobs : List CompiledGlob

namespace TierClassifier

def make (rules : TierRules) : TierClassifier := ⟨rules, rules.subclassGlobs.map .compile⟩

def classify (c : TierClassifier) (eventName subclassName : Bytes) : Tier :=
  match if subclassName = [] then none else c.compiledGlobs.find? (·.hits subclassName) with
  | some g => g.tier
  | none   => (c.rules.events.lookup eventName).getD c.rules.defaultTier

end TierClassifier

/-! ## The compiled globs are the subscribers' globs -/

theorem matchPrefixGlob_wild {p : Bytes} (h : p.getLast? = some 42) (s : Bytes) :
    matchPrefixGlob p s = true ↔ p.dropLast <+: s := by
  rw [matchPrefixGlob, h]
  exact List.isPrefixOf_iff_prefix

theorem matchPrefixGlob_exact {p : Bytes} (h : p.getLast? ≠ some 42) (s : Bytes) :
    matchPrefixGlob p s = true ↔ s = p := by
  unfold matchPrefixGlob
  split
  · rename_i hlast
    exact absurd hlast h
  · exact decide_eq_true_iff

theorem compile_hits (src : Bytes × Tier) (s : Bytes) :
    (CompiledGlob.compile src).hits s = matchPrefixGlob src.1 s := by
  unfold CompiledGlob.compile
  rw [Bool.eq_iff_iff]
  by_cases hlast : src.1.getLast? = some 42
  · have hne : src.1 ≠ [] := by
      rintro h
      rw [h] at hlast
      cases hlast
    rw [if_pos ⟨hne, hlast⟩, matchPrefixGlob_wild hlast, List.prefix_iff_eq_take]
    simp only [CompiledGlob.hits, if_true, Bool.and_eq_true, decide_eq_true_eq, eq_comm (a := s.take _),
      and_iff_right_iff_imp]
    intro h
    rw [h, List.length_take]
    exact Nat.min_le_right ..
  · rw [if_neg (fun h => hlast h.2), matchPrefixGlob_exact hlast]
    exact decide_eq_true_iff

/-- The tier of the first rule whose glob matches, if any. -/
def TierRules.globTier (r : TierRules) (subclassName : Bytes) : Option Tier :=
  if subclassName = [] then none
  else (r.subclassGlobs.find? (fun g => matchPrefixGlob g.1 subclassName)).map Prod.snd

/-- **The compiled classifier is the plain one**: the first glob that matches, as a subscriber's globs do, then the
event's name, then the default. -/
theorem classify_eq_plain (r : TierRules) (eventName subclassName : Bytes) :
    (TierClassifier.make r).classify eventName subclassName =
      (r.globTier subclassName).getD ((r.events.lookup eventName).getD r.defaultTier) := by
  have htier : ∀ g : Bytes × Tier, (CompiledGlob.compile g).tier = g.2 := by
    intro g
    unfold CompiledGlob.compile
    split <;> rfl
  unfold TierClassifier.classify TierRules.globTier
  by_cases hs : subclassName = []
  · rw [if_pos hs, if_pos hs]
    rfl
  · rw [if_neg hs, if_neg hs]
    simp only [TierClassifier.make, List.find?_map, Function.comp_def, compile_hits]
    cases r.subclassGlobs.find? (fun g => matchPrefixGlob g.1 subclassName) with
    | none => rfl
    | some g => exact htier g

/-! ## Rules whose order says nothing -/

/-- Some name matches both patterns. -/
def overlaps (p q : Bytes) : Bool :=
  match decide (p.getLast? = some 42), decide (q.getLast? = some 42) with
  | false, false => decide (p = q)
  | true, false  => p.dropLast.isPrefixOf q
  | false, true  => q.dropLast.isPrefixOf p
  | true, true   => p.dropLast.isPrefixOf q.dropLast || q.dropLast.isPrefixOf p.dropLast

theorem overlaps_iff (p q : Bytes) :
    overlaps p q = true ↔ ∃ s, matchPrefixGlob p s = true ∧ matchPrefixGlob q s = true := by
  unfold overlaps
  by_cases hp : p.getLast? = some 42 <;> by_cases hq : q.getLast? = some 42
  · simp only [hp, hq, decide_true, Bool.or_eq_true, List.isPrefixOf_iff_prefix, matchPrefixGlob_wild hp,
      matchPrefixGlob_wild hq]
    constructor
    · rintro (h | h)
      · exact ⟨q.dropLast, h, List.prefix_rfl⟩
      · exact ⟨p.dropLast, List.prefix_rfl, h⟩
    · rintro ⟨s, hps, hqs⟩
      exact List.prefix_or_prefix_of_prefix hps hqs
  · simp only [hp, hq, decide_true, decide_false, List.isPrefixOf_iff_prefix, matchPrefixGlob_wild hp,
      matchPrefixGlob_exact hq, exists_eq_right]
  · simp only [hp, hq, decide_true, decide_false, List.isPrefixOf_iff_prefix, matchPrefixGlob_wild hq,
      matchPrefixGlob_exact hp, exists_eq_left]
  · simp only [hp, hq, decide_false, decide_eq_true_eq, matchPrefixGlob_exact hp, matchPrefixGlob_exact hq,
      exists_eq_left]

/-- No name matches two globs of different tiers. -/
def Unambiguous (globs : List (Bytes × Tier)) : Prop :=
  ∀ p ∈ globs, ∀ q ∈ globs, ∀ s, matchPrefixGlob p.1 s = true → matchPrefixGlob q.1 s = true → p.2 = q.2

theorem unambiguous_iff (globs : List (Bytes × Tier)) :
    Unambiguous globs ↔ ∀ p ∈ globs, ∀ q ∈ globs, overlaps p.1 q.1 = true → p.2 = q.2 := by
  simp only [Unambiguous, overlaps_iff, forall_exists_index, and_imp]

instance (globs : List (Bytes × Tier)) : Decidable (Unambiguous globs) :=
  decidable_of_iff' _ (unambiguous_iff globs)

theorem unambiguous_default : Unambiguous makeDefaultRules.subclassGlobs := by decide +kernel

/-- In unambiguous rules any glob that matches says the tier. -/
theorem globTier_eq_some {r : TierRules} (hu : Unambiguous r.subclassGlobs) {subclassName : Bytes} {t : Tier} :
    r.globTier subclassName = some t ↔
      subclassName ≠ [] ∧ ∃ g ∈ r.subclassGlobs, matchPrefixGlob g.1 subclassName = true ∧ g.2 = t := by
  unfold TierRules.globTier
  by_cases hs : subclassName = []
  · simp [hs]
  · have hfound := @List.find?_some _ (fun g : Bytes × Tier => matchPrefixGlob g.1 subclassName)
    rw [if_neg hs]
    constructor
    · intro h
      obtain ⟨g, hf, rfl⟩ := Option.map_eq_some_iff.1 h
      exact ⟨hs, g, List.mem_of_find?_eq_some hf, hfound hf, rfl⟩
    · rintro ⟨-, g, hg, hm, rfl⟩
      cases hf : r.subclassGlobs.find? (fun g => matchPrefixGlob g.1 subclassName) with
      | none => exact absurd hm (List.find?_eq_none.1 hf g hg)
      | some g' => exact congrArg some (hu g' (List.mem_of_find?_eq_some hf) g hg subclassName (hfound hf) hm)

/-- **The order of unambiguous rules says nothing**: the globs may be listed in any other order.  The default rules are
unambiguous. -/
theorem classify_perm :
    Unambiguous makeDefaultRules.subclassGlobs ∧
    ∀ (r : TierRules) (globs : List (Bytes × Tier)), globs.Perm r.subclassGlobs → Unambiguous r.subclassGlobs →
      ∀ eventName subclassName : Bytes,
        (TierClassifier.make { r with subclassGlobs := globs }).classify eventName subclassName =
          (TierClassifier.make r).classify eventName subclassName := by
  refine ⟨unambiguous_default, fun r globs hp hu eventName subclassName => ?_⟩
  have hu' : Unambiguous globs := fun p hpm q hqm => hu p (hp.mem_iff.1 hpm) q (hp.mem_iff.1 hqm)
  have hglob : { r with subclassGlobs := globs }.globTier subclassName = r.globTier subclassName := by
    refine Option.ext fun t => ?_
    rw [globTier_eq_some hu', globTier_eq_some hu]
    simp only [hp.mem_iff]
  rw [classify_eq_plain, classify_eq_plain, hglob]

theorem classify_perm_default :
    (TierClassifier.make { makeDefaultRules with subclassGlobs := makeDefaultRules.subclassGlobs.reverse }).classify
        (str "CUSTOM") (str "osw.audit.module_loaded") =
      (TierClassifier.make makeDefaultRules).classify (str "CUSTOM") (str "osw.audit.module_loaded") :=
  classify_perm.2 makeDefaultRules _ (List.reverse_perm _) unambiguous_default _ _

/-! ## The module's own events -/

end Events
end Osw
