import OpenSwitch.Run
import OpenSwitch.ServerCreds
/-!
# ModuleLoad — loading and shutting down the module (`module.cc`, `lifecycle.cc`)

`Module::Load` builds the subsystems one after another; when one fails, a guard takes down what is there.
`Module::Shutdown` takes everything down and lets the module be loaded again.  Whatever the calls, the subsystems are
there when the module is loaded and gone when it is not (`parts_of_runs`).  The lifecycle goes one way only: a second
load leaves it, and the health status, where the shutdown put them (`serves_again_iff`).
-/
namespace Osw

/-! ## The lifecycle -/

/-- `Lifecycle::State`. -/
inductive LifecycleState
  | loaded
  | serving
  | draining
  | stopped
  deriving DecidableEq, Repr

/-- `Health::Status`. -/
inductive HealthStatus
  | unspecified
  | serving
  | notServing
  | draining
  deriving DecidableEq, Repr

/-- A `Lifecycle` and the status of the `Health` it points to. -/
structure Lifecycle where
  state  : LifecycleState
  health : HealthStatus
  deriving DecidableEq, Repr

namespace Lifecycle

def make : Lifecycle := ⟨.loaded, .serving⟩

def transitionToServing (l : Lifecycle) : Lifecycle where
  state  := if l.state = .loaded then .serving else l.state
  health := if l.health = .unspecified ∨ l.health = .serving then .serving else l.health

def signalDrain (l : Lifecycle) : Lifecycle :=
  if l.state = .draining ∨ l.state = .stopped then l else ⟨.draining, .draining⟩

def markStopped (_ : Lifecycle) : Lifecycle := ⟨.stopped, .notServing⟩

end Lifecycle

/-! ## The module -/

/-- The subsystems a `Module` owns. -/
inductive Part
  | prometheusRegistry
  | healthMetrics
  | rpcMetrics
  | metricsServer
  | grpcServer
  | idempotencyCache
  | activeMediaStreams
  | activeBots
  | silenceDriverRegistry
  | bugManager
  | classifier
  | rings
  | binder
  | broadcaster
  deriving DecidableEq, Repr

/-- `osw::Module`.  `detector` tells whether the eavesdrop detector is bound. -/
structure Module where
  loaded    : Bool
  config    : Config
  lifecycle : Lifecycle
  parts     : Part → Bool
  detector  : Bool

/-- The steps of `Load`. -/
inductive LoadStep
  | config
  | validate
  | observability
  | metricsServer
  | grpcServer
  | idempotencyCache
  | media
  | grpcStart
  | rings
  | binder
  | detector
  | broadcaster
  | audit
  deriving DecidableEq, Repr

/-- The subsystems a step of `Load` builds. -/
def LoadStep.builds : LoadStep → List Part
  | .observability    => [.prometheusRegistry, .healthMetrics, .rpcMetrics]
  | .grpcServer       => [.grpcServer]
  | .idempotencyCache => [.idempotencyCache]
  | .media            => [.activeMediaStreams, .activeBots, .silenceDriverRegistry, .bugManager]
  | .rings            => [.classifier, .rings]
  | .binder           => [.binder]
  | .broadcaster      => [.broadcaster]
  | _                 => []

/-- What `Load` finds: the settings file, the files, whether ports can be bound and events subscribed to, and where an
exception is thrown. -/
structure LoadEnv where
  parsed        : Option Config
  regexError    : Bytes → Option Bytes
  files         : Control.FileSystem
  metricsBinds  : Bool
  listens       : Bool
  binderInits   : Bool
  detectorBinds : Bool
  throws        : LoadStep → Bool

/-- The steps of `~LoadGuard`. -/
inductive GuardStep
  | reset (p : Part)
  | unbindDetector
  deriving DecidableEq, Repr

/-- The steps of `Shutdown`. -/
inductive ShutdownStep
  | signalDrain
  | unbindDetector
  | binderStop
  | waitUntilAllEmpty
  | broadcasterStop
  | metricsServer
  | grpcServer
  | eventPlane
  | idempotencyCache
  | media
  | observability
  | markStopped
  deriving DecidableEq, Repr

/-- The subsystems a step of `Shutdown` takes down. -/
def ShutdownStep.resets : ShutdownStep → List Part
  | .metricsServer    => [.metricsServer]
  | .grpcServer       => [.grpcServer]
  | .eventPlane       => [.broadcaster, .binder, .rings, .classifier]
  | .idempotencyCache => [.idempotencyCache]
  | .media            => [.activeBots, .activeMediaStreams, .silenceDriverRegistry, .bugManager]
  | .observability    => [.rpcMetrics, .healthMetrics, .prometheusRegistry]
  | _                 => []

namespace Module

def make : Module := ⟨false, {}, .make, fun _ => false, false⟩

def build (m : Module) (ps : List Part) : Module := { m with parts := fun p => m.parts p || ps.contains p }

def reset (m : Module) (ps : List Part) : Module := { m with parts := fun p => m.parts p && !ps.contains p }

/-- One step of `Load`; `none` is a `return false`. -/
def loadStep (env : LoadEnv) (m : Module) : LoadStep → Option Module
  | .config        => some { m with config := env.parsed.getD {} }
  | .validate      => if validate env.regexError m.config = none then some m else none
  -- without its port the metrics server is given up, not the load
  | .metricsServer => some (if m.config.metricsEnabled && env.metricsBinds then m.build [.metricsServer] else m)
  | .grpcStart     => if (Control.makeServerCreds env.files m.config).isSome && env.listens then some m else none
  | .binder        => if env.binderInits then some (m.build LoadStep.binder.builds) else none
  | .detector      => some { m with detector := env.detectorBinds }
  | st             => some (m.build st.builds)

/-- The steps before `load_guard.commit()`. -/
def loadSteps : List LoadStep :=
  [.config, .validate, .observability, .metricsServer, .grpcServer, .idempotencyCache, .media, .grpcStart, .rings, .binder,
    .detector, .broadcaster]

/-- The steps until one fails or throws. -/
def runLoad (env : LoadEnv) : List LoadStep → Module → Module × Bool
  | [], m => (m, true)
  | st :: sts, m =>
    if env.throws st then (m, false)
    else
      match m.loadStep env st with
      | none    => (m, false)
      | some m' => runLoad env sts m'

def guardStep (m : Module) : GuardStep → Module
  | .reset p        => m.reset [p]
  | .unbindDetector => { m with detector := false }

def guardSteps : List GuardStep :=
  [.reset .broadcaster, .unbindDetector, .reset .binder, .reset .rings, .reset .classifier, .reset .metricsServer,
    .reset .grpcServer, .reset .idempotencyCache, .reset .activeBots, .reset .activeMediaStreams,
    .reset .silenceDriverRegistry, .reset .bugManager, .reset .rpcMetrics, .reset .healthMetrics,
    .reset .prometheusRegistry]

/-- `~LoadGuard` without a `commit`. -/
def guard (m : Module) : Module := guardSteps.foldl guardStep m

def load (env : LoadEnv) (m : Module) : Module × Bool :=
  if m.loaded then (m, true)
  else
    let r := runLoad env loadSteps m
    if r.2 then
      ({ r.1 with lifecycle := r.1.lifecycle.transitionToServing, loaded := true }, !env.throws .audit)
    else (r.1.guard, false)

def shutdownStep (m : Module) : ShutdownStep → Module
  | .signalDrain    => { m with lifecycle := m.lifecycle.signalDrain }
  | .unbindDetector => { m with detector := false }
  | .markStopped    => { m with lifecycle := m.lifecycle.markStopped, loaded := false }
  | st              => m.reset st.resets

def shutdownSteps : List ShutdownStep :=
  [.signalDrain, .unbindDetector, .binderStop, .waitUntilAllEmpty, .broadcasterStop, .metricsServer, .grpcServer,
    .eventPlane, .idempotencyCache, .media, .observability, .markStopped]

/-- The steps until one throws. -/
def runShutdown (throws : ShutdownStep → Bool) : List ShutdownStep → Module → Module × Bool
  | [], m => (m, true)
  | st :: sts, m => if throws st then (m, false) else runShutdown throws sts (m.shutdownStep st)

def shutdown (throws : ShutdownStep → Bool) (m : Module) : Module × Bool :=
  if m.loaded then runShutdown throws shutdownSteps m else (m, true)

/-! ## What a load and a shutdown do -/

variable {m m' : Module} {env : LoadEnv} {throws : ShutdownStep → Bool}

theorem build_parts {ps : List Part} {p : Part} : (m.build ps).parts p = true ↔ m.parts p = true ∨ p ∈ ps := by
  simp [build]

/-- A step of `Load` builds its subsystems, beside those there are, and leaves the lifecycle alone. -/
theorem loadStep_spec {st : LoadStep} (h : m.loadStep env st = some m') :
    m'.lifecycle = m.lifecycle ∧ m'.loaded = m.loaded ∧
    ∀ p, m.parts p = true ∨ p ∈ st.builds → m'.parts p = true := by
  have hnone : ∀ p, m.parts p = true ∨ p ∈ ([] : List Part) → m.parts p = true := fun p hp => hp.resolve_right nofun
  cases st <;> simp only [loadStep] at h
  case config => cases h; exact ⟨rfl, rfl, hnone⟩
  case validate => split at h <;> cases h; exact ⟨rfl, rfl, hnone⟩
  case metricsServer =>
    cases h
    split
    · exact ⟨rfl, rfl, fun p hp => build_parts.2 (.inl (hnone p hp))⟩
    · exact ⟨rfl, rfl, hnone⟩
  case grpcStart => split at h <;> cases h; exact ⟨rfl, rfl, hnone⟩
  case binder => split at h <;> cases h; exact ⟨rfl, rfl, fun p => build_parts.2⟩
  case detector => cases h; exact ⟨rfl, rfl, hnone⟩
  all_goals cases h; exact ⟨rfl, rfl, fun p => build_parts.2⟩

theorem runLoad_frame (env : LoadEnv) : ∀ (sts : List LoadStep) (m : Module),
    (runLoad env sts m).1.lifecycle = m.lifecycle ∧ (runLoad env sts m).1.loaded = m.loaded
  | [], _ => ⟨rfl, rfl⟩
  | st :: sts, m => by
    rw [runLoad]
    split
    · exact ⟨rfl, rfl⟩
    · split
      · exact ⟨rfl, rfl⟩
      · rename_i m' h
        obtain ⟨hl, hd, -⟩ := loadStep_spec h
        obtain ⟨hl', hd'⟩ := runLoad_frame env sts m'
        exact ⟨hl'.trans hl, hd'.trans hd⟩

theorem runLoad_parts (env : LoadEnv) : ∀ (sts : List LoadStep) (m : Module), (runLoad env sts m).2 = true →
    ∀ p, m.parts p = true ∨ p ∈ sts.flatMap LoadStep.builds → (runLoad env sts m).1.parts p = true
  | [], _, _ => fun p hp => hp.resolve_right nofun
  | st :: sts, m, h => by
    rw [runLoad] at h ⊢
    split at h
    · cases h
    · rename_i ht
      rw [if_neg ht]
      split at h
      · cases h
      · rename_i m' hm
        intro p hp
        refine runLoad_parts env sts m' h p ?_
        rw [List.flatMap_cons, List.mem_append, ← or_assoc] at hp
        exact hp.imp_left ((loadStep_spec hm).2.2 p)

theorem mem_builds {p : Part} (h : p ≠ .metricsServer) : p ∈ loadSteps.flatMap LoadStep.builds := by
  cases p <;> first | decide | exact absurd rfl h

/-- Steps of the guard take down what they name, and leave the lifecycle alone. -/
theorem foldl_guardStep (sts : List GuardStep) (m : Module) :
    (sts.foldl guardStep m).lifecycle = m.lifecycle ∧ (sts.foldl guardStep m).loaded = m.loaded ∧
    (∀ p, m.parts p = false ∨ .reset p ∈ sts → (sts.foldl guardStep m).parts p = false) ∧
    (m.detector = false ∨ .unbindDetector ∈ sts → (sts.foldl guardStep m).detector = false) := by
  induction sts generalizing m with
  | nil => exact ⟨rfl, rfl, fun p hp => hp.resolve_right nofun, fun hd => hd.resolve_right nofun⟩
  | cons st sts ih =>
    obtain ⟨hlife, hload, hparts, hdetector⟩ := ih (m.guardStep st)
    rw [List.foldl_cons]
    cases st with
    | reset q =>
      refine ⟨hlife, hload, fun p hp => hparts p ?_, fun hd => hdetector (hd.imp_right (by simp))⟩
      simp only [guardStep, reset, List.mem_cons, GuardStep.reset.injEq] at hp ⊢
      rcases hp with hp | rfl | hp
      · exact .inl (by simp [hp])
      · exact .inl (by simp)
      · exact .inr hp
    | unbindDetector =>
      exact ⟨hlife, hload, fun p hp => hparts p (hp.imp_right (by simp)), fun _ => hdetector (.inl rfl)⟩

theorem mem_guardSteps (p : Part) : .reset p ∈ guardSteps := by
  cases p <;> decide

/-- **What a load does**: nothing to a loaded module; one that goes through has every subsystem but, perhaps, the metrics
server and moves the lifecycle; one that does not leaves no subsystem behind and the lifecycle alone. -/
theorem load_cases (env : LoadEnv) (m : Module) :
    (m.loaded = true ∧ m.load env = (m, true)) ∨
    (m.loaded = false ∧ (m.load env).1.loaded = true ∧ (m.load env).2 = !env.throws .audit ∧
      (m.load env).1.lifecycle = m.lifecycle.transitionToServing ∧
      ∀ p, p ≠ .metricsServer → (m.load env).1.parts p = true) ∨
    (m.loaded = false ∧ (m.load env).1.loaded = false ∧ (m.load env).2 = false ∧
      (m.load env).1.lifecycle = m.lifecycle ∧ (∀ p, (m.load env).1.parts p = false) ∧
      (m.load env).1.detector = false) := by
  obtain ⟨hl, hd⟩ := runLoad_frame env loadSteps m
  unfold load
  split
  · rename_i h
    exact .inl ⟨h, rfl⟩
  · rename_i h
    have h' : m.loaded = false := by simpa using h
    right
    simp only
    split
    · rename_i hr
      exact .inl ⟨h', rfl, rfl, by rw [hl], fun p hp => runLoad_parts env loadSteps m hr p (.inr (mem_builds hp))⟩
    · obtain ⟨hlife, hload, hparts, hdetector⟩ := foldl_guardStep guardSteps (runLoad env loadSteps m).1
      exact .inr ⟨h', hload.trans (hd.trans h'), rfl, hlife.trans hl, fun p => hparts p (.inr (mem_guardSteps p)),
        hdetector (.inr (by decide))⟩

/-- The steps of `Shutdown`, when none throws. -/
theorem runShutdown_foldl {sts : List ShutdownStep} (m : Module) (h : (runShutdown throws sts m).2 = true) :
    (runShutdown throws sts m).1 = sts.foldl shutdownStep m := by
  induction sts generalizing m with
  | nil => rfl
  | cons st sts ih =>
    rw [runShutdown] at h ⊢
    split at h
    · cases h
    · rename_i ht
      rw [if_neg ht]
      exact ih _ h

/-- **What a shutdown that does not throw does**: nothing to a module that is not loaded; otherwise it takes down every
subsystem and stops the lifecycle. -/
theorem shutdown_cases (h : (m.shutdown throws).2 = true) :
    (m.loaded = false ∧ (m.shutdown throws).1 = m) ∨
    (m.loaded = true ∧ (m.shutdown throws).1.loaded = false ∧
      (m.shutdown throws).1.lifecycle = m.lifecycle.signalDrain.markStopped ∧
      (∀ p, (m.shutdown throws).1.parts p = false) ∧ (m.shutdown throws).1.detector = false) := by
  unfold shutdown at h ⊢
  split at h
  · rename_i hl
    rw [if_pos hl, runShutdown_foldl m h]
    exact .inr ⟨hl, rfl, rfl, fun p => by cases p <;> simp [shutdownSteps, shutdownStep, reset, ShutdownStep.resets], rfl⟩
  · rename_i hl
    rw [if_neg hl]
    exact .inl ⟨by simpa using hl, rfl⟩

end Module

/-! ## Runs -/

inductive ModuleCall
  | load (env : LoadEnv)
  | shutdown (throws : ShutdownStep → Bool)

namespace ModuleCall

def isLoad : ModuleCall → Bool
  | .load _     => true
  | .shutdown _ => false

end ModuleCall

namespace Module

variable {m m' : Module} {env : LoadEnv} {throws : ShutdownStep → Bool}

/-- A call and what it returned. -/
def call (m : Module) : ModuleCall → Module × Bool
  | .load env        => m.load env
  | .shutdown throws => m.shutdown throws

/-- Any call, but for a shutdown that throws. -/
def stepAny (m : Module) (c : ModuleCall) : Option Module :=
  if c.isLoad = false ∧ (m.call c).2 = false then none else some (m.call c).1

/-- A call that succeeds. -/
def step (m : Module) (c : ModuleCall) : Option Module := if (m.call c).2 then some (m.call c).1 else none

/-- The subsystems are there when the module is loaded, the metrics server perhaps not, and gone when it is not. -/
structure PartsMatch (m : Module) : Prop where
  loaded   : m.loaded = true → ∀ p, p ≠ .metricsServer → m.parts p = true
  unloaded : m.loaded = false → (∀ p, m.parts p = false) ∧ m.detector = false

theorem PartsMatch.step {c : ModuleCall} (h : PartsMatch m) (hs : m.stepAny c = some m') : PartsMatch m' := by
  unfold stepAny at hs
  split at hs
  · cases hs
  · rename_i hok
    cases hs
    cases c with
    | load env =>
      simp only [call]
      obtain ⟨-, he⟩ | ⟨-, hl, -, -, hp⟩ | ⟨-, hl, -, -, hp, hd⟩ := load_cases env m
      · rw [he]
        exact h
      · exact ⟨fun _ => hp, fun hf => nomatch hl.symm.trans hf⟩
      · exact ⟨fun ht => (nomatch hl.symm.trans ht), fun _ => ⟨hp, hd⟩⟩
    | shutdown throws =>
      have hret : (m.shutdown throws).2 = true := by
        cases hr : (m.shutdown throws).2 with
        | true => rfl
        | false => exact absurd ⟨rfl, hr⟩ hok
      simp only [call]
      obtain ⟨-, he⟩ | ⟨-, hl, -, hp, hd⟩ := shutdown_cases hret
      · rw [he]
        exact h
      · exact ⟨fun ht => (nomatch hl.symm.trans ht), fun _ => ⟨hp, hd⟩⟩

/-- **In every run of loads, successful or not, and shutdowns that do not throw, the subsystems are there exactly while
the module is loaded.** -/
theorem parts_of_runs (calls : List ModuleCall) (m : Module) (h : Run.exec stepAny calls make = some m) : PartsMatch m :=
  Run.exec_inv (I := PartsMatch) (fun _ _ _ hm hs => hm.step hs) calls make m ⟨nofun, fun _ => ⟨fun _ => rfl, rfl⟩⟩ h

/-! ## Serving again -/

/-- What a call should leave the lifecycle at. -/
def expected : ModuleCall → Lifecycle
  | .load _     => ⟨.serving, .serving⟩
  | .shutdown _ => ⟨.stopped, .notServing⟩

/-- After each of the calls the lifecycle is where it should be. -/
def ServesAgain : List ModuleCall → Module → Prop
  | [], _ => True
  | c :: cs, m => ∀ m', m.step c = some m' → m'.lifecycle = expected c ∧ ServesAgain cs m'

/-- Loads and shutdowns take turns. -/
def Alternating : List ModuleCall → Prop
  | c :: d :: cs => c.isLoad ≠ d.isLoad ∧ Alternating (d :: cs)
  | _ => True

theorem step_load (h : m.step (.load env) = some m') (hl : m.loaded = false) :
    m'.loaded = true ∧ m'.lifecycle = m.lifecycle.transitionToServing := by
  unfold step at h
  split at h
  · rename_i hret
    cases h
    simp only [call] at hret ⊢
    obtain ⟨ht, -⟩ | ⟨-, hl', -, hlc, -⟩ | ⟨-, -, hf, -⟩ := load_cases env m
    · rw [hl] at ht; cases ht
    · exact ⟨hl', hlc⟩
    · rw [hf] at hret; cases hret
  · cases h

theorem step_shutdown (h : m.step (.shutdown throws) = some m') :
    (m.loaded = false → m' = m) ∧
    (m.loaded = true → m'.loaded = false ∧ m'.lifecycle = m.lifecycle.signalDrain.markStopped) := by
  unfold step at h
  split at h
  · rename_i hret
    cases h
    simp only [call] at hret ⊢
    obtain ⟨hf, he⟩ | ⟨ht, hl, hlc, -⟩ := shutdown_cases hret
    · exact ⟨fun _ => he, fun ht => nomatch hf.symm.trans ht⟩
    · exact ⟨fun hf => (nomatch ht.symm.trans hf), fun _ => ⟨hl, hlc⟩⟩
  · cases h

theorem first_load (h : make.step (.load env) = some m) :
    m.loaded = true ∧ m.lifecycle = ⟨.serving, .serving⟩ := step_load h rfl

theorem first_shutdown (h : make.step (.load env) = some m) (h' : m.step (.shutdown throws) = some m') :
    m'.loaded = false ∧ m'.lifecycle = ⟨.stopped, .notServing⟩ :=
  (step_shutdown h').2 (first_load h).1

theorem second_load (h : m.step (.load env) = some m') (hl : m.loaded = false)
    (hs : m.lifecycle = ⟨.stopped, .notServing⟩) : m'.lifecycle = ⟨.stopped, .notServing⟩ := by
  rw [(step_load h hl).2, hs]
  rfl

/-- A module that is loaded again does not serve. -/
theorem not_servesAgain_of_reload {env' : LoadEnv} {rest : List ModuleCall}
    (hrun : Run.exec step (.load env :: .shutdown throws :: .load env' :: rest) make = some m) :
    ¬ ServesAgain (.load env :: .shutdown throws :: .load env' :: rest) make := by
  intro hserves
  obtain ⟨m₁, h₁, hrun₁⟩ := Run.exec_cons hrun
  obtain ⟨m₂, h₂, hrun₂⟩ := Run.exec_cons hrun₁
  obtain ⟨m₃, h₃, -⟩ := Run.exec_cons hrun₂
  obtain ⟨hl, hstopped⟩ := first_shutdown h₁ h₂
  have hlife := (((hserves m₁ h₁).2 m₂ h₂).2 m₃ h₃).1
  rw [second_load h₃ hl hstopped] at hlife
  cases hlife

/-- **When a reload serves again**: a sequence of successful loads and shutdowns in turn leaves the lifecycle and the
health status where they should be exactly when it starts with a load and does not load again. -/
theorem serves_again_iff (calls : List ModuleCall) (halt : Alternating calls) (m : Module)
    (hrun : Run.exec step calls make = some m) :
    ServesAgain calls make ↔ calls.length ≤ 2 ∧ ∀ c, calls.head? = some c → c.isLoad = true := by
  match calls with
  | [] => exact ⟨fun _ => ⟨by decide, nofun⟩, fun _ => trivial⟩
  | .shutdown throws :: rest =>
    -- there is nothing to shut down yet
    obtain ⟨m₁, h₁, -⟩ := Run.exec_cons hrun
    refine ⟨fun hserves => ?_, fun h => nomatch h.2 _ rfl⟩
    have hlife := (hserves m₁ h₁).1
    rw [(step_shutdown h₁).1 rfl] at hlife
    cases hlife
  | [.load env] => exact ⟨fun _ => ⟨by simp, by rintro c ⟨⟩; rfl⟩, fun _ m₁ h₁ => ⟨(first_load h₁).2, trivial⟩⟩
  | [.load env, .shutdown throws] =>
    exact ⟨fun _ => ⟨by simp, by rintro c ⟨⟩; rfl⟩, fun _ m₁ h₁ =>
      ⟨(first_load h₁).2, fun m₂ h₂ => ⟨(first_shutdown h₁ h₂).2, trivial⟩⟩⟩
  | .load env :: .load env' :: rest => exact absurd rfl halt.1
  | .load env :: .shutdown throws :: .shutdown throws' :: rest => exact absurd rfl halt.2.1
  | .load env :: .shutdown throws :: .load env' :: rest =>
    refine ⟨fun hserves => absurd hserves (not_servesAgain_of_reload hrun), fun h => ?_⟩
    have hlen := h.1
    simp only [List.length_cons] at hlen
    omega

/-- A machine on which everything works, with no settings file. -/
def goodEnv : LoadEnv := ⟨none, fun _ => none, fun _ => none, true, true, true, true, fun _ => false⟩

theorem serves_again_iff_once :
    (Run.exec step [.load goodEnv, .shutdown fun _ => false] make).isSome ∧
    ServesAgain [.load goodEnv, .shutdown fun _ => false] make := by
  have hok : (Run.exec step [.load goodEnv, .shutdown fun _ => false] make).isSome := by decide +kernel
  obtain ⟨m, hm⟩ := Option.isSome_iff_exists.1 hok
  have hiff := serves_again_iff [.load goodEnv, .shutdown fun _ => false] ⟨by decide, trivial⟩ m hm
  exact ⟨hok, hiff.2 ⟨by decide, by rintro c ⟨⟩; rfl⟩⟩

theorem parts_of_runs_reload :
    (Run.exec stepAny [.load goodEnv, .shutdown fun _ => false, .load goodEnv] make).isSome = true ∧
    ∀ m, Run.exec stepAny [.load goodEnv, .shutdown fun _ => false, .load goodEnv] make = some m → PartsMatch m :=
  ⟨by decide +kernel, fun m => parts_of_runs _ m⟩

/-- The module loaded, shut down and loaded again: the gRPC server is there, the lifecycle is stopped and the health
status is not serving. -/
theorem reload_not_serving :
    (Run.exec step [.load goodEnv, .shutdown fun _ => false, .load goodEnv] make).map
        (fun m => (m.loaded, m.parts .grpcServer, m.lifecycle))
      = some (true, true, ⟨.stopped, .notServing⟩) ∧
    ¬ ServesAgain [.load goodEnv, .shutdown fun _ => false, .load goodEnv] make := by
  have hmap : (Run.exec step [.load goodEnv, .shutdown fun _ => false, .load goodEnv] make).map
      (fun m => (m.loaded, m.parts .grpcServer, m.lifecycle)) = some (true, true, ⟨.stopped, .notServing⟩) := by
    decide +kernel
  obtain ⟨m, hm, -⟩ := Option.map_eq_some_iff.1 hmap
  exact ⟨hmap, not_servesAgain_of_reload hm⟩

end Module
end Osw
