import Mathlib.Data.List.Infix
import OpenSwitch.EavesdropPolicy
/-!
# Config — the module's settings and their validation (`config.h`, `config.cc`)

`Validate` goes through its checks in order and reports the first that fails.  Every check belongs to a setting, and the
error names it.
-/
namespace Osw

/-- `osw::Config`: the settings `Validate`, the server's credentials and `Module::Load` read, with their defaults. -/
structure Config where
  grpcListenAddress                  : Bytes := str "0.0.0.0:50061"
  grpcDrainDeadlineSeconds           : Nat := 2
  grpcTlsCertPath                    : Bytes := []
  grpcTlsKeyPath                     : Bytes := []
  grpcTlsCaPath                      : Bytes := []
  grpcTlsRequireClientCert           : Bool := false
  eventRingCapacityTier1             : Nat := 16384
  eventRingCapacityTier2             : Nat := 8192
  eventRingCapacityTier3             : Nat := 4096
  subscriberSendQueueCapacity        : Nat := 4096
  maxSubscribers                     : Nat := 16
  idempotencyTtlSeconds              : Nat := 300
  idempotencyCacheCapacity           : Nat := 1500
  idempotencyInFlightMaxWaitSeconds  : Nat := 30
  drainTimeoutSeconds                : Nat := 30
  piiRedactionPatterns               : List Bytes := []
  eavesdropPolicy                    : Bytes := str "deny"
  tenantEavesdropPolicies            : Bytes := []
  logLevel                           : Bytes := str "info"
  metricsEnabled                     : Bool := true
  ttsJitterBufferMs                  : Nat := 1000
  ttsPrerollMs                       : Nat := 200
  ttsHighWaterMs                     : Nat := 3000
  ttsMaxJitterBufferMs               : Nat := 5000
  recordingSendRingMs                : Nat := 500
  stereoDesyncWarnMs                 : Nat := 5
  stereoDesyncTimeoutMs              : Nat := 25
  recordingDefaultRateHz             : Nat := 8000
  maxSilenceDrivers                  : Nat := 200
  botMaxTargets                      : Nat := 2
  botTargetQueueMs                   : Nat := 500
  botDrainTimeoutMs                  : Nat := 2000
  maxBotsPerChannel                  : Nat := 1
  deriving DecidableEq, Repr

/-- A check of `Validate`: the setting it is about and what its error says after the name of the setting. -/
structure Check where
  setting : Bytes
  failure : Config → Option Bytes

namespace Check

def error (c : Check) (cfg : Config) : Option Bytes := (c.failure cfg).map (c.setting ++ ·)

/-- A check with one text. -/
def fails (setting : String) (bad : Config → Bool) (text : String) : Check :=
  ⟨str setting, fun cfg => if bad cfg then some (str text) else none⟩

/-- A range with fixed ends. -/
def outside (setting : String) (value : Config → Nat) (lo hi : Nat) (text : String) : Check :=
  fails setting (fun cfg => decide (value cfg < lo) || decide (hi < value cfg)) text

theorem error_eq_none {c : Check} {cfg : Config} : c.error cfg = none ↔ c.failure cfg = none :=
  Option.map_eq_none_iff

theorem fails_error_eq_none {setting text : String} {bad : Config → Bool} {cfg : Config} :
    (fails setting bad text).error cfg = none ↔ bad cfg = false := by
  rw [error_eq_none, fails]
  simp only
  split
  · rename_i hb
    exact ⟨nofun, fun h => by rw [h] at hb; cases hb⟩
  · rename_i hb
    exact ⟨fun _ => by simpa using hb, fun _ => rfl⟩

/-- **An error names the setting it is about.** -/
theorem setting_prefix {c : Check} {cfg : Config} {msg : Bytes} (h : c.error cfg = some msg) : c.setting <+: msg := by
  obtain ⟨text, -, rfl⟩ := Option.map_eq_some_iff.1 h
  exact List.prefix_append _ _

end Check

/-- The log levels. -/
def validLevels : List Bytes := [str "trace", str "debug", str "info", str "warn", str "error", str "crit"]

section validate

-- what `std::regex` throws on a pattern it does not compile
variable (regexError : Bytes → Option Bytes)

/-- The first pattern that does not compile. -/
def piiFailure (cfg : Config) : Option Bytes :=
  cfg.piiRedactionPatterns.zipIdx.findSome? fun p =>
    (regexError p.1).map fun what => str "[" ++ str (toString p.2) ++ str "] is not a valid regex: " ++ what

/-- The checks of `Validate`, in its order. -/
def checks : List Check :=
  [.fails "grpc_listen_address" (fun c => decide (c.grpcListenAddress = [])) " must be set",
   .fails "grpc_listen_address" (fun c => !c.grpcListenAddress.contains 58)
     " must contain a ':' (e.g. 0.0.0.0:50061)",
   .fails "grpc_tls_cert_path" (fun c => decide (c.grpcTlsCertPath ≠ []) && decide (c.grpcTlsKeyPath = []))
     " set but grpc_tls_key_path is empty — both required for TLS",
   -- the setting it asks for is the certificate, the one it reads is the key
   .fails "grpc_tls_ca_path" (fun c => decide (c.grpcTlsKeyPath = []) && decide (c.grpcTlsCaPath ≠ []))
     " set without grpc_tls_cert_path — mTLS requires server cert + key",
   .fails "grpc_tls_require_client_cert" (fun c => c.grpcTlsRequireClientCert && decide (c.grpcTlsCertPath = []))
     "=true but grpc_tls_cert_path is empty — mTLS requires server cert + key",
   .fails "eavesdrop_policy" (fun c => !Security.isKnownEavesdropPolicy c.eavesdropPolicy)
     " must be deny, audit, or allow",
   ⟨str "tenant_eavesdrop_policies", fun c => Security.validateTenantEavesdropPolicies c.tenantEavesdropPolicies⟩,
   .fails "event_ring_capacity_tier1" (fun c => decide (c.eventRingCapacityTier1 < 256)) " must be >= 256",
   .fails "event_ring_capacity_tier2" (fun c => decide (c.eventRingCapacityTier2 < 256)) " must be >= 256",
   .fails "event_ring_capacity_tier3" (fun c => decide (c.eventRingCapacityTier3 < 256)) " must be >= 256",
   .fails "subscriber_send_queue_capacity" (fun c => decide (c.subscriberSendQueueCapacity < 64)) " must be >= 64",
   .fails "max_subscribers" (fun c => decide (c.maxSubscribers < 1)) " must be >= 1",
   .fails "idempotency_ttl_seconds" (fun c => decide (c.idempotencyTtlSeconds = 0)) " must be > 0",
   .fails "idempotency_cache_capacity" (fun c => decide (c.idempotencyCacheCapacity < 16)) " must be >= 16",
   .fails "idempotency_in_flight_max_wait_seconds" (fun c => decide (c.idempotencyInFlightMaxWaitSeconds = 0))
     " must be > 0",
   .fails "drain_timeout_seconds" (fun c => decide (c.drainTimeoutSeconds = 0)) " must be > 0",
   .fails "grpc_drain_deadline_seconds" (fun c => decide (c.grpcDrainDeadlineSeconds = 0)) " must be > 0",
   ⟨str "log_level", fun c =>
     if validLevels.contains c.logLevel then none
     else some (str " must be one of trace/debug/info/warn/error/crit; got: " ++ c.logLevel)⟩,
   ⟨str "pii_redaction_patterns", piiFailure regexError⟩,
   .fails "tts_max_jitter_buffer_ms" (fun c => decide (c.ttsMaxJitterBufferMs < 200)) " must be >= 200",
   .fails "tts_jitter_buffer_ms"
     (fun c => decide (c.ttsJitterBufferMs < 200) || decide (c.ttsMaxJitterBufferMs < c.ttsJitterBufferMs))
     " must be in [200, tts_max_jitter_buffer_ms]",
   .fails "tts_preroll_ms" (fun c => decide (c.ttsPrerollMs < 50) || decide (c.ttsJitterBufferMs < c.ttsPrerollMs))
     " must be in [50, tts_jitter_buffer_ms]",
   .fails "tts_high_water_ms"
     (fun c => decide (c.ttsHighWaterMs < c.ttsJitterBufferMs) || decide (c.ttsMaxJitterBufferMs < c.ttsHighWaterMs))
     " must be in [tts_jitter_buffer_ms, tts_max_jitter_buffer_ms]",
   -- an unknown `tts_underrun_policy` is accepted
   .outside "recording_send_ring_ms" Config.recordingSendRingMs 50 5000 " must be in [50, 5000]",
   .outside "stereo_desync_timeout_ms" Config.stereoDesyncTimeoutMs 1 100 " must be in [1, 100]",
   .fails "stereo_desync_warn_ms" (fun c => decide (c.stereoDesyncTimeoutMs < c.stereoDesyncWarnMs))
     " must be <= stereo_desync_timeout_ms",
   .fails "recording_default_rate_hz" (fun c => !([8000, 16000, 24000, 48000].contains c.recordingDefaultRateHz))
     " must be one of 8000, 16000, 24000, 48000",
   .outside "max_silence_drivers" Config.maxSilenceDrivers 1 5000 " must be in [1, 5000]",
   .outside "bot_max_targets" Config.botMaxTargets 1 8 " must be in [1, 8]",
   .outside "bot_target_queue_ms" Config.botTargetQueueMs 50 5000 " must be in [50, 5000]",
   .outside "bot_drain_timeout_ms" Config.botDrainTimeoutMs 100 10000 " must be in [100, 10000]",
   .outside "max_bots_per_channel" Config.maxBotsPerChannel 1 4 " must be in [1, 4]"]

/-- `Validate`: the error, if any. -/
def validate (cfg : Config) : Option Bytes := (checks regexError).findSome? (·.error cfg)

variable {regexError}

theorem validate_eq_none {cfg : Config} : validate regexError cfg = none ↔ ∀ c ∈ checks regexError, c.error cfg = none :=
  List.findSome?_eq_none_iff

/-- **A refusal names the setting that is wrong.** -/
theorem validate_names_setting {cfg : Config} {msg : Bytes} (h : validate regexError cfg = some msg) :
    ∃ c ∈ checks regexError, c.error cfg = some msg ∧ c.setting <+: msg := by
  obtain ⟨c, hc, hmsg⟩ := List.exists_of_findSome?_eq_some h
  exact ⟨c, hc, hmsg, Check.setting_prefix hmsg⟩

/-- **The defaults are accepted.** -/
theorem validate_defaults : validate regexError {} = none := by
  have hpii : piiFailure regexError {} = none := rfl
  rw [validate_eq_none]
  simp only [checks, List.forall_mem_cons, Check.outside, Check.error_eq_none, hpii, true_and]
  decide +kernel

/-- What the three TLS checks ensure.  The second ties the CA bundle to the key, not to the certificate. -/
theorem tls_of_validate {cfg : Config} (h : validate regexError cfg = none) :
    (cfg.grpcTlsCertPath ≠ [] → cfg.grpcTlsKeyPath ≠ []) ∧ (cfg.grpcTlsCaPath ≠ [] → cfg.grpcTlsKeyPath ≠ []) ∧
    (cfg.grpcTlsRequireClientCert = true → cfg.grpcTlsCertPath ≠ []) := by
  rw [validate_eq_none] at h
  have hcert := Check.fails_error_eq_none.1 (h _ (List.mem_of_getElem? (i := 2) rfl))
  have hca := Check.fails_error_eq_none.1 (h _ (List.mem_of_getElem? (i := 3) rfl))
  have hclient := Check.fails_error_eq_none.1 (h _ (List.mem_of_getElem? (i := 4) rfl))
  refine ⟨fun hc hk => ?_, fun hc hk => ?_, fun hr hc => ?_⟩
  · simp [hc, hk] at hcert
  · simp [hc, hk] at hca
  · simp [hr, hc] at hclient

end validate

end Osw
