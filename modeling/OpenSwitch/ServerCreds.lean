import OpenSwitch.Config
/-!
# ServerCreds — the credentials of the gRPC server (`tls.cc`)

`MakeServerCreds` builds TLS credentials from the files the settings name, fails when one cannot be read, and falls back
to plaintext when there is no certificate path.  `Validate` should refuse every other TLS setting without one; it does
not (`never_plaintext_iff`).
-/
namespace Osw
namespace Control

/-- `TlsConfig`. -/
structure TlsConfig where
  certPath          : Bytes
  keyPath           : Bytes
  caPath            : Bytes
  requireClientCert : Bool
  deriving DecidableEq, Repr

def TlsConfig.enabled (cfg : TlsConfig) : Bool := decide (cfg.certPath ≠ [])

/-- `grpc_ssl_client_certificate_request_type`. -/
inductive ClientCertRequest
  | dontRequest
  | requestAndRequireAndVerify
  deriving DecidableEq, Repr

/-- `grpc::ServerCredentials`: `InsecureServerCredentials` or `SslServerCredentials` of its options. -/
inductive ServerCredentials
  | insecure
  | ssl (certReq : ClientCertRequest) (pemRootCerts key cert : Bytes)
  deriving DecidableEq, Repr

/-- The files, those that can be read. -/
abbrev FileSystem := Bytes → Option Bytes

/-- `SlurpFile`: nothing for a file that cannot be read. -/
def slurpFile (fs : FileSystem) (path : Bytes) : Bytes := (fs path).getD []

def looksLikePem (s : Bytes) : Bool := decide (str "-----BEGIN" <:+: s)

/-- A PEM file that is there and looks like one. -/
def readPem (fs : FileSystem) (path : Bytes) : Option Bytes :=
  let s := slurpFile fs path
  if s = [] then none else if looksLikePem s then some s else none

/-- The CA bundle, empty when there is no path for it. -/
def readRootCerts (fs : FileSystem) (cfg : TlsConfig) : Option Bytes :=
  if cfg.caPath ≠ [] then readPem fs cfg.caPath else some []

/-- `BuildServerCredentials`; `none` is a null pointer. -/
def buildServerCredentials (fs : FileSystem) (cfg : TlsConfig) : Option ServerCredentials :=
  if cfg.enabled = false then some .insecure
  else do
    let cert ← readPem fs cfg.certPath
    let key ← readPem fs cfg.keyPath
    let ca ← readRootCerts fs cfg
    return .ssl (if cfg.requireClientCert then .requestAndRequireAndVerify else .dontRequest) ca key cert

/-- `TlsConfigFromConfig`. -/
def tlsConfigOf (config : Config) : TlsConfig where
  certPath          := config.grpcTlsCertPath
  keyPath           := config.grpcTlsKeyPath
  caPath            := config.grpcTlsCaPath
  requireClientCert := config.grpcTlsRequireClientCert || decide (config.grpcTlsCaPath ≠ [])

def makeServerCreds (fs : FileSystem) (config : Config) : Option ServerCredentials :=
  buildServerCredentials fs (tlsConfigOf config)

namespace ServerCredentials

/-- The server asks a client for a certificate and verifies it. -/
def VerifiesClients : ServerCredentials → Prop
  | .insecure => False
  | .ssl certReq _ _ _ => certReq = .requestAndRequireAndVerify

end ServerCredentials

/-- One of the TLS settings is set. -/
def WantsTls (cfg : Config) : Prop :=
  cfg.grpcTlsCertPath ≠ [] ∨ cfg.grpcTlsKeyPath ≠ [] ∨ cfg.grpcTlsCaPath ≠ [] ∨ cfg.grpcTlsRequireClientCert = true

/-- TLS settings give TLS or a failure, and a CA bundle is there to verify clients. -/
def NeverPlaintext (fs : FileSystem) (cfg : Config) : Prop :=
  (WantsTls cfg → makeServerCreds fs cfg ≠ some .insecure) ∧
  (cfg.grpcTlsCaPath ≠ [] → ∀ creds, makeServerCreds fs cfg = some creds → creds.VerifiesClients)

theorem makeServerCreds_of_no_cert {cfg : Config} (fs : FileSystem) (h : cfg.grpcTlsCertPath = []) :
    makeServerCreds fs cfg = some .insecure := by
  simp [makeServerCreds, buildServerCredentials, TlsConfig.enabled, tlsConfigOf, h]

theorem makeServerCreds_of_cert {cfg : Config} {fs : FileSystem} {creds : ServerCredentials}
    (h : cfg.grpcTlsCertPath ≠ []) (hc : makeServerCreds fs cfg = some creds) :
    ∃ ca key cert, creds = .ssl (if (tlsConfigOf cfg).requireClientCert then .requestAndRequireAndVerify
      else .dontRequest) ca key cert := by
  have hon : (tlsConfigOf cfg).enabled = true := decide_eq_true h
  rw [makeServerCreds, buildServerCredentials, if_neg (by rw [hon]; nofun)] at hc
  obtain ⟨cert, -, hc⟩ := Option.bind_eq_some_iff.1 hc
  obtain ⟨key, -, hc⟩ := Option.bind_eq_some_iff.1 hc
  obtain ⟨ca, -, hc⟩ := Option.bind_eq_some_iff.1 hc
  cases hc
  exact ⟨ca, key, cert, rfl⟩

theorem neverPlaintext_of_cert {cfg : Config} (fs : FileSystem) (h : cfg.grpcTlsCertPath ≠ []) :
    NeverPlaintext fs cfg := by
  refine ⟨fun _ hplain => ?_, fun hca creds hc => ?_⟩
  · obtain ⟨ca, key, cert, he⟩ := makeServerCreds_of_cert h hplain
    cases he
  · obtain ⟨ca, key, cert, rfl⟩ := makeServerCreds_of_cert h hc
    have hreq : (tlsConfigOf cfg).requireClientCert = true := by simp [tlsConfigOf, hca]
    rw [ServerCredentials.VerifiesClients, hreq]
    rfl

/-- **When an accepted configuration keeps its TLS settings**: whatever the files are, it does exactly when it names a
certificate, or neither a key nor a CA bundle. -/
theorem never_plaintext_iff (regexError : Bytes → Option Bytes) (cfg : Config) (hv : validate regexError cfg = none)
    (fs : FileSystem) :
    NeverPlaintext fs cfg ↔ cfg.grpcTlsCertPath ≠ [] ∨ (cfg.grpcTlsKeyPath = [] ∧ cfg.grpcTlsCaPath = []) := by
  obtain ⟨-, -, hclient⟩ := tls_of_validate hv
  constructor
  · rintro ⟨hsafe, -⟩
    by_cases hcert : cfg.grpcTlsCertPath = []
    · -- plaintext, so none of the settings may be there
      have hnot : ¬ WantsTls cfg := fun hw => hsafe hw (makeServerCreds_of_no_cert fs hcert)
      refine .inr ⟨?_, ?_⟩
      · exact Decidable.not_not.1 fun hk => hnot (.inr (.inl hk))
      · exact Decidable.not_not.1 fun hc => hnot (.inr (.inr (.inl hc)))
    · exact .inl hcert
  · rintro (hcert | ⟨hkey, hca⟩)
    · exact neverPlaintext_of_cert fs hcert
    · refine ⟨?_, fun h => absurd hca h⟩
      rintro (hcert | hk | hc | hr)
      · exact (neverPlaintext_of_cert fs hcert).1 (.inl hcert)
      · exact absurd hkey hk
      · exact absurd hca hc
      · exact (neverPlaintext_of_cert fs (hclient hr)).1 (.inl (hclient hr))

def certAndKey : Config := { grpcTlsCertPath := str "/c", grpcTlsKeyPath := str "/k" }

theorem never_plaintext_iff_certAndKey :
    validate (fun _ => none) certAndKey = none ∧ NeverPlaintext (fun _ => none) certAndKey := by
  have hv : validate (fun _ => none) certAndKey = none := by decide +kernel
  exact ⟨hv, (never_plaintext_iff (fun _ => none) certAndKey hv (fun _ => none)).2 (.inl (by decide +kernel))⟩

def keyAndCa : Config := { grpcTlsKeyPath := str "/k", grpcTlsCaPath := str "/ca" }

/-- A key and a CA bundle without a certificate: accepted, and served in plaintext, without a look at a client's
certificate, although every file is there. -/
theorem key_and_ca_served_in_plaintext :
    validate (fun _ => none) keyAndCa = none ∧ WantsTls keyAndCa ∧
    makeServerCreds (fun _ => some (str "-----BEGIN")) keyAndCa = some .insecure ∧
    ¬ NeverPlaintext (fun _ => some (str "-----BEGIN")) keyAndCa := by
  have hwants : WantsTls keyAndCa := .inr (.inl (by decide +kernel))
  have hplain : makeServerCreds (fun _ => some (str "-----BEGIN")) keyAndCa = some .insecure :=
    makeServerCreds_of_no_cert _ rfl
  exact ⟨by decide +kernel, hwants, hplain, fun h => h.1 hwants hplain⟩

end Control
end Osw
