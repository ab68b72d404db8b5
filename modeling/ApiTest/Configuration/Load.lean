import ApiTest.Inbound.Chain

/-! The configuration document (`pkg/config`). `Load` expands environment
variables in a file and decodes it as YAML; the model starts from the decoded
document. It then fills empty fields with defaults and refuses a document that
fails one of its checks. An unset `*bool` is `none`, a duration is its number of
nanoseconds. Sections and fields that neither the defaults nor the checks nor a
modelled part of `Build` reads are left out. -/

namespace ApiTest.Configuration

open Text

structure ServerConfig where
  name : GoString := []
  address : GoString := []
  baseURL : GoString := []
  readHeaderTimeout : ℤ := 0
  gracePeriod : ℤ := 0
  preShutdownDelay : ℤ := 0
  deriving DecidableEq

structure OIDCConfig where
  enabled : Bool := false
  issuer : GoString := []
  clockSkewSeconds : ℤ := 0
  jwksCacheTTL : ℤ := 0
  skipSignatureVerification : Bool := false
  deriving DecidableEq

structure APIKeysConfig where
  file : List Inbound.FileAPIKey := []
  dbEnabled : Bool := false
  headerName : GoString := []
  queryParamName : GoString := []

structure DatabaseConfig where
  url : GoString := []
  maxOpenConns : ℤ := 0
  maxIdleConns : ℤ := 0
  connMaxLifetime : ℤ := 0
  deriving DecidableEq

structure AuditConfig where
  enabled : Bool := false
  retentionDays : ℤ := 0
  redactKeys : List GoString := []
  capturePayloads : Option Bool := none
  captureHeaders : Option Bool := none
  maxPayloadBytes : ℤ := 0
  deriving DecidableEq

structure PortalConfig where
  enabled : Bool := false
  cookieName : GoString := []
  cookieSecret : GoString := []
  oidcRedirectPath : GoString := []
  deriving DecidableEq

structure PlexaraRegisterConfig where
  enabled : Bool := false
  adminURL : GoString := []
  connName : GoString := []
  deriving DecidableEq

/-- The document. -/
structure Config where
  server : ServerConfig := {}
  oidc : OIDCConfig := {}
  apiKeys : APIKeysConfig := {}
  bearerTokens : List Inbound.FileBearerToken := []
  allowAnonymous : Bool := false
  database : DatabaseConfig := {}
  audit : AuditConfig := {}
  portal : PortalConfig := {}
  register : PlexaraRegisterConfig := {}

def AuditConfig.capturePayloadsEnabled (a : AuditConfig) : Bool := a.capturePayloads.getD true

def AuditConfig.captureHeadersEnabled (a : AuditConfig) : Bool := a.captureHeaders.getD true

/-! ### Defaults -/

/-- A field that is filled if it has its zero value. -/
def filled {α : Type*} [DecidableEq α] (zero default value : α) : α :=
  if value = zero then default else value

section Filled
variable {α : Type*} [DecidableEq α] {zero default value : α}

theorem filled_of_ne (h : value ≠ zero) : filled zero default value = value := if_neg h

theorem filled_ne (h : default ≠ zero) : filled zero default value ≠ zero := by
  unfold filled
  split_ifs with hv
  · exact h
  · exact hv

/-- A default that is not the zero value is final. -/
theorem filled_filled (h : default ≠ zero) (default' : α) :
    filled zero default' (filled zero default value) = filled zero default value :=
  filled_of_ne (filled_ne h)

end Filled

/-- The part of an address from its last colon on, if it has one. -/
def lastColon : GoString → Option GoString
  | [] => none
  | c :: rest =>
    match lastColon rest with
    | some port => some port
    | none => if c = 0x3A then some (c :: rest) else none

/-- `portFromAddr`. -/
def portFromAddr (addr : GoString) : GoString := (lastColon addr).getD (lit ":8080")

example : portFromAddr (lit "0.0.0.0:80") = lit ":80" := by decide

/-- The redact keys of a document that lists none. -/
def defaultRedactKeys : List GoString :=
  ["password", "token", "secret", "authorization", "api_key", "api-key", "credentials", "bearer",
    "cookie", "jwt", "session_id", "private_key", "passwd"].map lit

/-- A second in nanoseconds. -/
def second : ℤ := 1000000000

/-- `applyDefaults`. The base URL takes the port of the filled address. -/
def Config.applyDefaults (c : Config) : Config :=
  let address := filled [] (lit ":8080") c.server.address
  { c with
    server := {
      name := filled [] (lit "api-test") c.server.name
      address
      baseURL := filled [] (lit "http://localhost" ++ portFromAddr address) c.server.baseURL
      readHeaderTimeout := filled 0 (10 * second) c.server.readHeaderTimeout
      gracePeriod := filled 0 (25 * second) c.server.gracePeriod
      preShutdownDelay := filled 0 (2 * second) c.server.preShutdownDelay }
    oidc := { c.oidc with
      clockSkewSeconds := filled 0 30 c.oidc.clockSkewSeconds
      jwksCacheTTL := filled 0 (3600 * second) c.oidc.jwksCacheTTL }
    apiKeys := { c.apiKeys with
      headerName := filled [] (lit "X-API-Key") c.apiKeys.headerName
      queryParamName := filled [] (lit "api_key") c.apiKeys.queryParamName }
    database := { c.database with
      maxOpenConns := filled 0 25 c.database.maxOpenConns
      maxIdleConns := filled 0 5 c.database.maxIdleConns
      connMaxLifetime := filled 0 (3600 * second) c.database.connMaxLifetime }
    audit := { c.audit with
      retentionDays := filled 0 7 c.audit.retentionDays
      maxPayloadBytes := filled 0 (2 ^ 20) c.audit.maxPayloadBytes
      redactKeys := filled [] defaultRedactKeys c.audit.redactKeys }
    portal := { c.portal with
      cookieName := filled [] (lit "api_test_session") c.portal.cookieName
      oidcRedirectPath := filled [] (lit "/portal/auth/callback") c.portal.oidcRedirectPath }
    register := { c.register with
      connName := filled [] (lit "api-test") c.register.connName } }

/-- A filled document has no field left to fill. -/
theorem applyDefaults_applyDefaults (c : Config) :
    c.applyDefaults.applyDefaults = c.applyDefaults := by
  have hurl : lit "http://localhost" ++ portFromAddr (filled [] (lit ":8080") c.server.address) ≠ [] :=
    List.append_ne_nil_of_left_ne_nil (by decide) _
  simp only [Config.applyDefaults]
  congr 2
  all_goals try rw [filled_filled]
  all_goals first | decide | exact hurl

/-! ### Checks -/

/-- The checks of `Validate` with their messages, in order; `insecure` is the
value of the environment variable `APITEST_INSECURE`. -/
def Config.checks (insecure : GoString) (c : Config) : List (Bool × GoString) :=
  let hasInboundAuth := c.oidc.enabled || c.apiKeys.file.length > 0 || c.apiKeys.dbEnabled ||
    c.bearerTokens.length > 0
  [ ((c.audit.enabled || c.apiKeys.dbEnabled) && c.database.url = [],
      lit "database.url is required when audit.enabled or api_keys.db.enabled"),
    (c.portal.enabled && c.portal.cookieSecret = [],
      lit "portal.cookie_secret is required when portal.enabled=true"),
    (c.oidc.enabled && c.oidc.issuer = [],
      lit "oidc.issuer is required when oidc.enabled=true"),
    (c.oidc.skipSignatureVerification && insecure ≠ lit "1",
      lit "oidc.skip_signature_verification requires APITEST_INSECURE=1"),
    (!hasInboundAuth && !c.allowAnonymous,
      lit "no inbound auth method enabled: configure oidc, api_keys, bearer.tokens, or auth.allow_anonymous"),
    (c.register.enabled && c.register.adminURL = [],
      lit "plexara.register.admin_url is required when plexara.register.enabled=true") ]

/-- `Validate`. -/
def Config.validate (insecure : GoString) (c : Config) : Except GoString Unit :=
  let errs := ((c.checks insecure).filter Prod.fst).map Prod.snd
  if errs = [] then .ok ()
  else .error (lit "invalid config: " ++ (lit "; ").intercalate errs)

/-- `Load`, from the decoded document on. -/
def load (insecure : GoString) (doc : Config) : Except GoString Config :=
  (doc.applyDefaults.validate insecure).map fun _ => doc.applyDefaults

theorem load_ok {insecure : GoString} {doc c : Config} (h : load insecure doc = .ok c) :
    c = doc.applyDefaults ∧ ∀ check ∈ c.checks insecure, check.1 = false := by
  simp only [load, Config.validate] at h
  split_ifs at h with herrs
  · cases h
    refine ⟨rfl, fun check hmem => ?_⟩
    have hnil := List.map_eq_nil_iff.mp herrs
    simpa using List.filter_eq_nil_iff.mp hnil check hmem
  · cases h

/-- A document passes if no check applies to it. -/
theorem load_of_checks {insecure : GoString} {doc : Config}
    (h : (doc.applyDefaults.checks insecure).all (!·.1) = true) :
    load insecure doc = .ok doc.applyDefaults := by
  have hnone : (doc.applyDefaults.checks insecure).filter Prod.fst = [] := by
    rw [List.filter_eq_nil_iff]
    intro check hmem
    simpa using List.all_eq_true.mp h check hmem
  simp only [load, Config.validate, hnone, List.map_nil, if_true]
  rfl

end ApiTest.Configuration
