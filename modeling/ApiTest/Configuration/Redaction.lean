import ApiTest.Configuration.Load
import ApiTest.Middleware.Endpoint

/-! Where a credential is read and where it is redacted. The names of the API-key
header and query parameter come from one section of the configuration, the redact
keys from another, and nothing ties the two: the default list covers the default
names and `Authorization`, and an operator who renames the header has to extend
the list. -/

namespace ApiTest.Configuration

open Text Audit Multimap Inbound Middleware

/-- The options `Build` gives to the audit middleware. -/
def Config.auditOptions (c : Config) : AuditOptions where
  capturePayloads := c.audit.capturePayloadsEnabled && c.audit.enabled
  captureHeaders := c.audit.captureHeadersEnabled
  maxPayloadBytes := c.audit.maxPayloadBytes
  redactKeys := c.audit.redactKeys

/-- The key of the header map that the API-key authenticator reads. -/
def Config.keyHeader (c : Config) : GoString := canonicalMIMEHeaderKey c.apiKeys.headerName

/-- In an accepted configuration both names are set, so `NewAPIKey` takes them. -/
theorem newAPIKey_of_load {insecure : GoString} {doc c : Config} (h : load insecure doc = .ok c)
    (store : APIKeyStore) : newAPIKey store c.apiKeys.headerName c.apiKeys.queryParamName =
      apiKeyAuthenticate store c.apiKeys.headerName c.apiKeys.queryParamName := by
  obtain ⟨rfl, -⟩ := load_ok h
  have hheader : doc.applyDefaults.apiKeys.headerName ≠ [] := filled_ne (by decide)
  have hquery : doc.applyDefaults.apiKeys.queryParamName ≠ [] := filled_ne (by decide)
  rw [newAPIKey, orDefault, orDefault, if_neg hheader, if_neg hquery]

/-- Headers a credential is read from. -/
def Config.isCredentialHeader (c : Config) (key : GoString) : Bool :=
  key == c.keyHeader || key == lit "Authorization"

def Config.isCredentialParam (c : Config) (key : GoString) : Bool :=
  key == c.apiKeys.queryParamName

section
variable [UnicodeCase]

/-- The only value of a captured map under the keys is `[redacted]`. -/
def OnlyRedacted (keys : GoString → Bool) (h : Values) : Prop :=
  ∀ key, keys key = true → ∀ vs, h.lookup key = some vs → vs = [redacted]

/-- No payload shows a credential: the only value under the names it is read from
is `[redacted]`, and requests that differ in those values only are captured alike,
whatever their handlers do. -/
structure CredentialsHidden (c : Config) : Prop where
  redacted : ∀ registry clock r acts p,
    (audit registry c.auditOptions clock r acts).payload = some p →
      OnlyRedacted c.isCredentialHeader p.requestHeaders ∧
      OnlyRedacted c.isCredentialParam p.requestQuery
  alike : ∀ registry clock clock' r r' acts acts' p p',
    AgreeOff c.isCredentialHeader r.header r'.header →
    AgreeOff c.isCredentialParam r.query r'.query →
    (audit registry c.auditOptions clock r acts).payload = some p →
    (audit registry c.auditOptions clock' r' acts').payload = some p' →
      p.requestHeaders = p'.requestHeaders ∧ p.requestQuery = p'.requestQuery

/-- The default redact keys find both names. -/
def NamesCovered (c : Config) : Prop :=
  matchesRedactKey c.keyHeader defaultRedactKeys = true ∧
    matchesRedactKey c.apiKeys.queryParamName defaultRedactKeys = true

theorem authorization_matches : matchesRedactKey (lit "Authorization") defaultRedactKeys = true := by
  rfl

omit [UnicodeCase] in
theorem onlyRedacted_nil (keys : GoString → Bool) : OnlyRedacted keys [] := by
  intro key _ vs hvs
  cases hvs

theorem onlyRedacted_sanitize {keys : GoString → Bool} {redactKeys : List GoString}
    (h : ∀ key, keys key = true → matchesRedactKey key redactKeys = true) (m : Values) :
    OnlyRedacted keys (sanitize m redactKeys) := by
  intro key hkey vs hvs
  rw [lookup_sanitize, h key hkey] at hvs
  obtain ⟨_, -, rfl⟩ := Option.map_eq_some_iff.mp hvs
  rfl

/-- With covered names, every name a credential is read from matches. -/
theorem NamesCovered.headers {c : Config} (h : NamesCovered c) (key : GoString)
    (hkey : c.isCredentialHeader key = true) : matchesRedactKey key defaultRedactKeys = true := by
  rw [Config.isCredentialHeader, Bool.or_eq_true, beq_iff_eq, beq_iff_eq] at hkey
  obtain rfl | rfl := hkey
  · exact h.1
  · exact authorization_matches

theorem NamesCovered.params {c : Config} (h : NamesCovered c) (key : GoString)
    (hkey : c.isCredentialParam key = true) : matchesRedactKey key defaultRedactKeys = true := by
  rw [Config.isCredentialParam, beq_iff_eq] at hkey
  rw [hkey]
  exact h.2

/-- Names that are covered whenever something is captured are enough. -/
theorem credentialsHidden_of_covered {c : Config} (hkeys : c.audit.redactKeys = defaultRedactKeys)
    (h : c.auditOptions.capturePayloads = true → c.auditOptions.captureHeaders = true →
      NamesCovered c) : CredentialsHidden c := by
  have hopts : c.auditOptions.redactKeys = defaultRedactKeys := hkeys
  constructor
  · intro registry clock r acts p hp
    obtain ⟨hheaders, hquery⟩ := captured_of_audit hp
    rw [hheaders, hquery, hopts]
    split_ifs with hcapture
    · have hnames := h (payload_of_audit hp).1 hcapture
      exact ⟨onlyRedacted_sanitize hnames.headers _, onlyRedacted_sanitize hnames.params _⟩
    · exact ⟨onlyRedacted_nil _, onlyRedacted_nil _⟩
  · intro registry clock clock' r r' acts acts' p p' hh hq hp hp'
    obtain ⟨hheaders, hquery⟩ := captured_of_audit hp
    obtain ⟨hheaders', hquery'⟩ := captured_of_audit hp'
    rw [hheaders, hquery, hheaders', hquery', hopts]
    split_ifs with hcapture
    · have hnames := h (payload_of_audit hp).1 hcapture
      exact ⟨sanitize_eq_of_agreeOff defaultRedactKeys hnames.headers hh,
        sanitize_eq_of_agreeOff defaultRedactKeys hnames.params hq⟩
    · exact ⟨rfl, rfl⟩

/-- A request with one header and one query parameter. -/
def keyRequest (header param : GoString) : Middleware.Inbound where
  method := lit "GET"
  path := lit "/v1/whoami"
  query := [(param, [lit "k"])]
  header := [(header, [lit "k"])]
  remoteAddr := []
  hasBody := false
  requestID := []
  identity := none

theorem matches_of_onlyRedacted {keys : GoString → Bool} {redactKeys : List GoString} {key : GoString}
    (hkey : keys key = true) (h : OnlyRedacted keys (sanitize [(key, [lit "k"])] redactKeys)) :
    matchesRedactKey key redactKeys = true := by
  by_contra hno
  have hlookup : (sanitize [(key, [lit "k"])] redactKeys).lookup key = some [lit "k"] := by
    simp [lookup_sanitize, hno]
  have hvalue := h key hkey _ hlookup
  exact absurd hvalue (by decide)

/-- For every accepted configuration without redact keys of its own: no payload
shows a credential if and only if no headers are captured or the default redact
keys find the names of the API-key header and query parameter. -/
theorem credentialsHidden_iff (insecure : GoString) (doc c : Config)
    (h : load insecure doc = .ok c) (hkeys : doc.audit.redactKeys = []) :
    CredentialsHidden c ↔ c.auditOptions.capturePayloads = false ∨
      c.auditOptions.captureHeaders = false ∨ NamesCovered c := by
  have hdefault : c.audit.redactKeys = defaultRedactKeys := by
    rw [(load_ok h).1]
    exact if_pos hkeys
  constructor
  · intro hhidden
    by_contra hno
    simp only [not_or, Bool.not_eq_false] at hno
    obtain ⟨hpayloads, hheaders, hnames⟩ := hno
    obtain ⟨p, hp, -⟩ := audit_payload none c.auditOptions ⟨0, 0, 0⟩
      (keyRequest c.keyHeader c.apiKeys.queryParamName) [] hpayloads
    obtain ⟨honlyHeader, honlyQuery⟩ := hhidden.redacted _ _ _ _ p hp
    obtain ⟨hcapHeader, hcapQuery⟩ := captured_of_audit hp
    rw [hcapHeader, if_pos hheaders] at honlyHeader
    rw [hcapQuery, if_pos hheaders] at honlyQuery
    have hopts : c.auditOptions.redactKeys = defaultRedactKeys := hdefault
    rw [hopts] at honlyHeader honlyQuery
    exact hnames ⟨matches_of_onlyRedacted (by simp [Config.isCredentialHeader]) honlyHeader,
      matches_of_onlyRedacted (by simp [Config.isCredentialParam]) honlyQuery⟩
  · intro hcondition
    refine credentialsHidden_of_covered hdefault fun hpayloads hheaders => ?_
    obtain hoff | hoff | hnames := hcondition
    · rw [hpayloads] at hoff
      cases hoff
    · rw [hheaders] at hoff
      cases hoff
    · exact hnames

end

/-! ### Two configurations -/

/-- A document with a database, one file key and the given header name. -/
def keyDocument (headerName : GoString) : Config where
  apiKeys := { file := [⟨lit "ci", lit "k"⟩], headerName }
  database := { url := lit "postgres://db/audit" }
  audit := { enabled := true }

/-- The default names are covered. -/
theorem default_names_hidden :
    load [] (keyDocument []) = .ok (keyDocument []).applyDefaults ∧
    @CredentialsHidden asciiCase (keyDocument []).applyDefaults := by
  have hload : load [] (keyDocument []) = .ok (keyDocument []).applyDefaults :=
    load_of_checks (by decide +kernel)
  refine ⟨hload, (@credentialsHidden_iff asciiCase [] _ _ hload rfl).mpr (Or.inr (Or.inr ?_))⟩
  exact ⟨by decide +kernel, by decide +kernel⟩

/-- A header of another name is captured with the key in it. -/
theorem renamed_header_captured :
    load [] (keyDocument (lit "X-Auth")) = .ok (keyDocument (lit "X-Auth")).applyDefaults ∧
    ((@audit asciiCase none (keyDocument (lit "X-Auth")).applyDefaults.auditOptions ⟨0, 0, 0⟩
      (keyRequest (lit "X-Auth") (lit "api_key")) []).payload.map Payload.requestHeaders) =
        some [(lit "X-Auth", [lit "k"])] :=
  ⟨load_of_checks (by decide +kernel), by decide +kernel⟩

end ApiTest.Configuration
