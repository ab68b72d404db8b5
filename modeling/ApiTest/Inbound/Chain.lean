import ApiTest.Auth.Identity
import ApiTest.Middleware.Audit
import ApiTest.Text.Base64
import ApiTest.Text.Strings

/-! The inbound authentication chain (`pkg/auth/inbound`) and its composition in
`Build`. An authenticator maps the request to an identity or to an error; an
error that is `ErrNoCredential` hands the request to the next authenticator, any
other one ends the walk. -/

namespace ApiTest.Inbound

open Text Audit Net

/-! ### Errors -/

inductive Sentinel where
  | noCredential
  | invalidCredential
  deriving DecidableEq, Repr

/-- An error: its text, and the sentinels that `errors.Is` finds in its tree. -/
structure Failure where
  message : GoString
  wraps : List Sentinel := []
  deriving DecidableEq, Repr

/-- `errors.Is`. -/
def Failure.is (e : Failure) (s : Sentinel) : Bool := e.wraps.contains s

def errNoCredential : Failure := ⟨lit "inbound: no credential", [.noCredential]⟩
def errInvalidCredential : Failure := ⟨lit "inbound: invalid credential", [.invalidCredential]⟩

@[simp] theorem errNoCredential_is (s : Sentinel) :
    errNoCredential.is s = decide (s = .noCredential) := by
  cases s <;> rfl

@[simp] theorem errInvalidCredential_is (s : Sentinel) :
    errInvalidCredential.is s = decide (s = .invalidCredential) := by
  cases s <;> rfl

/-- `fmt.Errorf("oidc: %w: %w", ErrInvalidCredential, err)`. -/
def oidcFailure (e : Failure) : Failure where
  message := lit "oidc: " ++ errInvalidCredential.message ++ lit ": " ++ e.message
  wraps := .invalidCredential :: e.wraps

@[simp] theorem oidcFailure_is_noCredential (e : Failure) :
    (oidcFailure e).is .noCredential = e.is .noCredential := rfl

@[simp] theorem oidcFailure_is_invalidCredential (e : Failure) :
    (oidcFailure e).is .invalidCredential = true := rfl

/-! ### Requests -/

/-- `textproto.CanonicalMIMEHeaderKey`: a token has its first letter and each
letter after a hyphen in upper case and the others in lower case; anything else
is left alone. -/
def canonicalMIMEHeaderKey (key : GoString) : GoString :=
  let upperNext : Bool × GoString → UInt8 → Bool × GoString := fun (upper, done) c =>
    let c' := if upper then (if 0x61 ≤ c ∧ c ≤ 0x7A then c - 0x20 else c)
      else if 0x41 ≤ c ∧ c ≤ 0x5A then c + 0x20 else c
    (c == 0x2D, done ++ [c'])
  if validMethod key then (key.foldl upperNext (true, [])).2 else key

example : canonicalMIMEHeaderKey (lit "x-API-Key") = lit "X-Api-Key" := by decide

/-- What the authenticators read of a request: `r.Header` and `r.URL.Query()`. -/
structure Wire where
  header : Values := []
  query : Values := []

/-- `r.Header.Get`. -/
def Wire.headerGet (r : Wire) (name : GoString) : GoString :=
  r.header.get (canonicalMIMEHeaderKey name)

/-- `inbound.Identity`; its scopes are never filled in. -/
structure Identity extends Middleware.Identity where
  claims : Auth.Claims := []

def anonymous : Identity where
  subject := []
  email := []
  authType := lit "anonymous"
  keyName := []

/-! ### API keys -/

/-- `APIKeyStore`: the name of the key or an error. By the contract of the
interface a failed lookup is never "no credential". -/
structure APIKeyStore where
  lookup : GoString → Except Failure GoString
  honest : ∀ {key e}, lookup key = .error e → e.is .noCredential = false

structure FileAPIKey where
  name : GoString
  key : GoString

/-- The walk over all rows `(name, secret)`, where the last match stays. -/
def matched (candidate : GoString) (rows : List (GoString × GoString)) : GoString :=
  rows.foldl (fun found row => if candidate = row.2 then row.1 else found) []

theorem mem_of_matched {candidate : GoString} {rows : List (GoString × GoString)}
    (h : matched candidate rows ≠ []) : (matched candidate rows, candidate) ∈ rows := by
  -- the accumulator is the start value or the name of a matching row
  have hfold : ∀ (rows : List (GoString × GoString)) (start : GoString),
      let found := rows.foldl (fun found row => if candidate = row.2 then row.1 else found) start
      found = start ∨ (found, candidate) ∈ rows := by
    intro rows
    induction rows with
    | nil => exact fun start => Or.inl rfl
    | cons row rows ih =>
      intro start
      rw [List.foldl_cons]
      by_cases hrow : candidate = row.2
      · rw [if_pos hrow]
        obtain hstart | hmem := ih row.1
        · refine Or.inr (List.mem_cons.mpr (Or.inl ?_))
          rw [hstart, hrow]
        · exact Or.inr (List.mem_cons_of_mem _ hmem)
      · rw [if_neg hrow]
        exact (ih start).imp_right (List.mem_cons_of_mem _)
  exact (hfold rows []).resolve_left h

/-- `FileAPIKeyStore.LookupAPIKey`. -/
def FileAPIKey.lookup (keys : List FileAPIKey) (candidate : GoString) : Except Failure GoString :=
  if candidate = [] then .error errInvalidCredential
  else
    let name := matched candidate (keys.map fun k => (k.name, k.key))
    if name = [] then .error errInvalidCredential else .ok name

theorem FileAPIKey.lookup_error {keys : List FileAPIKey} {candidate : GoString} {e : Failure}
    (h : FileAPIKey.lookup keys candidate = .error e) : e = errInvalidCredential := by
  simp only [FileAPIKey.lookup] at h
  split_ifs at h <;> cases h <;> rfl

/-- `NewFileAPIKeyStore`. -/
def newFileAPIKeyStore (keys : List FileAPIKey) : APIKeyStore where
  lookup := FileAPIKey.lookup keys
  honest h := by simp [FileAPIKey.lookup_error h]

/-- The loop of `combined.LookupAPIKey`; `lastErr` is the last failure other than
an invalid credential. -/
def combinedFrom (plaintext : GoString) : Option Failure → List APIKeyStore →
    Except Failure GoString
  | lastErr, [] => .error (lastErr.getD errInvalidCredential)
  | lastErr, s :: stores =>
    match s.lookup plaintext with
    | .ok name => .ok name
    | .error e =>
      combinedFrom plaintext (if e.is .invalidCredential then lastErr else some e) stores

theorem combinedFrom_ok {plaintext name : GoString} {lastErr : Option Failure}
    {stores : List APIKeyStore} (h : combinedFrom plaintext lastErr stores = .ok name) :
    ∃ s ∈ stores, s.lookup plaintext = .ok name := by
  induction stores generalizing lastErr with
  | nil => cases h
  | cons s stores ih =>
    rw [combinedFrom] at h
    cases hs : s.lookup plaintext with
    | ok found =>
      rw [hs] at h
      exact ⟨s, List.mem_cons_self, hs.trans h⟩
    | error e =>
      rw [hs] at h
      obtain ⟨s', hmem, hlookup⟩ := ih h
      exact ⟨s', List.mem_cons_of_mem _ hmem, hlookup⟩

/-- A failed walk reports the failure it was started with, an invalid credential
or a failure of a store that is none; the first two only if every store found
the credential invalid. -/
theorem combinedFrom_error {plaintext : GoString} {lastErr : Option Failure} {e : Failure}
    {stores : List APIKeyStore} (h : combinedFrom plaintext lastErr stores = .error e) :
    (e = lastErr.getD errInvalidCredential ∧
      ∀ s ∈ stores, ∃ e', s.lookup plaintext = .error e' ∧ e'.is .invalidCredential) ∨
    (e.is .invalidCredential = false ∧ ∃ s ∈ stores, s.lookup plaintext = .error e) := by
  induction stores generalizing lastErr with
  | nil =>
    cases h
    exact Or.inl ⟨rfl, by simp⟩
  | cons s stores ih =>
    rw [combinedFrom] at h
    cases hs : s.lookup plaintext with
    | ok found =>
      rw [hs] at h
      cases h
    | error e' =>
      rw [hs] at h
      by_cases hinvalid : e'.is .invalidCredential
      · simp only [hinvalid, if_true] at h
        obtain ⟨he, hall⟩ | ⟨he, s', hmem, hlookup⟩ := ih h
        · exact Or.inl ⟨he, List.forall_mem_cons.mpr ⟨⟨e', hs, hinvalid⟩, hall⟩⟩
        · exact Or.inr ⟨he, s', List.mem_cons_of_mem _ hmem, hlookup⟩
      · simp only [hinvalid] at h
        obtain ⟨he, -⟩ | ⟨he, s', hmem, hlookup⟩ := ih h
        · cases he
          exact Or.inr ⟨by simpa using hinvalid, s, List.mem_cons_self, hs⟩
        · exact Or.inr ⟨he, s', List.mem_cons_of_mem _ hmem, hlookup⟩

/-- `CombineAPIKeyStores`. -/
def combineAPIKeyStores (stores : List APIKeyStore) : APIKeyStore where
  lookup plaintext := combinedFrom plaintext none stores
  honest h := by
    obtain ⟨rfl, -⟩ | ⟨-, s, -, hs⟩ := combinedFrom_error h
    · rfl
    · exact s.honest hs

/-! ### Authenticators -/

/-- `Authenticator`: an identity, which may be nil, or an error. -/
abbrev Authenticator := Wire → Except Failure (Option Identity)

/-- The authenticator returns `ErrNoCredential`. -/
def Authenticator.passes (a : Authenticator) (r : Wire) : Bool :=
  match a r with
  | .ok _ => false
  | .error e => e.is .noCredential

/-- The key of a request: the header, or else the query parameter. -/
def keyCandidate (headerName queryParam : GoString) (r : Wire) : GoString :=
  let candidate := trimSpace (r.headerGet headerName)
  if candidate = [] then trimSpace (r.query.get queryParam) else candidate

theorem keyCandidate_eq_nil {headerName queryParam : GoString} {r : Wire} :
    keyCandidate headerName queryParam r = [] ↔
      trimSpace (r.headerGet headerName) = [] ∧ trimSpace (r.query.get queryParam) = [] := by
  simp only [keyCandidate]
  split_ifs with h <;> simp [h]

def keyIdentity (name : GoString) : Identity where
  subject := name
  email := []
  authType := lit "apikey"
  keyName := name

/-- `APIKeyAuthenticator.Authenticate`. -/
def apiKeyAuthenticate (store : APIKeyStore) (headerName queryParam : GoString) : Authenticator :=
  fun r =>
    let candidate := keyCandidate headerName queryParam r
    if candidate = [] then .error errNoCredential
    else (store.lookup candidate).map fun name => some (keyIdentity name)

def orDefault (name default : GoString) : GoString := if name = [] then default else name

/-- `NewAPIKey`. -/
def newAPIKey (store : APIKeyStore) (headerName queryParam : GoString) : Authenticator :=
  apiKeyAuthenticate store (orDefault headerName (lit "X-API-Key"))
    (orDefault queryParam (lit "api_key"))

/-- `extractBearer`. -/
def extractBearer (authHeader : GoString) : GoString :=
  if authHeader = [] then []
  else if authHeader.length < 7 then []
  else if !equalFold (authHeader.take 7) "Bearer ".toList then []
  else trimSpace (authHeader.drop 7)

/-- The bearer token of a request. -/
def Wire.bearer (r : Wire) : GoString := extractBearer (r.headerGet (lit "Authorization"))

/-- `json.Unmarshal` into the `alg` field of a token's header; `none` is an
error. -/
class HeaderJSON where
  alg : GoString → Option GoString

/-- `looksLikeJWT`. -/
def looksLikeJWT [HeaderJSON] (s : GoString) : Bool :=
  match s.splitOn 0x2E with
  | [first, _, _] => (Base64.decode first).any fun header =>
      (HeaderJSON.alg header).any (· ≠ [])
  | _ => false

/-- `OIDCValidator`: a rejected token is a failure of its own, never "no
credential". -/
structure OIDCValidator where
  validateBearer : GoString → Except Failure Auth.Identity
  honest : ∀ {token e}, validateBearer token = .error e → e.is .noCredential = false

def oidcIdentity (aid : Auth.Identity) : Identity :=
  let subject := orDefault aid.subject (lit "oidc-subject-missing")
  { subject
    email := aid.email
    authType := lit "oidc"
    keyName := subject
    claims := aid.claims }

/-- `OIDCBearerAuthenticator.Authenticate`. -/
def newOIDCBearer [HeaderJSON] (validator : Option OIDCValidator) : Authenticator := fun r =>
  match validator with
  | none => .error errNoCredential
  | some v =>
    if r.bearer = [] then .error errNoCredential
    else if !looksLikeJWT r.bearer then .error errNoCredential
    else match v.validateBearer r.bearer with
      | .error e => .error (oidcFailure e)
      | .ok aid => .ok (some (oidcIdentity aid))

structure FileBearerToken where
  name : GoString
  token : GoString

def bearerIdentity (name : GoString) : Identity where
  subject := name
  email := []
  authType := lit "bearer"
  keyName := name

/-- `BearerAuthenticator.Authenticate`. -/
def newBearer (tokens : List FileBearerToken) : Authenticator := fun r =>
  if r.bearer = [] then .error errNoCredential
  else
    let name := matched r.bearer (tokens.map fun t => (t.name, t.token))
    if name = [] then .error errInvalidCredential else .ok (some (bearerIdentity name))

theorem newAPIKey_passes (store : APIKeyStore) (headerName queryParam : GoString) (r : Wire) :
    (newAPIKey store headerName queryParam).passes r =
      decide (keyCandidate (orDefault headerName (lit "X-API-Key"))
        (orDefault queryParam (lit "api_key")) r = []) := by
  unfold Authenticator.passes newAPIKey apiKeyAuthenticate
  generalize keyCandidate _ _ r = candidate
  by_cases hc : candidate = []
  · simp [hc]
  · cases hs : store.lookup candidate with
    | ok name => simp [hc, hs, Except.map]
    | error e => simp [hc, hs, Except.map, store.honest hs]

theorem newOIDCBearer_passes [HeaderJSON] (v : OIDCValidator) (r : Wire) :
    (newOIDCBearer (some v)).passes r = !(decide (r.bearer ≠ []) && looksLikeJWT r.bearer) := by
  unfold Authenticator.passes newOIDCBearer
  by_cases hb : r.bearer = []
  · simp [hb]
  · cases hj : looksLikeJWT r.bearer with
    | false => simp [hb]
    | true =>
      cases hv : v.validateBearer r.bearer with
      | ok aid => simp [hb, hv]
      | error e => simp [hb, hv, v.honest hv]

theorem newBearer_passes (tokens : List FileBearerToken) (r : Wire) :
    (newBearer tokens).passes r = decide (r.bearer = []) := by
  unfold Authenticator.passes newBearer
  by_cases hb : r.bearer = []
  · simp [hb]
  · by_cases hm : matched r.bearer (tokens.map fun t => (t.name, t.token)) = []
    · simp [hb, hm]
    · simp [hb, hm]

/-! ### The chain -/

structure Chain where
  authenticators : List Authenticator
  allowAnonymous : Bool

/-- `NewChain`; nil authenticators are dropped. -/
def newChain (allowAnonymous : Bool) (auths : List (Option Authenticator)) : Chain :=
  ⟨auths.reduceOption, allowAnonymous⟩

/-- The loop of `Chain.Authenticate`. -/
def authenticateFrom (allowAnonymous : Bool) (r : Wire) :
    List Authenticator → Except Failure (Option Identity)
  | [] => if allowAnonymous then .ok (some anonymous) else .error errNoCredential
  | a :: rest =>
    match a r with
    | .ok id => .ok id
    | .error e => if e.is .noCredential then authenticateFrom allowAnonymous r rest else .error e

/-- `Chain.Authenticate`. -/
def Chain.authenticate (c : Chain) (r : Wire) : Except Failure (Option Identity) :=
  authenticateFrom c.allowAnonymous r c.authenticators

/-- The authenticators that are called for a request. -/
def consultedFrom (r : Wire) : List Authenticator → List Authenticator
  | [] => []
  | a :: rest => a :: if a.passes r then consultedFrom r rest else []

def Chain.consulted (c : Chain) (r : Wire) : List Authenticator := consultedFrom r c.authenticators

theorem authenticateFrom_cons (allow : Bool) (r : Wire) (a : Authenticator)
    (rest : List Authenticator) :
    authenticateFrom allow r (a :: rest) =
      if a.passes r then authenticateFrom allow r rest else a r := by
  rw [authenticateFrom, Authenticator.passes]
  cases a r <;> simp

/-- The part of the configuration that `Build` composes the chain from. `db` is
the store of the database keys if they are enabled, `oidc` the validator. -/
structure Config where
  fileKeys : List FileAPIKey
  headerName : GoString
  queryParamName : GoString
  db : Option APIKeyStore
  oidc : Option OIDCValidator
  tokens : List FileBearerToken
  allowAnonymous : Bool

/-- The stores that API keys are looked up in. -/
def Config.stores (cfg : Config) : List APIKeyStore :=
  newFileAPIKeyStore cfg.fileKeys :: cfg.db.toList

def Config.keyStore (cfg : Config) : APIKeyStore :=
  match cfg.db with
  | none => newFileAPIKeyStore cfg.fileKeys
  | some db => combineAPIKeyStores [newFileAPIKeyStore cfg.fileKeys, db]

/-- The chain of `Build`. -/
def build [HeaderJSON] (cfg : Config) : Chain :=
  let apikeyAuth := newAPIKey cfg.keyStore cfg.headerName cfg.queryParamName
  let oidc := match cfg.oidc with
    | none => []
    | some v => [some (newOIDCBearer (some v))]
  newChain cfg.allowAnonymous (some apikeyAuth :: oidc ++ [some (newBearer cfg.tokens)])

@[simp] theorem build_allowAnonymous [HeaderJSON] (cfg : Config) :
    (build cfg).allowAnonymous = cfg.allowAnonymous := rfl

theorem build_authenticators [HeaderJSON] (cfg : Config) :
    (build cfg).authenticators = newAPIKey cfg.keyStore cfg.headerName cfg.queryParamName ::
      ((cfg.oidc.map fun v => newOIDCBearer (some v)).toList ++ [newBearer cfg.tokens]) := by
  unfold build
  cases cfg.oidc <;> rfl

end ApiTest.Inbound
