import ApiTest.Inbound.FailClosed

/-! The identity middleware (`pkg/httpmw/identity.go`) and the request that Try-It
dispatches to it. A request that already carries an identity in its context skips
the chain unless it has a credential of its own. Whether it has one is decided by
`hasInboundCredential`, which tests the raw strings, while the authenticators trim
them first: the two differ on a request whose only credentials are blank. -/

open ApiTest.Inbound

namespace ApiTest.Middleware

open Text Audit

section
variable [UnicodeCase]

/-- `strings.HasPrefix(strings.ToLower(a), "bearer ")`. -/
def hasBearerScheme (a : GoString) : Bool := hasPrefix (toLower a) (lit "bearer ")

/-- `hasInboundCredential`, for a request with a URL. -/
def hasInboundCredential (r : Wire) : Bool :=
  if r.headerGet (lit "X-API-Key") ≠ [] then true
  else if r.query.get (lit "api_key") ≠ [] then true
  else
    let a := r.headerGet (lit "Authorization")
    a ≠ [] && hasBearerScheme a

/-- What the middleware does with a request: run the handler under the identity
of the context or under the one the chain resolved, or answer an error. -/
inductive Verdict where
  | carried (id : Inbound.Identity)
  | resolved (id : Option Inbound.Identity)
  | rejected (status : ℕ) (challenge : Option GoString) (message : GoString)

/-- The verdict on a result of the chain. -/
def ofChain : Except Failure (Option Inbound.Identity) → Verdict
  | .ok id => .resolved id
  | .error e =>
    if e.is .noCredential then
      .rejected 401 (some (lit "Bearer realm=\"api-test\"")) (lit "missing credential")
    else if e.is .invalidCredential then
      .rejected 401 (some (lit "Bearer realm=\"api-test\", error=\"invalid_token\""))
        (lit "invalid credential")
    else .rejected 500 none (lit "auth error")

/-- `Identity`; `pre` is the identity in the context. -/
def identity (chain : Chain) (pre : Option Inbound.Identity) (r : Wire) : Verdict :=
  match pre with
  | some id => if !hasInboundCredential r then .carried id else ofChain (chain.authenticate r)
  | none => ofChain (chain.authenticate r)

/-! ### Try-It -/

/-- `Header.Add`. -/
def headerAdd (h : Values) (key value : GoString) : Values :=
  let key := canonicalMIMEHeaderKey key
  match h.lookup key with
  | none => h ++ [(key, [value])]
  | some _ => h.map fun e => if e.1 = key then (e.1, e.2 ++ [value]) else e

def disallowedTryItHeaders : List GoString :=
  [lit "cookie", lit "authorization", lit "set-cookie"]

/-- The headers `tryIt` copies from the operator's request. The marker it sets
afterwards is none the authenticators read. -/
def tryItHeaders (headers : Values) : Values :=
  (headers.filter fun e => !disallowedTryItHeaders.contains (toLower e.1)).foldl
    (fun h e => e.2.foldl (fun h value => headerAdd h e.1 value) h) []

/-- `portalIdentityToInbound`. -/
def portalIdentityToInbound (id : Auth.Identity) : Inbound.Identity where
  subject := id.subject
  email := id.email
  authType := orDefault id.authType (lit "portal")
  keyName := id.apiKeyID
  claims := id.claims

/-- The dispatch of `tryIt` for an operator, as far as the identity middleware. -/
def tryIt (chain : Chain) (operator : Option Auth.Identity) (headers query : Values) : Verdict :=
  identity chain (operator.map portalIdentityToInbound) ⟨tryItHeaders headers, query⟩

/-! ### Agreement with the chain -/

/-- The API key is looked for under the names that `hasInboundCredential` knows. -/
structure DefaultNames (cfg : Config) : Prop where
  header : orDefault cfg.headerName (lit "X-API-Key") = lit "X-API-Key"
  query : orDefault cfg.queryParamName (lit "api_key") = lit "api_key"

/-- The request has an API key or a bearer scheme, but all of them are blank. -/
structure OnlyBlank (r : Wire) : Prop where
  header : trimSpace (r.headerGet (lit "X-API-Key")) = []
  query : trimSpace (r.query.get (lit "api_key")) = []
  bearer : r.bearer = []
  some : r.headerGet (lit "X-API-Key") ≠ [] ∨ r.query.get (lit "api_key") ≠ [] ∨
    hasBearerScheme (r.headerGet (lit "Authorization"))

/-- The predicate and the chain agree on a request, and so does the bypass. -/
structure Agrees [HeaderJSON] (cfg : Config) (r : Wire) : Prop where
  credential : hasInboundCredential r = true ↔
    ∃ a ∈ (build cfg).authenticators, a.passes r = false
  bypass : ∀ pre, identity (build cfg) (some pre) r = .carried pre ↔
    ∀ a ∈ (build cfg).authenticators, a.passes r = true

omit [UnicodeCase] in
/-- The chain sees a credential exactly if one is presented. -/
theorem sees_iff [HeaderJSON] (cfg : Config) (r : Wire) :
    (∃ a ∈ (build cfg).authenticators, a.passes r = false) ↔ cfg.Presented r := by
  rw [build_authenticators, cfg.presented_iff]
  cases cfg.oidc with
  | none => simp [cfg.apiKey_passes, newBearer_passes]
  | some v =>
    simp only [Option.map_some, Option.toList_some, List.singleton_append, List.exists_mem_cons_iff,
      cfg.apiKey_passes, newOIDCBearer_passes, newBearer_passes]
    simp only [List.not_mem_nil, false_and, exists_false, or_false, decide_eq_false_iff_not,
      Bool.not_eq_false', Bool.and_eq_true, decide_eq_true_eq]
    tauto

theorem hasBearerScheme_nil : hasBearerScheme [] = false := by
  rfl

theorem hasInboundCredential_iff (r : Wire) : hasInboundCredential r = true ↔
    r.headerGet (lit "X-API-Key") ≠ [] ∨ r.query.get (lit "api_key") ≠ [] ∨
      hasBearerScheme (r.headerGet (lit "Authorization")) = true := by
  simp only [hasInboundCredential]
  split_ifs with hh hq
  · simp [hh]
  · simp [hq]
  · have hscheme : hasBearerScheme (r.headerGet (lit "Authorization")) = true →
        r.headerGet (lit "Authorization") ≠ [] := by
      intro h hnil
      rw [hnil, hasBearerScheme_nil] at h
      cases h
    simp only [Bool.and_eq_true, decide_eq_true_eq, hh, hq, false_or]
    exact ⟨And.right, fun h => ⟨hscheme h, h⟩⟩

/-- A bearer token stands behind the scheme that `hasInboundCredential` tests. -/
theorem hasBearerScheme_of_extractBearer {a : GoString} (h : extractBearer a ≠ []) :
    hasBearerScheme a = true := by
  unfold extractBearer at h
  split_ifs at h with hnil hlength hfold
  · exact absurd rfl h
  · exact absurd rfl h
  · exact absurd rfl h
  · have hfold : equalFold (a.take "Bearer ".toList.length) "Bearer ".toList = true := by
      simpa using hfold
    -- as a check of the list: there are too many characters to decide it for each
    have hplain : "Bearer ".toList.all (fun t =>
        decide (t.toLower.toNat < 0x80 ∧ t.toLower ≠ 'k' ∧ t.toLower ≠ 's')) = true := by
      decide
    simp only [List.all_eq_true, decide_eq_true_eq] at hplain
    exact decide_eq_true (hasPrefix_toLower_of_equalFold hplain hfold)

theorem hasInboundCredential_of_presented {cfg : Config} (hnames : DefaultNames cfg) {r : Wire}
    (h : cfg.Presented r) : hasInboundCredential r = true := by
  rw [hasInboundCredential_iff]
  unfold Config.Presented at h
  rw [hnames.header, hnames.query] at h
  exact h.imp ne_nil_of_trimSpace
    (Or.imp ne_nil_of_trimSpace hasBearerScheme_of_extractBearer)

theorem onlyBlank_iff {cfg : Config} (hnames : DefaultNames cfg) (r : Wire) :
    OnlyBlank r ↔ hasInboundCredential r = true ∧ ¬ cfg.Presented r := by
  rw [hasInboundCredential_iff]
  unfold Config.Presented
  rw [hnames.header, hnames.query]
  constructor
  · intro h
    exact ⟨h.some, by simp [h.header, h.query, h.bearer]⟩
  · rintro ⟨hsome, hnot⟩
    simp only [not_or, not_not] at hnot
    exact ⟨hnot.1, hnot.2.1, hnot.2.2, hsome⟩

/-- The request is passed on under the identity of its context exactly if the
predicate fails. -/
theorem identity_carried_iff (chain : Chain) (pre : Inbound.Identity) (r : Wire) :
    identity chain (some pre) r = .carried pre ↔ hasInboundCredential r = false := by
  have hchain : ofChain (chain.authenticate r) ≠ .carried pre := by
    cases chain.authenticate r with
    | ok id => simp [ofChain]
    | error e =>
      simp only [ofChain]
      split_ifs <;> simp
  cases h : hasInboundCredential r with
  | false => simp [identity, h]
  | true => simpa [identity, h] using hchain

/-- With the default names, the predicate and the chain agree on a request
unless all its credentials are blank. -/
theorem credential_agrees_iff [HeaderJSON] (cfg : Config) (hnames : DefaultNames cfg) (r : Wire) :
    Agrees cfg r ↔ ¬ OnlyBlank r := by
  rw [onlyBlank_iff hnames]
  constructor
  · rintro ⟨hcredential, -⟩ ⟨hhas, hnot⟩
    rw [sees_iff] at hcredential
    exact hnot (hcredential.mp hhas)
  · intro h
    have hiff : hasInboundCredential r = true ↔
        ∃ a ∈ (build cfg).authenticators, a.passes r = false := by
      rw [sees_iff]
      constructor
      · intro hhas
        by_contra hnot
        exact h ⟨hhas, hnot⟩
      · exact hasInboundCredential_of_presented hnames
    refine ⟨hiff, fun pre => ?_⟩
    rw [identity_carried_iff, ← Bool.not_eq_true, hiff]
    simp

end

/-- A configuration with the default names and nothing else. -/
def plainConfig : Config where
  fileKeys := []
  headerName := lit "X-API-Key"
  queryParamName := lit "api_key"
  db := none
  oidc := none
  tokens := []
  allowAnonymous := false

/-- A request with a key in the header. -/
theorem credential_agrees_key :
    @Agrees asciiCase ⟨fun _ => none⟩ plainConfig
      ⟨[(lit "X-Api-Key", [lit "k"])], []⟩ := by
  refine (@credential_agrees_iff asciiCase ⟨fun _ => none⟩ plainConfig
    ⟨by decide, by decide⟩ _).mpr ?_
  rintro ⟨hheader, -, -, -⟩
  revert hheader
  decide

/-- An operator who types a blank into the key field of Try-It: the predicate sees
a credential, no authenticator does, and the operator is refused. -/
theorem blank_key_disagrees :
    ¬ @Agrees asciiCase ⟨fun _ => none⟩ plainConfig
      ⟨@tryItHeaders asciiCase [(lit "X-API-Key", [lit " "])], []⟩ ∧
    @tryIt asciiCase (@build ⟨fun _ => none⟩ plainConfig) (some { subject := lit "operator" })
        [(lit "X-API-Key", [lit " "])] [] =
      .rejected 401 (some (lit "Bearer realm=\"api-test\"")) (lit "missing credential") := by
  refine ⟨?_, by rfl⟩
  rintro ⟨hcredential, -⟩
  have hhas : @hasInboundCredential asciiCase
      ⟨@tryItHeaders asciiCase [(lit "X-API-Key", [lit " "])], []⟩ = true := by
    decide
  have hpresented := (@sees_iff ⟨fun _ => none⟩ plainConfig _).mp (hcredential.mp hhas)
  unfold Config.Presented at hpresented
  revert hpresented
  decide

end ApiTest.Middleware
