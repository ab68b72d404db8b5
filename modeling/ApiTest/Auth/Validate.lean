import ApiTest.Inbound.FailClosed

/-! Validation of bearer tokens (`OIDCAuthenticator.ValidateBearer`). Some of the
checks are options of the JWT parser, the audience and the client are checked by
hand. `Parse` applies the options; `ParseUnverified`, which is called when the
signature is not to be verified, only decodes the token and applies none. -/

namespace ApiTest.Auth

open Text Audit

/-! ### The JWT library -/

/-- A decoded token; `kid` is empty if the header has no such string. -/
structure Token where
  alg : GoString
  kid : GoString
  claims : Claims

inductive ParseError where
  | malformed
  | signingMethod
  | keyfunc (message : GoString)
  | signature
  | claims

/-- The parts of the library that read encodings: a token, its signature under a
key, and the two times among the claims. A missing expiry, like one that cannot
be read, is `none`; a `nbf` that cannot be read is `none` and a missing one
`some none`. -/
class JWT (κ : Type) where
  decode : GoString → Option Token
  verifies : GoString → κ → Bool
  expiry : Claims → Option Time
  notBefore : Claims → Option (Option Time)
  message : ParseError → GoString

structure ParserOptions where
  leeway : ℤ
  issuer : GoString
  expirationRequired : Bool
  validMethods : List GoString

section
variable {κ : Type} [JWT κ]

variable (κ) in
/-- The validation of claims. An empty issuer is not checked. -/
def ParserOptions.validates (o : ParserOptions) (now : Time) (claims : Claims) : Bool :=
  let expOK := match JWT.expiry κ claims with
    | some exp => decide (now < exp + o.leeway)
    | none => !o.expirationRequired
  let nbfOK := match JWT.notBefore κ claims with
    | none => false
    | some none => true
    | some (some nbf) => decide (nbf - o.leeway ≤ now)
  expOK && nbfOK && (o.issuer = [] || claims.str (lit "iss") = o.issuer)

variable (κ) in
/-- `Parser.ParseUnverified`. -/
def parseUnverified (raw : GoString) : Except ParseError Token :=
  match JWT.decode κ raw with
  | none => .error .malformed
  | some t => .ok t

/-- `Parser.Parse`. -/
def ParserOptions.parse (o : ParserOptions) (keyfunc : Token → Except GoString κ) (now : Time)
    (raw : GoString) : Except ParseError Token :=
  match JWT.decode κ raw with
  | none => .error .malformed
  | some t =>
    if !o.validMethods.contains t.alg then .error .signingMethod
    else match keyfunc t with
      | .error message => .error (.keyfunc message)
      | .ok key =>
        if !JWT.verifies raw key then .error .signature
        else if !o.validates κ now t.claims then .error .claims
        else .ok t

theorem ParserOptions.parse_eq_ok {o : ParserOptions} {keyfunc : Token → Except GoString κ}
    {now : Time} {raw : GoString} {t : Token} (h : o.parse keyfunc now raw = .ok t) :
    JWT.decode κ raw = some t ∧ o.validates κ now t.claims = true ∧
      ∃ key, keyfunc t = .ok key ∧ JWT.verifies raw key = true := by
  unfold ParserOptions.parse at h
  cases hdecode : JWT.decode κ raw with
  | none => simp [hdecode] at h
  | some t' =>
    cases hkey : keyfunc t' with
    | error message =>
      simp only [hdecode, hkey] at h
      split_ifs at h
    | ok key =>
      simp only [hdecode, hkey] at h
      split_ifs at h with hmethod hverifies hvalidates
      cases h
      exact ⟨rfl, by simpa using hvalidates, key, hkey, by simpa using hverifies⟩

/-! ### The validator -/

structure OIDCConfig where
  issuer : GoString
  audience : GoString := []
  allowedClients : List GoString := []
  clockSkewSeconds : ℤ := 0
  skipSignatureVerification : Bool := false

/-- `OIDCAuthenticator`; `NewOIDC` refuses an empty issuer. -/
structure OIDCAuthenticator where
  cfg : OIDCConfig
  issuerSet : cfg.issuer ≠ []

namespace OIDCAuthenticator

def leeway (v : OIDCAuthenticator) : ℤ := v.cfg.clockSkewSeconds * 1000000000

def rsaMethods : List GoString := [lit "RS256", lit "RS384", lit "RS512"]

def options (v : OIDCAuthenticator) : ParserOptions where
  leeway := v.leeway
  issuer := v.cfg.issuer
  expirationRequired := true
  validMethods := rsaMethods

/-- The key of a token, asked for by its `kid`. -/
def keyfunc (v : OIDCAuthenticator) (publicKey : GoString → Except GoString κ) (t : Token) :
    Except GoString κ :=
  if v.cfg.skipSignatureVerification then
    .error (lit "signature verification skipped; do not call keyfunc")
  else if !rsaMethods.contains t.alg then .error (lit "unexpected signing method: " ++ t.alg)
  else publicKey t.kid

end OIDCAuthenticator

/-- `audienceMatches`. -/
def audienceMatches (aud : Option Value) (want : GoString) : Bool :=
  match aud with
  | some (.string s) => s = want
  | some (.array items) => items.any fun
    | .string s => s = want
    | _ => false
  | _ => false

/-- `clientAllowed`. -/
def clientAllowed (claims : Claims) (allowed : List GoString) : Bool :=
  [lit "azp", lit "client_id", lit "appid"].any fun claim =>
    claims.str claim ≠ [] && allowed.contains (claims.str claim)

/-- The identity that the claims give. -/
def identityOf (claims : Claims) : Identity where
  subject :=
    let sub := claims.str (lit "sub")
    if sub = [] then claims.str (lit "preferred_username") else sub
  email := claims.str (lit "email")
  name := claims.str (lit "name")
  authType := lit "oidc"
  claims := claims

inductive TokenError where
  | empty
  | parse (cause : ParseError)
  | audience (want : GoString)
  | client

namespace OIDCAuthenticator

/-- The two checks made by hand. -/
def audienceOK (v : OIDCAuthenticator) (t : Token) : Bool :=
  v.cfg.audience = [] || audienceMatches (t.claims.lookup (lit "aud")) v.cfg.audience

def clientOK (v : OIDCAuthenticator) (t : Token) : Bool :=
  v.cfg.allowedClients = [] || clientAllowed t.claims v.cfg.allowedClients

def parseToken (v : OIDCAuthenticator) (publicKey : GoString → Except GoString κ) (now : Time)
    (raw : GoString) : Except ParseError Token :=
  if v.cfg.skipSignatureVerification then parseUnverified κ raw
  else v.options.parse (v.keyfunc publicKey) now raw

/-- `ValidateBearer` at a time, with the keys as `publicKey` returns them then. -/
def validateBearer (v : OIDCAuthenticator) (publicKey : GoString → Except GoString κ) (now : Time)
    (raw : GoString) : Except TokenError Identity :=
  if raw = [] then .error .empty
  else match v.parseToken publicKey now raw with
    | .error e => .error (.parse e)
    | .ok t =>
      if !v.audienceOK t then .error (.audience v.cfg.audience)
      else if !v.clientOK t then .error .client
      else .ok (identityOf t.claims)

variable (κ) in
/-- The text of an error. -/
def errorText : TokenError → GoString
  | .empty => lit "empty bearer token"
  | .parse cause => lit "parse jwt: " ++ JWT.message κ cause
  | .audience want => lit "audience mismatch: want \"" ++ want ++ lit "\""
  | .client => lit "client not in allowed_clients"

/-- The validator as the inbound chain uses it. -/
def asInbound (v : OIDCAuthenticator) (publicKey : GoString → Except GoString κ) (now : Time) :
    Inbound.OIDCValidator where
  validateBearer raw := (v.validateBearer publicKey now raw).mapError fun e => ⟨errorText κ e, []⟩
  honest {raw e} h := by
    cases hv : v.validateBearer publicKey now raw with
    | ok id =>
      rw [hv] at h
      cases h
    | error e' =>
      rw [hv] at h
      cases h
      rfl

theorem validateBearer_eq_ok {v : OIDCAuthenticator} {publicKey : GoString → Except GoString κ}
    {now : Time} {raw : GoString} {id : Identity} :
    v.validateBearer publicKey now raw = .ok id ↔
      raw ≠ [] ∧ ∃ t, v.parseToken publicKey now raw = .ok t ∧ v.audienceOK t = true ∧
        v.clientOK t = true ∧ id = identityOf t.claims := by
  unfold validateBearer
  by_cases hraw : raw = []
  · simp [hraw]
  · cases hparse : v.parseToken publicKey now raw with
    | error e => simp [hraw]
    | ok t =>
      cases haud : v.audienceOK t with
      | false => simp [hraw, haud]
      | true =>
        cases hclient : v.clientOK t with
        | false => simp [hraw, haud, hclient]
        | true =>
          simp only [hraw, haud, hclient, Bool.not_true, Bool.false_eq_true, if_false,
            Except.ok.injEq, exists_eq_left', true_and, ne_eq, not_false_eq_true]
          exact eq_comm

/-! ### Soundness -/

variable (κ) in
/-- The expiry is there and is not past by more than the leeway. -/
def Unexpired (v : OIDCAuthenticator) (now : Time) (t : Token) : Prop :=
  ∃ exp, JWT.expiry κ t.claims = some exp ∧ now < exp + v.leeway

/-- What an accepted token has to be. -/
structure Sound (v : OIDCAuthenticator) (publicKey : GoString → Except GoString κ) (now : Time)
    (raw : GoString) (t : Token) : Prop where
  issuer : t.claims.lookup (lit "iss") = some (.string v.cfg.issuer)
  expiry : v.Unexpired κ now t
  audience : v.cfg.audience ≠ [] →
    t.claims.lookup (lit "aud") = some (.string v.cfg.audience) ∨
      ∃ items, t.claims.lookup (lit "aud") = some (.array items) ∧ .string v.cfg.audience ∈ items
  client : v.cfg.allowedClients ≠ [] →
    ∃ claim ∈ [lit "azp", lit "client_id", lit "appid"], ∃ c ∈ v.cfg.allowedClients,
      t.claims.lookup claim = some (.string c)
  signature : v.cfg.skipSignatureVerification = false →
    ∃ key, publicKey t.kid = .ok key ∧ JWT.verifies raw key = true

variable (κ) in
/-- Signatures are skipped, and a token that passes the checks made by hand has
another issuer or no expiry to come. -/
def Unchecked (v : OIDCAuthenticator) (now : Time) (raw : GoString) : Prop :=
  v.cfg.skipSignatureVerification = true ∧ raw ≠ [] ∧
    ∃ t, JWT.decode κ raw = some t ∧ v.audienceOK t = true ∧ v.clientOK t = true ∧
      ¬ (t.claims.lookup (lit "iss") = some (.string v.cfg.issuer) ∧ v.Unexpired κ now t)

end OIDCAuthenticator
end

theorem lookup_of_str {claims : Claims} {key s : GoString} (h : claims.str key = s)
    (hs : s ≠ []) : claims.lookup key = some (.string s) := by
  unfold Claims.str at h
  cases hlookup : claims.lookup key with
  | none =>
    rw [hlookup] at h
    exact absurd h.symm hs
  | some value =>
    rw [hlookup] at h
    cases value with
    | string s' =>
      rw [← h]
      rfl
    | null => exact absurd h.symm hs
    | bool => exact absurd h.symm hs
    | number => exact absurd h.symm hs
    | array => exact absurd h.symm hs
    | object => exact absurd h.symm hs

theorem contains_of_audienceMatches {aud : Option Value} {want : GoString}
    (h : audienceMatches aud want = true) :
    aud = some (.string want) ∨ ∃ items, aud = some (.array items) ∧ .string want ∈ items := by
  unfold audienceMatches at h
  split at h
  · left
    simpa using h
  · right
    rename_i items
    obtain ⟨item, hmem, hitem⟩ := List.any_eq_true.mp h
    cases item with
    | string s =>
      have hs : s = want := by simpa using hitem
      exact ⟨items, rfl, hs ▸ hmem⟩
    | null => cases hitem
    | bool => cases hitem
    | number => cases hitem
    | array => cases hitem
    | object => cases hitem
  · cases h

theorem exists_of_clientAllowed {claims : Claims} {allowed : List GoString}
    (h : clientAllowed claims allowed = true) :
    ∃ claim ∈ [lit "azp", lit "client_id", lit "appid"], ∃ c ∈ allowed,
      claims.lookup claim = some (.string c) := by
  obtain ⟨claim, hclaim, hallowed⟩ := List.any_eq_true.mp h
  rw [Bool.and_eq_true, decide_eq_true_eq, List.contains_iff_mem] at hallowed
  exact ⟨claim, hclaim, _, hallowed.2, lookup_of_str rfl hallowed.1⟩

namespace OIDCAuthenticator
section
variable {κ : Type} [JWT κ] {v : OIDCAuthenticator} {publicKey : GoString → Except GoString κ}
  {now : Time} {raw : GoString} {t : Token}

/-- The options of the parser give the issuer and the expiry. -/
theorem options_validates (h : v.options.validates κ now t.claims = true) :
    t.claims.lookup (lit "iss") = some (.string v.cfg.issuer) ∧ v.Unexpired κ now t := by
  simp only [ParserOptions.validates, Bool.and_eq_true] at h
  obtain ⟨⟨hexp, -⟩, hissuer⟩ := h
  constructor
  · rw [Bool.or_eq_true, decide_eq_true_eq, decide_eq_true_eq] at hissuer
    exact lookup_of_str (hissuer.resolve_left v.issuerSet) v.issuerSet
  · cases hexpiry : JWT.expiry κ t.claims with
    | none => simp [hexpiry, options] at hexp
    | some exp =>
      rw [hexpiry] at hexp
      exact ⟨exp, hexpiry, of_decide_eq_true hexp⟩

theorem sound_of_checks (hissuer : t.claims.lookup (lit "iss") = some (.string v.cfg.issuer))
    (hexpiry : v.Unexpired κ now t) (haud : v.audienceOK t = true) (hclient : v.clientOK t = true)
    (hsignature : v.cfg.skipSignatureVerification = false →
      ∃ key, publicKey t.kid = .ok key ∧ JWT.verifies raw key = true) :
    v.Sound publicKey now raw t where
  issuer := hissuer
  expiry := hexpiry
  audience hset := by
    apply contains_of_audienceMatches
    simpa [audienceOK, hset] using haud
  client hset := by
    apply exists_of_clientAllowed
    simpa [clientOK, hset] using hclient
  signature := hsignature

omit [JWT κ] in
theorem keyfunc_eq_ok {key : κ} (h : v.keyfunc publicKey t = .ok key) :
    publicKey t.kid = .ok key := by
  unfold keyfunc at h
  split_ifs at h
  exact h

theorem decode_of_parseToken (h : v.parseToken publicKey now raw = .ok t) :
    JWT.decode κ raw = some t := by
  unfold parseToken at h
  split_ifs at h
  · unfold parseUnverified at h
    cases hdecode : JWT.decode κ raw with
    | none => simp [hdecode] at h
    | some t' =>
      simp only [hdecode] at h
      cases h
      rfl
  · exact (ParserOptions.parse_eq_ok h).1

/-- With signatures verified, an accepted token is sound. -/
theorem sound_of_parse (hskip : v.cfg.skipSignatureVerification = false)
    (hparse : v.parseToken publicKey now raw = .ok t) (haud : v.audienceOK t = true)
    (hclient : v.clientOK t = true) : v.Sound publicKey now raw t := by
  simp only [parseToken, hskip, Bool.false_eq_true, if_false] at hparse
  obtain ⟨-, hvalidates, key, hkey, hverifies⟩ := ParserOptions.parse_eq_ok hparse
  obtain ⟨hissuer, hexpiry⟩ := options_validates hvalidates
  exact sound_of_checks hissuer hexpiry haud hclient
    fun _ => ⟨key, keyfunc_eq_ok hkey, hverifies⟩

end

/-- Every accepted token is sound, for a configuration, a token and a time, exactly
if the skipped options would not have refused one that is accepted. -/
theorem validateBearer_sound_iff {κ : Type} [JWT κ] (v : OIDCAuthenticator)
    (publicKey : GoString → Except GoString κ) (now : Time) (raw : GoString) :
    (∀ id, v.validateBearer publicKey now raw = .ok id →
      ∃ t, JWT.decode κ raw = some t ∧ id = identityOf t.claims ∧ v.Sound publicKey now raw t) ↔
    ¬ v.Unchecked κ now raw := by
  constructor
  · rintro hsound ⟨hskip, hraw, t, hdecode, haud, hclient, hbad⟩
    have hparse : v.parseToken publicKey now raw = .ok t := by
      simp [parseToken, hskip, parseUnverified, hdecode]
    obtain ⟨t', hdecode', -, ht⟩ :=
      hsound _ (validateBearer_eq_ok.mpr ⟨hraw, t, hparse, haud, hclient, rfl⟩)
    rw [hdecode, Option.some.injEq] at hdecode'
    subst hdecode'
    exact hbad ⟨ht.issuer, ht.expiry⟩
  · intro hchecked id hid
    obtain ⟨hraw, t, hparse, haud, hclient, rfl⟩ := validateBearer_eq_ok.mp hid
    have hdecode := decode_of_parseToken hparse
    refine ⟨t, hdecode, rfl, ?_⟩
    cases hskip : v.cfg.skipSignatureVerification with
    | false => exact sound_of_parse hskip hparse haud hclient
    | true =>
      have hgood : t.claims.lookup (lit "iss") = some (.string v.cfg.issuer) ∧
          v.Unexpired κ now t := by
        by_contra hbad
        exact hchecked ⟨hskip, hraw, t, hdecode, haud, hclient, hbad⟩
      exact sound_of_checks hgood.1 hgood.2 haud hclient (by simp [hskip])

/-- With signatures verified, the identity that the inbound chain takes from the validator is
the one of a sound token. -/
theorem inbound_sound {κ : Type} [JWT κ] [Inbound.HeaderJSON] (v : OIDCAuthenticator)
    (publicKey : GoString → Except GoString κ) (now : Time)
    (hskip : v.cfg.skipSignatureVerification = false) (cfg : Inbound.Config)
    (hoidc : cfg.oidc = some (v.asInbound publicKey now)) (r : Inbound.Wire) (id : Inbound.Identity)
    (h : (Inbound.build cfg).authenticate r = .ok (some id)) (htype : id.authType = lit "oidc") :
    ∃ t, JWT.decode κ r.bearer = some t ∧ id = Inbound.oidcIdentity (identityOf t.claims) ∧
      v.Sound publicKey now r.bearer t := by
  obtain ⟨id', hsome, haccepted⟩ | ⟨hanonymous, -⟩ := Inbound.accepted_of_ok h
  · cases hsome
    cases haccepted with
    | apikey => exact absurd (show lit "apikey" = lit "oidc" from htype) (by decide)
    | bearer => exact absurd (show lit "bearer" = lit "oidc" from htype) (by decide)
    | @oidc validator aid hv hjwt hvalid =>
      cases hoidc.symm.trans hv
      have hbearer : v.validateBearer publicKey now r.bearer = .ok aid := by
        cases hresult : v.validateBearer publicKey now r.bearer with
        | error e => simp [asInbound, hresult, Except.mapError] at hvalid
        | ok aid' => simpa [asInbound, hresult, Except.mapError] using hvalid
      obtain ⟨-, t, hparse, haud, hclient, rfl⟩ := validateBearer_eq_ok.mp hbearer
      exact ⟨t, decode_of_parseToken hparse, rfl, sound_of_parse hskip hparse haud hclient⟩
  · cases hanonymous
    exact absurd htype (by decide)

/-- A token that names its method and its issuer, and no expiry. -/
def foreignToken : GoString := lit "eyJhbGciOiJSUzI1NiJ9.eyJpc3MiOiJodHRwczovL290aGVyIn0.c2ln"

/-- A library that reads this token alone. -/
@[reducible] def foreignTokens : JWT Unit where
  decode raw :=
    if raw = foreignToken then some ⟨lit "RS256", [], [(lit "iss", .string (lit "https://other"))]⟩
    else none
  verifies _ _ := false
  expiry _ := none
  notBefore _ := some none
  message _ := []

/-- With signatures skipped, a token of another issuer without expiry is accepted. -/
theorem foreign_token_accepted :
    let v : OIDCAuthenticator :=
      ⟨{ issuer := lit "https://idp", skipSignatureVerification := true }, by decide⟩
    let publicKey : GoString → Except GoString Unit := fun _ => .error []
    ¬ ∀ id, @validateBearer Unit foreignTokens v publicKey 0 foreignToken = .ok id →
      ∃ t, @JWT.decode Unit foreignTokens foreignToken = some t ∧ id = identityOf t.claims ∧
        @Sound Unit foreignTokens v publicKey 0 foreignToken t := by
  intro v publicKey hsound
  obtain ⟨t, hdecode, -, ht⟩ := hsound (identityOf _) rfl
  cases hdecode
  obtain ⟨exp, hexp, -⟩ := @Sound.expiry Unit foreignTokens _ _ _ _ _ ht
  cases hexp

end OIDCAuthenticator
end ApiTest.Auth
