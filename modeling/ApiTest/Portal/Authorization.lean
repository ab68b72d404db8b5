import ApiTest.Endpoints.BigBody
import ApiTest.Net.Redirect
import ApiTest.Portal.Protocol

/-! What the identity provider sees of a login (`browserauth.go`): the query of the
redirect to its authorization endpoint, and the form that the callback posts to its token
endpoint. The two come from different requests and are tied together by the cookie alone;
a provider that compares the challenge of the one with the verifier of the other accepts
the exchange of the login it has authorized. -/

namespace ApiTest.Portal

open Text Audit Net Multimap Protocol

/-- The part of `BrowserAuth` the two requests are made of. -/
structure BrowserAuth where
  clientID : GoString
  clientSecret : GoString
  audience : GoString
  baseURL : GoString
  redirectPath : GoString
  authzURL : GoString

/-- `pkceChallenge`. -/
def pkceChallenge [Endpoints.Export.SHA256] (verifier : GoString) : GoString :=
  Base64.encode (Endpoints.Export.SHA256.sum256 verifier).toList

structure TokenRequest where
  body : GoString
  basicAuth : Option (GoString × GoString)

structure TokenResponse where
  status : ℕ
  body : GoString

namespace BrowserAuth

def redirectURI (b : BrowserAuth) : GoString := b.baseURL ++ b.redirectPath

section
variable [Endpoints.Export.SHA256]

/-- The values `handleLogin` sets. -/
def authorizationQuery (b : BrowserAuth) (draw : Draw) : Values :=
  [(lit "response_type", [lit "code"]), (lit "client_id", [b.clientID]),
    (lit "redirect_uri", [b.redirectURI]), (lit "scope", [lit "openid email profile"]),
    (lit "state", [randomString draw.state]),
    (lit "code_challenge", [pkceChallenge (randomString draw.verifier)]),
    (lit "code_challenge_method", [lit "S256"])] ++
  if b.audience ≠ [] then [(lit "audience", [b.audience])] else []

/-- The target of the redirect. -/
def authorizationURL (b : BrowserAuth) (draw : Draw) : GoString :=
  b.authzURL ++ (if question ∈ b.authzURL then ampersand else question) ::
    encodeQuery (b.authorizationQuery draw)

/-- The `Location` of the answer of `handleLogin`. -/
def loginLocation [HostSyntax] (b : BrowserAuth) (draw : Draw) : GoString :=
  redirectLocation (lit "/portal/auth/login") (b.authorizationURL draw)

/-- What the authorization endpoint reads. -/
def asked [HostSyntax] (b : BrowserAuth) (draw : Draw) : Values :=
  parseQuery (queryOf (b.loginLocation draw))

end

def tokenForm (b : BrowserAuth) (code verifier : GoString) : Values :=
  [(lit "grant_type", [lit "authorization_code"]), (lit "code", [code]),
    (lit "redirect_uri", [b.redirectURI]), (lit "client_id", [b.clientID]),
    (lit "code_verifier", [verifier])]

/-- The request of `exchangeCode`. -/
def tokenRequest (b : BrowserAuth) (code verifier : GoString) : TokenRequest where
  body := encodeQuery (b.tokenForm code verifier)
  basicAuth := if b.clientSecret ≠ [] then some (b.clientID, b.clientSecret) else none

/-- `exchangeCode`, for a client that sends the request and for the `id_token` of a JSON
body; either gives the text of its error. -/
def exchangeCode (b : BrowserAuth) (httpDo : TokenRequest → Except GoString TokenResponse)
    (idToken : GoString → Except GoString GoString) (code verifier : GoString) :
    Except GoString GoString := do
  let resp ← httpDo (b.tokenRequest code verifier)
  let body := resp.body.take (2 ^ 20)
  if resp.status ≠ 200 then
    throw (lit "token endpoint returned " ++ itoa resp.status ++ lit " (body " ++ itoa body.length ++
      lit " bytes)")
  let token ← (idToken body).mapError (lit "decode token response: " ++ ·)
  if token = [] then throw (lit "token response missing id_token")
  return token

/-- What the token endpoint reads. -/
def posted (b : BrowserAuth) (code verifier : GoString) : Values :=
  parseQuery (b.tokenRequest code verifier).body

/-- The pairs of the query that the authorization endpoint has of its own. -/
def ownPairs (b : BrowserAuth) : List (GoString × GoString) :=
  ((hexEscapeNonASCII (cut question b.authzURL).2).splitOn ampersand).filterMap parsePair

end BrowserAuth

/-! ### Reading the requests -/

theorem encodeQuery_ascii (m : Values) : ∀ c ∈ encodeQuery m, c < 0x80 := by
  have hbyte : ∀ c : UInt8, isComponentByte c = true → c < 0x80 := forall_byte (by decide +kernel)
  intro c hc
  obtain rfl | ⟨piece, hpiece, hc⟩ := mem_intercalate hc
  · decide
  · obtain ⟨p, -, rfl⟩ := List.mem_map.mp hpiece
    rw [writePair, List.mem_append, List.mem_cons] at hc
    obtain h | rfl | h := hc
    · exact hbyte c (isComponentByte_of_mem h)
    · decide
    · exact hbyte c (isComponentByte_of_mem h)

theorem hexEscapeNonASCII_of_ascii {s : GoString} (h : ∀ c ∈ s, c < 0x80) : hexEscapeNonASCII s = s := by
  induction s with
  | nil => rfl
  | cons c s ih =>
    rw [List.forall_mem_cons] at h
    rw [hexEscapeNonASCII, List.flatMap_cons, if_pos h.1, List.singleton_append]
    exact congrArg (c :: ·) (ih h.2)

theorem valuesOf_encodedPairs {m : Values} (h : (m.map Prod.fst).Nodup) (k : GoString) :
    valuesOf (encodedPairs m) k = (m.lookup k).getD [] := by
  rw [← lookup_parseQuery_encodeQuery h, parseQuery, pieces_encodeQuery, lookup_ofPairs]

namespace BrowserAuth

section
variable [Endpoints.Export.SHA256] [HostSyntax] {b : BrowserAuth}

omit [HostSyntax] in
theorem nodup_authorizationQuery (b : BrowserAuth) (draw : Draw) :
    ((b.authorizationQuery draw).map Prod.fst).Nodup := by
  unfold authorizationQuery
  split_ifs
  · simp only [List.map_append, List.map_cons, List.map_nil]
    decide +kernel
  · simp only [List.map_append, List.map_cons, List.map_nil]
    decide +kernel

/-- The endpoint reads its own pairs and then those of the login. -/
theorem asked_pairs (hauthz : hash ∉ b.authzURL) (draw : Draw) :
    ((queryOf (b.loginLocation draw)).splitOn ampersand).filterMap parsePair =
      b.ownPairs ++ encodedPairs (b.authorizationQuery draw) := by
  have hwritten := hexEscapeNonASCII_of_ascii (encodeQuery_ascii (b.authorizationQuery draw))
  have hhash : hash ∉ b.authorizationURL draw := by
    intro h
    obtain hb | h := List.mem_append.mp h
    · exact hauthz hb
    · obtain hsep | hq := List.mem_cons.mp h
      · split_ifs at hsep <;> exact absurd hsep (by decide)
      · exact (encodeQuery_bytes _ hash hq).1 rfl
  have hlogin : question ∉ lit "/portal/auth/login" ∧ hash ∉ lit "/portal/auth/login" := by
    decide +kernel
  have hamp : ∀ s, hexEscapeNonASCII (ampersand :: s) = ampersand :: hexEscapeNonASCII s := fun _ => rfl
  rw [loginLocation, queryOf_redirectLocation hlogin hhash, authorizationURL, ownPairs]
  by_cases hmem : question ∈ b.authzURL
  · obtain ⟨base, own, hsplit, hbase⟩ := List.eq_append_cons_of_mem hmem
    rw [if_pos hmem, hsplit, List.append_assoc, List.cons_append, cut_append hbase, cut_append hbase,
      hexEscapeNonASCII_append, hamp, hwritten, List.splitOn_append_cons_self, List.filterMap_append,
      pieces_encodeQuery]
  · rw [if_neg hmem, cut_append hmem, cut_of_notMem hmem, hwritten, pieces_encodeQuery]
    rfl

/-- Under a name that its own query does not have, the authorization endpoint reads what
the login has set. -/
theorem get_asked (hauthz : hash ∉ b.authzURL) {k : GoString} (hown : ∀ p ∈ b.ownPairs, p.1 ≠ k)
    (draw : Draw) : (b.asked draw).get k = (b.authorizationQuery draw).get k := by
  have hnone : valuesOf b.ownPairs k = [] := by
    rw [valuesOf, List.filter_eq_nil_iff.mpr (by simpa using hown), List.map_nil]
  rw [Values.get, asked, parseQuery, lookup_ofPairs, asked_pairs hauthz, valuesOf_append, hnone,
    List.nil_append, valuesOf_encodedPairs (nodup_authorizationQuery b draw), Values.get]

omit [Endpoints.Export.SHA256] [HostSyntax] in
/-- The token endpoint reads what the callback has set. -/
theorem get_posted (b : BrowserAuth) (code verifier k : GoString) :
    (b.posted code verifier).get k = (b.tokenForm code verifier).get k := by
  have hnodup : ((b.tokenForm code verifier).map Prod.fst).Nodup := by
    simp only [tokenForm, List.map_cons, List.map_nil]
    decide +kernel
  rw [Values.get, posted, tokenRequest, lookup_parseQuery_encodeQuery hnodup, Values.get]

omit [Endpoints.Export.SHA256] [HostSyntax] in
/-- A token comes from an answer 200 to the request, and is not empty. -/
theorem exchangeCode_eq_ok {httpDo : TokenRequest → Except GoString TokenResponse}
    {idToken : GoString → Except GoString GoString} {code verifier token : GoString}
    (h : b.exchangeCode httpDo idToken code verifier = .ok token) :
    ∃ resp, httpDo (b.tokenRequest code verifier) = .ok resp ∧ resp.status = 200 ∧
      idToken (resp.body.take (2 ^ 20)) = .ok token ∧ token ≠ [] := by
  unfold exchangeCode at h
  cases hresp : httpDo (b.tokenRequest code verifier) with
  | error e => rw [hresp] at h; cases h
  | ok resp =>
    rw [hresp] at h
    refine ⟨resp, rfl, ?_⟩
    simp only [bind, Except.bind] at h
    generalize resp.body.take (2 ^ 20) = body at h ⊢
    by_cases hstatus : resp.status = 200
    · refine ⟨hstatus, ?_⟩
      rw [if_neg (not_not.mpr hstatus)] at h
      cases htoken : idToken body with
      | error e => rw [htoken] at h; cases h
      | ok found =>
        rw [htoken] at h
        by_cases hnil : found = []
        · rw [hnil] at h
          cases h
        · simp only [Except.mapError, if_neg hnil] at h
          cases h
          exact ⟨rfl, hnil⟩
    · rw [if_pos hstatus] at h
      cases h

/-- The names a provider compares. -/
def authorizationNames : List GoString :=
  [lit "state", lit "code_challenge", lit "code_challenge_method", lit "client_id", lit "redirect_uri"]

/-- A callback that comes to the code exchange with the cookie of a login has the state of
that login in its query, and the two endpoints can tell that the exchange belongs to the
authorization: the challenge is that of the posted verifier, and client and redirect are
the same. A token is taken from an answer 200 to this post only. -/
theorem exchange_bound (b : BrowserAuth) (pkce : SessionStore) [HMAC] [PayloadJSON] (draw : Draw)
    (login query : Values) (cookie : GoString) (now : Time) (used : List (GoString × Time))
    (code verifier returnTo : GoString) (hauthz : hash ∉ b.authzURL)
    (hown : ∀ p ∈ b.ownPairs, p.1 ∉ authorizationNames)
    (hkeeps : KeepsText (randomString draw.state) (randomString draw.verifier)
      (randomString draw.nonce) (sanitizeReturnPath (login.get (lit "return"))))
    (hcookie : handleLogin pkce (randomString draw.state) (randomString draw.verifier)
      (randomString draw.nonce) login = some cookie)
    (h : (handleCallback pkce now (some cookie) query used).1 = .exchange code verifier returnTo) :
    (b.asked draw).get (lit "state") = query.get (lit "state") ∧
      (b.asked draw).get (lit "code_challenge_method") = lit "S256" ∧
      (b.asked draw).get (lit "code_challenge") =
        pkceChallenge ((b.posted code verifier).get (lit "code_verifier")) ∧
      (b.asked draw).get (lit "client_id") = (b.posted code verifier).get (lit "client_id") ∧
      (b.asked draw).get (lit "redirect_uri") = (b.posted code verifier).get (lit "redirect_uri") ∧
      (b.posted code verifier).get (lit "code") = query.get (lit "code") ∧
      ∀ httpDo idToken token, b.exchangeCode httpDo idToken code verifier = .ok token →
        ∃ resp, httpDo (b.tokenRequest code verifier) = .ok resp ∧ resp.status = 200 ∧
          idToken (resp.body.take (2 ^ 20)) = .ok token ∧ token ≠ [] := by
  have hread : ∀ k ∈ authorizationNames, (b.asked draw).get k = (b.authorizationQuery draw).get k :=
    fun k hk => get_asked hauthz (fun p hp hpk => hown p hp (hpk ▸ hk)) draw
  obtain ⟨value, pl, id, hvalue, hdecode, hid, hstate, rfl, rfl⟩ := exchange_cases h
  cases hvalue
  have hpl := decode_handleLogin hkeeps hcookie
  rw [hdecode, Except.ok.injEq] at hpl
  subst hpl
  cases hid
  simp only [mapRunes_randomString] at hstate ⊢
  refine ⟨?_, hread _ (by decide), ?_, ?_, ?_, get_posted b _ _ _, fun _ _ _ => exchangeCode_eq_ok⟩
  · rw [hread _ (by decide)]
    exact hstate.symm
  · rw [hread _ (by decide), get_posted]
    rfl
  · rw [hread _ (by decide), get_posted]
    rfl
  · rw [hread _ (by decide), get_posted]
    rfl

end

/-- A client of an endpoint that has a query of its own. -/
def sampleClient : BrowserAuth where
  clientID := lit "api-test"
  clientSecret := []
  audience := []
  baseURL := lit "https://a.example"
  redirectPath := lit "/portal/auth/callback"
  authzURL := lit "https://idp.example/authorize?tenant=t"

/-- A digest that tells short texts apart. -/
@[reducible] def headSHA256 : Endpoints.Export.SHA256 := ⟨fun s => Vector.ofFn fun i => s.getD i 0⟩

/-- The exchange of a code with the verifier of a login, whose challenge is not that of another. -/
theorem sample_bound :
    let asked := @asked headSHA256 noHosts sampleClient sampleDraw
    let posted := sampleClient.posted (lit "c") (randomString (lit "v"))
    asked.get (lit "state") = randomString (lit "s") ∧
      asked.get (lit "code_challenge") = @pkceChallenge headSHA256 (posted.get (lit "code_verifier")) ∧
      asked.get (lit "code_challenge") ≠ @pkceChallenge headSHA256 (randomString (lit "w")) ∧
      asked.get (lit "redirect_uri") = posted.get (lit "redirect_uri") := by
  intro asked posted
  obtain ⟨cookie, hcookie⟩ : ∃ cookie, @handleLogin unaryHMAC sampleJSON samplePKCE
      (randomString sampleDraw.state) (randomString sampleDraw.verifier)
      (randomString sampleDraw.nonce) [] = some cookie := ⟨_, rfl⟩
  have hkeeps := @Follows.keeps unaryHMAC sampleJSON _ _ _ _ _ _ _ _ _ _ (sample_follows ServeMux.empty)
  obtain ⟨used, returnTo, hcallback⟩ := @handleCallback_of_login unaryHMAC sampleJSON samplePKCE sampleDraw
    [] sampleQuery cookie [] hkeeps hcookie (by decide +kernel) (by simp) rfl (by decide +kernel) 1
  obtain ⟨hstate, -, hchallenge, -, hredirect, -⟩ := @exchange_bound headSHA256 noHosts sampleClient
    samplePKCE unaryHMAC sampleJSON sampleDraw [] sampleQuery cookie 1 [] (lit "c")
    (randomString (lit "v")) returnTo (by decide +kernel) (by decide +kernel) hkeeps hcookie
    (congrArg Prod.fst hcallback)
  refine ⟨hstate, hchallenge, ?_, hredirect⟩
  rw [hchallenge]
  decide +kernel

end BrowserAuth

end ApiTest.Portal
