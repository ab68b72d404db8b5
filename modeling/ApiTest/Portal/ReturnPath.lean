import ApiTest.Net.Redirect
import ApiTest.Portal.BrowserLogin
import ApiTest.Text.Utf8

/-! Where a browser is sent after its login. The login checks the `return`
parameter with a test on its first two bytes and puts it into the cookie; the
callback hands it to `http.Redirect`. Both the cleaning of the path there and the
normalisation in the browser come after the test, and either can make a second
slash of what the test let pass. -/

namespace ApiTest.Portal

open Text Audit Net

/-- What the callback asks of the identity provider: the exchange of a code and
its verifier for a token, and the identity in the token. -/
structure Provider where
  exchangeCode : GoString → GoString → Option GoString
  validateBearer : GoString → Option Auth.Identity

/-- The answer to a callback. An error has its text without that of the wrapped
error; a handler that panics gives no answer. -/
inductive CallbackReply where
  | failed (status : ℕ) (message : GoString)
  | aborted
  | found (session : Cookie) (location : GoString)

section
variable [HMAC] [PayloadJSON] [HostSyntax]

/-- `handleCallback` from the code exchange on. -/
def finishCallback (idp : Provider) (sessions : SessionStore) (now : Time) :
    CallbackStage → CallbackReply
  | .refused message => .failed 400 message
  | .panicked => .aborted
  | .exchange code verifier returnTo =>
    match idp.exchangeCode code verifier with
    | none => .failed 502 (lit "code exchange failed")
    | some idToken =>
      match idp.validateBearer idToken with
      | none => .failed 401 (lit "id_token validation failed")
      | some identity =>
        match sessions.issue now (some identity) with
        | none => .failed 500 (lit "issue session: ")
        | some session =>
          let returnTo := if returnTo = [] then lit "/portal/" else returnTo
          .found session (redirectLocation (lit "/portal/auth/callback") returnTo)

/-- `handleCallback`, and the ledger afterwards. -/
def callback (idp : Provider) (pkce sessions : SessionStore) (now : Time)
    (cookie : Option GoString) (query : Values) (used : List (GoString × Time)) :
    CallbackReply × List (GoString × Time) :=
  let (stage, used) := handleCallback pkce now cookie query used
  (finishCallback idp sessions now stage, used)

omit [HMAC] [HostSyntax] in
/-- JSON gives the payload of a login back, its strings with every byte that is
not UTF-8 replaced. -/
def KeepsText (state verifier nonce returnTo : GoString) : Prop :=
  ∀ body, PayloadJSON.marshal (loginPayload state verifier nonce returnTo) = some body →
    PayloadJSON.unmarshal body = some (loginPayload (mapRunes id state) (mapRunes id verifier)
      (mapRunes id nonce) (mapRunes id returnTo))

/-- The browser that follows a location stays on the origin it came from. -/
def SameOrigin (location : GoString) : Prop := Rooted (browserText location)

instance : DecidablePred SameOrigin := fun _ => inferInstanceAs (Decidable (Rooted _))

omit [HMAC] [PayloadJSON] [HostSyntax] in
/-- What passes the check starts with one slash. -/
theorem sanitizeReturnPath_rooted {p : GoString} (h : sanitizeReturnPath p ≠ []) :
    sanitizeReturnPath p = p ∧ Rooted p := by
  unfold sanitizeReturnPath at h ⊢
  split_ifs at h ⊢ with hnil hslash htwo <;> try exact absurd rfl h
  simp only [hasPrefix, Bool.not_eq_true', decide_eq_false_iff_not, not_not, Bool.or_eq_true,
    decide_eq_true_eq, not_or] at hslash htwo
  obtain ⟨rest, rfl⟩ := hslash
  refine ⟨rfl, rooted_cons ?_⟩
  intro hhead
  obtain ⟨t, rfl⟩ := List.head?_eq_some_iff.mp hhead
  exact htwo.1 ⟨t, rfl⟩

omit [HostSyntax] in
theorem decode_handleLogin {pkce : SessionStore} {state verifier nonce value : GoString}
    {query : Values}
    (hjson : KeepsText state verifier nonce (sanitizeReturnPath (query.get (lit "return"))))
    (h : handleLogin pkce state verifier nonce query = some value) :
    pkce.decode value = .ok (loginPayload (mapRunes id state) (mapRunes id verifier)
      (mapRunes id nonce) (mapRunes id (sanitizeReturnPath (query.get (lit "return"))))) := by
  obtain ⟨body, hbody, rfl⟩ := Option.map_eq_some_iff.mp h
  rw [SessionStore.decode_eq_ok]
  exact ⟨_, _, body, splitDot_append (dot_notMem_encode body) _, Base64.decode_encode _,
    Base64.decode_encode body, hjson body hbody⟩

omit [HostSyntax] in
/-- The code exchange goes on with the return path of the cookie. -/
theorem returnTo_of_exchange {pkce : SessionStore} {now : Time} {value : GoString} {query : Values}
    {used : List (GoString × Time)} {pl : SessionPayload} {id : Auth.Identity}
    (hdecode : pkce.decode value = .ok pl) (hid : pl.identity = some id) {c v r : GoString}
    (h : (handleCallback pkce now (some value) query used).1 = .exchange c v r) :
    r = id.claims.str (lit "return") := by
  simp only [handleCallback, hdecode, hid] at h
  split_ifs at h
  cases h
  rfl

/-- Only the code exchange leads to a redirect. -/
theorem exchange_of_found {idp : Provider} {sessions : SessionStore} {now : Time}
    {stage : CallbackStage} {session : Cookie} {location : GoString}
    (h : finishCallback idp sessions now stage = .found session location) :
    ∃ c v r, stage = .exchange c v r ∧ location = redirectLocation (lit "/portal/auth/callback")
      (if r = [] then lit "/portal/" else r) := by
  cases stage with
  | refused message => cases h
  | panicked => cases h
  | exchange code verifier returnTo =>
    simp only [finishCallback] at h
    split at h
    · cases h
    · split at h
      · cases h
      · split at h
        · cases h
        · cases h
          exact ⟨code, verifier, returnTo, rfl, rfl⟩

/-- The browser is sent to the return path of its login, in the form JSON keeps
it. -/
theorem location_of_callback {idp : Provider} {pkce sessions : SessionStore} {now : Time}
    {value : GoString} {login query : Values} {used : List (GoString × Time)} {session : Cookie}
    {location state verifier nonce : GoString}
    (hjson : KeepsText state verifier nonce (sanitizeReturnPath (login.get (lit "return"))))
    (hlogin : handleLogin pkce state verifier nonce login = some value)
    (h : (callback idp pkce sessions now (some value) query used).1 = .found session location) :
    location = redirectLocation (lit "/portal/auth/callback")
      (if mapRunes id (sanitizeReturnPath (login.get (lit "return"))) = [] then lit "/portal/"
        else mapRunes id (sanitizeReturnPath (login.get (lit "return")))) := by
  obtain ⟨c, v, r, hstage, rfl⟩ := exchange_of_found h
  have hr := returnTo_of_exchange (decode_handleLogin hjson hlogin) rfl hstage
  have hclaim : r = mapRunes id (sanitizeReturnPath (login.get (lit "return"))) := hr
  rw [hclaim]

omit [HMAC] [PayloadJSON] [HostSyntax] in
theorem rooted_mapRunes {p : GoString} (h : Rooted p) : Rooted (mapRunes id p) := by
  obtain ⟨rest, rfl, hrest⟩ := h.eq_cons
  rw [mapRunes_id_cons (by decide)]
  exact rooted_cons (head_mapRunes_id (by decide) hrest)

/-- For every login and every callback with its cookie: the location that is
answered keeps the browser on the same origin if and only if the `return` value
did not pass the check, or the target it is kept as stays. -/
theorem login_sameOrigin_iff (idp : Provider) (pkce sessions : SessionStore)
    (state verifier nonce value : GoString) (login query : Values) (now : Time)
    (used : List (GoString × Time)) (session : Cookie) (location : GoString)
    (hjson : KeepsText state verifier nonce (sanitizeReturnPath (login.get (lit "return"))))
    (hlogin : handleLogin pkce state verifier nonce login = some value)
    (h : (callback idp pkce sessions now (some value) query used).1 = .found session location) :
    SameOrigin location ↔ sanitizeReturnPath (login.get (lit "return")) = [] ∨
      targetStays (mapRunes id (login.get (lit "return"))) = true := by
  rw [location_of_callback hjson hlogin h]
  by_cases hrefused : sanitizeReturnPath (login.get (lit "return")) = []
  · rw [hrefused, if_pos (show mapRunes id [] = [] from rfl)]
    have hportal : Rooted (lit "/portal/") := by decide
    simp only [true_or, iff_true, SameOrigin]
    rw [rooted_browserText_redirectLocation _ hportal, targetStays]
    split_ifs <;> decide
  · obtain ⟨hself, hrooted⟩ := sanitizeReturnPath_rooted hrefused
    have hkept := rooted_mapRunes hrooted
    have hne : mapRunes id (login.get (lit "return")) ≠ [] := by
      intro hnil
      rw [hnil] at hkept
      exact absurd hkept (by decide)
    rw [hself, if_neg hne]
    have hnil : login.get (lit "return") ≠ [] := hself ▸ hrefused
    simp only [hnil, false_or]
    exact rooted_browserText_redirectLocation _ hkept

end

/-! ### One login -/

/-- JSON of the payload of one login. -/
@[reducible] def loginJSON (returnTo : GoString) : PayloadJSON where
  marshal _ := some (lit "p")
  unmarshal _ := some (loginPayload (lit "s") (lit "v") (lit "n") returnTo)

/-- A provider that accepts every code. -/
def trusting : Provider := ⟨fun _ _ => some (lit "t"), fun _ => some { subject := lit "alice" }⟩

/-- The location after a login with the given `return` value, if it comes to
that. -/
def locationAfter (returnTo : GoString) : Option GoString :=
  let login : Values := [(lit "return", [returnTo])]
  let json := loginJSON (sanitizeReturnPath returnTo)
  (@handleLogin unaryHMAC json loginStore (lit "s") (lit "v") (lit "n") login).bind fun value =>
    match (@callback unaryHMAC json noHosts trusting loginStore loginStore 0 (some value)
      loginQuery []).1 with
    | .found _ location => some location
    | _ => none

theorem callback_of_locationAfter {returnTo location : GoString}
    (h : locationAfter returnTo = some location) :
    ∃ value session,
      @handleLogin unaryHMAC (loginJSON (sanitizeReturnPath returnTo)) loginStore (lit "s") (lit "v")
        (lit "n") [(lit "return", [returnTo])] = some value ∧
      (@callback unaryHMAC (loginJSON (sanitizeReturnPath returnTo)) noHosts trusting loginStore
        loginStore 0 (some value) loginQuery []).1 = .found session location := by
  simp only [locationAfter, Option.bind_eq_some_iff] at h
  obtain ⟨value, hvalue, hreply⟩ := h
  refine ⟨value, ?_⟩
  split at hreply
  next session location' hfound =>
    cases hreply
    exact ⟨session, hvalue, hfound⟩
  next => cases hreply

/-- A path of the portal is where the browser is sent. -/
theorem return_stays_on_portal :
    locationAfter (lit "/portal/audit?limit=5") = some (lit "/portal/audit?limit=5") ∧
    SameOrigin (lit "/portal/audit?limit=5") := by
  have hlocation : locationAfter (lit "/portal/audit?limit=5") =
      some (lit "/portal/audit?limit=5") := by decide +kernel
  obtain ⟨value, session, hlogin, hfound⟩ := callback_of_locationAfter hlocation
  refine ⟨hlocation, (@login_sameOrigin_iff unaryHMAC
    (loginJSON (sanitizeReturnPath (lit "/portal/audit?limit=5"))) noHosts trusting loginStore
    loginStore (lit "s") (lit "v") (lit "n") value _ loginQuery 0 [] session _ ?_ hlogin
    hfound).mpr (Or.inr ?_)⟩
  · intro body _
    have htext : [lit "s", lit "v", lit "n",
        sanitizeReturnPath (lit "/portal/audit?limit=5")].map (mapRunes id) =
          [lit "s", lit "v", lit "n", sanitizeReturnPath (lit "/portal/audit?limit=5")] := by
      decide +kernel
    simp only [List.map_cons, List.map_nil, List.cons.injEq] at htext
    obtain ⟨hs, hv, hn, hp, -⟩ := htext
    show some _ = some (loginPayload _ _ _ (mapRunes id (sanitizeReturnPath
      (lit "/portal/audit?limit=5"))))
    rw [hs, hv, hn, hp]
  · decide +kernel

/-- A tab passes the check and is dropped by the browser; a backslash passes it
behind a part that cleaning removes. -/
theorem return_leaves_origin :
    locationAfter (lit "/\t/evil.example") = some (lit "/\t/evil.example") ∧
    ¬ SameOrigin (lit "/\t/evil.example") ∧
    locationAfter (lit "/x/../\\evil.example") = some (lit "/\\evil.example") ∧
    ¬ SameOrigin (lit "/\\evil.example") := by
  refine ⟨?_, ?_, ?_, ?_⟩ <;> decide +kernel

end ApiTest.Portal
