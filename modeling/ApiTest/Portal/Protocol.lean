import ApiTest.Portal.Access
import ApiTest.Portal.ReturnPath

/-! The browser login from its first request to the handlers of the portal, as a
protocol between the server, an identity provider and browsers that send any cookies
they like. The server keeps no sessions: what it knows of a login comes back to it in a
cookie, so that everything rests on the signatures. A signature is taken to be out of
reach for anyone without its key: whoever presents one has it from the server. -/

namespace ApiTest.Portal.Protocol

open Text Audit Net Transition

/-! ### The requests -/

/-- `randomString`, for the bytes it draws. -/
def randomString (buf : GoString) : GoString := Base64.encode buf

/-- What `handleLogin` draws: a state, a verifier and a nonce. -/
structure Draw where
  state : GoString
  verifier : GoString
  nonce : GoString

/-- The portal as `buildPortal` wires it: the login store has the key derived from the
one of the session store. -/
structure Deployment [HMAC] where
  sessions : SessionStore
  pkce : SessionStore
  secure : Bool
  derived : newPKCEStore sessions.secret secure = .ok pkce
  chain : Option Inbound.Chain
  mux : ServeMux (Option PortalRoute)

/-- A request to a handler of `BrowserAuth`, at a time. A callback that comes to the code
exchange waits for the provider; the handler goes on with what it answers. -/
inductive Event where
  | login (now : Time) (draw : Draw) (query : Values)
  | callback (now : Time) (cookie : Option GoString) (query : Values)
  | answered (now : Time) (i : ℕ) (idp : Provider)
  | logout (now : Time)

/-- The server between the steps of its handlers: the ledger of nonces and the callbacks
that wait for the provider. For the properties there are the time of the last step and
the bodies that have been signed, under their keys. -/
structure State where
  clock : Time
  usedNonces : List (GoString × Time) := []
  waiting : List (Option CallbackStage) := []
  signed : List (GoString × GoString) := []

section
variable [HMAC] [PayloadJSON] [HostSyntax]

omit [HMAC] [PayloadJSON] [HostSyntax] in
/-- The payload of the cookie of a login. -/
def Draw.payload (d : Draw) (query : Values) : SessionPayload :=
  loginPayload (randomString d.state) (randomString d.verifier) (randomString d.nonce)
    (sanitizeReturnPath (query.get (lit "return")))

omit [HMAC] [PayloadJSON] [HostSyntax] in
/-- The part of a cookie value in front of its signature. -/
def bodyOf (value : GoString) : GoString := ((splitDot value).map Prod.fst).getD []

omit [HMAC] [PayloadJSON] [HostSyntax] in
/-- A cookie value was made under a key. -/
def State.sign (s : State) (key : GoString) (value : Option GoString) : State :=
  { s with signed := s.signed ++ (value.map fun v => (key, bodyOf v)).toList }

omit [HMAC] [PayloadJSON] [HostSyntax] in
/-- The session cookie a callback sets. -/
def sessionValue : CallbackReply → Option GoString
  | .found session _ => some session.value
  | _ => none

omit [HMAC] [PayloadJSON] [HostSyntax] in
/-- The callback waits for the provider, or is done with an error. -/
def CallbackStage.waits : CallbackStage → Option CallbackStage
  | .exchange code verifier returnTo => some (.exchange code verifier returnTo)
  | _ => none

/-- One step of a handler; times do not decrease. `handleLogout` only has the browser drop
its cookie. -/
def step (d : Deployment) (s : State) : Event → Option State
  | .login now draw query =>
    if now < s.clock then none
    else some (State.sign { s with clock := now } d.pkce.secret
      (handleLogin d.pkce (randomString draw.state) (randomString draw.verifier)
        (randomString draw.nonce) query))
  | .callback now cookie query =>
    if now < s.clock then none
    else
      let (stage, used) := handleCallback d.pkce now cookie query s.usedNonces
      some { s with clock := now, usedNonces := used, waiting := s.waiting ++ [CallbackStage.waits stage] }
  | .answered now i idp =>
    if now < s.clock then none
    else match s.waiting[i]? with
      | some (some stage) =>
        some (State.sign { s with clock := now, waiting := s.waiting.set i none } d.sessions.secret
          (sessionValue (finishCallback idp d.sessions now stage)))
      | _ => none
  | .logout now => if now < s.clock then none else some { s with clock := now }

omit [PayloadJSON] [HostSyntax] in
def Deployment.portal (d : Deployment) : PortalAuth := ⟨some d.sessions, d.chain⟩

/-! ### The assumptions -/

omit [PayloadJSON] [HostSyntax] in
/-- If the value bears a signature under the key, then one the server has made. -/
def Unforged (s : State) (key value : GoString) : Prop :=
  ∀ body sig, splitDot value = some (body, sig) → Base64.decode sig = some (HMAC.sum key body) →
    (key, body) ∈ s.signed

omit [HMAC] [HostSyntax] in
/-- JSON gives the payload back. -/
def Keeps (pl : SessionPayload) : Prop :=
  ∀ body, PayloadJSON.marshal pl = some body → PayloadJSON.unmarshal body = some pl

omit [HostSyntax] in
/-- No cookie is forged, and JSON keeps the texts the cookies carry. -/
def Honest (d : Deployment) (s : State) : Event → Prop
  | .login _ draw query => KeepsText (randomString draw.state) (randomString draw.verifier)
      (randomString draw.nonce) (sanitizeReturnPath (query.get (lit "return")))
  | .callback _ cookie _ => ∀ value, cookie = some value → Unforged s d.pkce.secret value
  | .answered now _ idp =>
    ∀ token id, idp.validateBearer token = some id → Keeps ⟨some id, now + d.sessions.maxAge⟩
  | .logout _ => True

/-! ### Where a session comes from -/

omit [HMAC] [PayloadJSON] [HostSyntax] in
/-- A login, a later callback with its state, and at last, at the given time, a provider
that takes the code of the callback and the verifier of the login for a token of the
identity. -/
def LoggedIn (events : List Event) (id : Auth.Identity) (time : Time) : Prop :=
  ∃ began draw landing called cookie query i idp token,
    [.login began draw landing, .callback called cookie query, .answered time i idp].Sublist events ∧
    began ≤ called ∧ called ≤ time ∧ query.get (lit "state") = randomString draw.state ∧
    idp.exchangeCode (query.get (lit "code")) (randomString draw.verifier) = some token ∧
    idp.validateBearer token = some id

omit [HMAC] [PayloadJSON] [HostSyntax] in
/-- A callback that waits has the state and the verifier of an earlier login. -/
def Began (events : List Event) (code verifier : GoString) (time : Time) : Prop :=
  ∃ began draw landing called cookie query,
    [.login began draw landing, .callback called cookie query].Sublist events ∧
    began ≤ called ∧ called ≤ time ∧ query.get (lit "state") = randomString draw.state ∧
    code = query.get (lit "code") ∧ verifier = randomString draw.verifier

omit [HostSyntax] in
/-- What a signed body is: the payload of a login under the one key, that of a session of
somebody who has logged in under the other. -/
inductive Signed (d : Deployment) (events : List Event) (clock : Time) : GoString × GoString → Prop
  | login {began : Time} {draw : Draw} {query : Values} {body : GoString}
      (hlogin : .login began draw query ∈ events) (hbegan : began ≤ clock)
      (hkeeps : KeepsText (randomString draw.state) (randomString draw.verifier)
        (randomString draw.nonce) (sanitizeReturnPath (query.get (lit "return"))))
      (hbody : PayloadJSON.marshal (draw.payload query) = some body) :
      Signed d events clock (d.pkce.secret, Base64.encode body)
  | session {id : Auth.Identity} {time : Time} {body : GoString}
      (hid : LoggedIn events id time) (htime : time ≤ clock)
      (hkeeps : Keeps ⟨some id, time + d.sessions.maxAge⟩)
      (hbody : PayloadJSON.marshal ⟨some id, time + d.sessions.maxAge⟩ = some body) :
      Signed d events clock (d.sessions.secret, Base64.encode body)

omit [HostSyntax] in
/-- What holds after the events of a run. -/
structure Inv (d : Deployment) (events : List Event) (s : State) : Prop where
  signed : ∀ p ∈ s.signed, Signed d events s.clock p
  waiting : ∀ code verifier returnTo, some (.exchange code verifier returnTo) ∈ s.waiting →
    Began events code verifier s.clock

omit [HMAC] [PayloadJSON] [HostSyntax] in
theorem LoggedIn.snoc {events : List Event} {id : Auth.Identity} {time : Time}
    (h : LoggedIn events id time) (e : Event) : LoggedIn (events ++ [e]) id time := by
  obtain ⟨began, draw, ret, called, cookie, query, i, idp, token, hsub, hrest⟩ := h
  exact ⟨began, draw, ret, called, cookie, query, i, idp, token,
    hsub.trans (List.sublist_append_left _ _), hrest⟩

omit [HMAC] [PayloadJSON] [HostSyntax] in
theorem Began.snoc {events : List Event} {code verifier : GoString} {time time' : Time}
    (h : Began events code verifier time) (e : Event) (hle : time ≤ time') :
    Began (events ++ [e]) code verifier time' := by
  obtain ⟨began, draw, ret, called, cookie, query, hsub, hbegan, hcalled, hrest⟩ := h
  exact ⟨began, draw, ret, called, cookie, query, hsub.trans (List.sublist_append_left _ _), hbegan,
    Int.le_trans hcalled hle, hrest⟩

omit [HostSyntax] in
theorem Signed.snoc {d : Deployment} {events : List Event} {clock clock' : Time}
    {p : GoString × GoString} (h : Signed d events clock p) (e : Event) (hle : clock ≤ clock') :
    Signed d (events ++ [e]) clock' p := by
  cases h with
  | login hlogin hbegan hkeeps hbody =>
    exact .login (List.mem_append_left _ hlogin) (Int.le_trans hbegan hle) hkeeps hbody
  | session hid htime hkeeps hbody => exact .session (hid.snoc e) (Int.le_trans htime hle) hkeeps hbody

omit [HostSyntax] in
/-- The events go on and the state keeps its callbacks and signatures. -/
theorem Inv.snoc {d : Deployment} {events : List Event} {s t : State} (h : Inv d events s) (e : Event)
    (hle : s.clock ≤ t.clock) (hsigned : t.signed = s.signed)
    (hwaiting : ∀ stage, some stage ∈ t.waiting → some stage ∈ s.waiting) :
    Inv d (events ++ [e]) t where
  signed p hp := (h.signed p (hsigned ▸ hp)).snoc e hle
  waiting code verifier returnTo hmem :=
    (h.waiting code verifier returnTo (hwaiting _ hmem)).snoc e hle

omit [PayloadJSON] [HostSyntax] in
theorem bodyOf_encode [PayloadJSON] {store : SessionStore} {pl : SessionPayload} {value : GoString}
    (h : store.encode pl = some value) :
    ∃ body, PayloadJSON.marshal pl = some body ∧ bodyOf value = Base64.encode body := by
  obtain ⟨body, hbody, rfl⟩ := Option.map_eq_some_iff.mp h
  refine ⟨body, hbody, ?_⟩
  rw [bodyOf, splitDot_append (dot_notMem_encode body)]
  rfl

omit [HMAC] [PayloadJSON] [HostSyntax] in
theorem mapRunes_randomString (buf : GoString) : mapRunes id (randomString buf) = randomString buf := by
  have halphabet : ∀ c ∈ Base64.alphabet, c.toNat < 0x80 := by decide +kernel
  exact mapRunes_id_ascii fun c hc => halphabet c (Base64.mem_alphabet_of_mem_encode hc)

omit [HostSyntax] in
/-- What a callback that comes to the exchange has read from its cookie and its query. -/
theorem exchange_cases {pkce : SessionStore} {now : Time} {cookie : Option GoString} {query : Values}
    {used : List (GoString × Time)} {c v r : GoString}
    (h : (handleCallback pkce now cookie query used).1 = .exchange c v r) :
    ∃ value pl id, cookie = some value ∧ pkce.decode value = .ok pl ∧ pl.identity = some id ∧
      query.get (lit "state") = id.claims.str (lit "state") ∧ c = query.get (lit "code") ∧
      v = id.claims.str (lit "verifier") := by
  cases cookie with
  | none => cases h
  | some value =>
    cases hdecode : pkce.decode value with
    | error e => simp [handleCallback, hdecode] at h
    | ok pl =>
      cases hid : pl.identity with
      | none => simp [handleCallback, hdecode, hid] at h
      | some id =>
        simp only [handleCallback, hdecode, hid] at h
        split_ifs at h with hstate
        cases h
        exact ⟨value, pl, id, rfl, hdecode, hid, not_not.mp (not_or.mp hstate).1, rfl, rfl⟩

omit [HostSyntax] in
/-- A cookie the server takes for a login is the one of a login. -/
theorem login_of_decode {d : Deployment} (hkeys : d.pkce.secret ≠ d.sessions.secret)
    {events : List Event} {s : State} (hs : Inv d events s) {value : GoString} {pl : SessionPayload}
    (hunforged : Unforged s d.pkce.secret value) (h : d.pkce.decode value = .ok pl) :
    ∃ began draw query, .login began draw query ∈ events ∧ began ≤ s.clock ∧
      pl = loginPayload (randomString draw.state) (randomString draw.verifier)
        (randomString draw.nonce) (mapRunes id (sanitizeReturnPath (query.get (lit "return")))) := by
  obtain ⟨body, sig, raw, hsplit, hsig, hraw, hpl⟩ := SessionStore.decode_eq_ok.mp h
  have hsigned := hs.signed _ (hunforged body sig hsplit hsig)
  generalize hp : (d.pkce.secret, body) = p at hsigned
  cases hsigned with
  | @login began draw query marshalled hlogin hbegan hkeeps hbody =>
    cases hp
    rw [Base64.decode_encode, Option.some_inj] at hraw
    subst hraw
    have hread := hkeeps _ hbody
    rw [hpl, Option.some_inj] at hread
    simp only [mapRunes_randomString] at hread
    exact ⟨began, draw, query, hlogin, hbegan, hread⟩
  | session => exact absurd (congrArg Prod.fst hp) hkeys

omit [HostSyntax] in
/-- A cookie the server takes for a session is the one of somebody who has logged in. -/
theorem session_of_decode {d : Deployment} (hkeys : d.pkce.secret ≠ d.sessions.secret)
    {events : List Event} {s : State} (hs : Inv d events s) {value : GoString} {pl : SessionPayload}
    (hunforged : Unforged s d.sessions.secret value) (h : d.sessions.decode value = .ok pl) :
    ∃ id time, LoggedIn events id time ∧ time ≤ s.clock ∧
      pl = ⟨some id, time + d.sessions.maxAge⟩ := by
  obtain ⟨body, sig, raw, hsplit, hsig, hraw, hpl⟩ := SessionStore.decode_eq_ok.mp h
  have hsigned := hs.signed _ (hunforged body sig hsplit hsig)
  generalize hp : (d.sessions.secret, body) = p at hsigned
  cases hsigned with
  | login => exact absurd (congrArg Prod.fst hp).symm hkeys
  | @session id time marshalled hid htime hkeeps hbody =>
    cases hp
    rw [Base64.decode_encode, Option.some_inj] at hraw
    subst hraw
    have hread := hkeeps _ hbody
    rw [hpl, Option.some_inj] at hread
    exact ⟨id, time, hid, htime, hread⟩

/-- A redirect with a session comes of a token of the provider. -/
theorem token_of_session {idp : Provider} {sessions : SessionStore} {now : Time}
    {stage : CallbackStage} {value : GoString}
    (h : sessionValue (finishCallback idp sessions now stage) = some value) :
    ∃ code verifier returnTo token id, stage = .exchange code verifier returnTo ∧
      idp.exchangeCode code verifier = some token ∧ idp.validateBearer token = some id ∧
      sessions.encode ⟨some id, now + sessions.maxAge⟩ = some value := by
  cases stage with
  | refused message => cases h
  | panicked => cases h
  | exchange code verifier returnTo =>
    cases htoken : idp.exchangeCode code verifier with
    | none => simp [finishCallback, htoken, sessionValue] at h
    | some token =>
      cases hid : idp.validateBearer token with
      | none => simp [finishCallback, htoken, hid, sessionValue] at h
      | some id =>
        simp only [finishCallback, htoken, hid] at h
        cases hissue : sessions.issue now (some id) with
        | none => simp [hissue, sessionValue] at h
        | some session =>
          obtain ⟨v, hv, rfl⟩ := Option.map_eq_some_iff.mp hissue
          simp only [hissue, sessionValue, Option.some_inj] at h
          exact ⟨code, verifier, returnTo, token, id, rfl, htoken, hid, h ▸ hv⟩

theorem step_login {d : Deployment} {events : List Event} {s t : State} (hs : Inv d events s)
    {now : Time} {draw : Draw} {query : Values} (hhonest : Honest d s (.login now draw query))
    (h : step d s (.login now draw query) = some t) : Inv d (events ++ [.login now draw query]) t := by
  simp only [step] at h
  split_ifs at h with hclock
  cases h
  have hle : s.clock ≤ now := Int.not_lt.mp hclock
  refine ⟨fun p hp => ?_, fun c v r hmem => (hs.waiting c v r hmem).snoc _ hle⟩
  rcases List.mem_append.mp hp with hold | hnew
  · exact (hs.signed p hold).snoc _ hle
  · cases hvalue : handleLogin d.pkce (randomString draw.state) (randomString draw.verifier)
      (randomString draw.nonce) query with
    | none => simp [hvalue] at hnew
    | some value =>
      obtain ⟨body, hbody, hof⟩ := bodyOf_encode hvalue
      simp only [hvalue, Option.map_some, Option.toList_some, List.mem_singleton, hof] at hnew
      subst hnew
      exact .login (List.mem_append_right _ (List.mem_singleton_self _)) (Int.le_refl now) hhonest hbody

theorem step_callback {d : Deployment} (hkeys : d.pkce.secret ≠ d.sessions.secret)
    {events : List Event} {s t : State} (hs : Inv d events s) {now : Time} {cookie : Option GoString}
    {query : Values} (hhonest : Honest d s (.callback now cookie query))
    (h : step d s (.callback now cookie query) = some t) :
    Inv d (events ++ [.callback now cookie query]) t := by
  simp only [step] at h
  split_ifs at h with hclock
  cases h
  have hle : s.clock ≤ now := Int.not_lt.mp hclock
  refine ⟨fun p hp => (hs.signed p hp).snoc _ hle, fun c v r hmem => ?_⟩
  rcases List.mem_append.mp hmem with hold | hnew
  · exact (hs.waiting c v r hold).snoc _ hle
  · have hstage : (handleCallback d.pkce now cookie query s.usedNonces).1 = .exchange c v r := by
      rw [List.mem_singleton] at hnew
      cases hcase : (handleCallback d.pkce now cookie query s.usedNonces).1 with
      | exchange code verifier returnTo =>
        rw [hcase] at hnew
        exact (Option.some_inj.mp hnew).symm
      | refused message => rw [hcase] at hnew; cases hnew
      | panicked => rw [hcase] at hnew; cases hnew
    obtain ⟨value, pl, id, rfl, hdecode, hid, hstate, rfl, rfl⟩ := exchange_cases hstage
    obtain ⟨began, draw, ret, hlogin, hbegan, rfl⟩ :=
      login_of_decode hkeys hs (hhonest value rfl) hdecode
    cases hid
    exact ⟨began, draw, ret, now, some value, query,
      (List.singleton_sublist.mpr hlogin).append (List.Sublist.refl _),
      Int.le_trans hbegan hle, Int.le_refl now, hstate, rfl, rfl⟩

theorem step_answered {d : Deployment} {events : List Event} {s t : State} (hs : Inv d events s)
    {now : Time} {i : ℕ} {idp : Provider} (hhonest : Honest d s (.answered now i idp))
    (h : step d s (.answered now i idp) = some t) : Inv d (events ++ [.answered now i idp]) t := by
  simp only [step] at h
  split_ifs at h with hclock
  have hle : s.clock ≤ now := Int.not_lt.mp hclock
  split at h
  next stage hstage =>
    cases h
    refine ⟨fun p hp => ?_, fun c v r hmem => ?_⟩
    · rcases List.mem_append.mp hp with hold | hnew
      · exact (hs.signed p hold).snoc _ hle
      · cases hvalue : sessionValue (finishCallback idp d.sessions now stage) with
        | none => simp [hvalue] at hnew
        | some value =>
          obtain ⟨code, verifier, returnTo, token, id, rfl, htoken, hid, hencode⟩ :=
            token_of_session hvalue
          obtain ⟨body, hbody, hof⟩ := bodyOf_encode hencode
          simp only [hvalue, Option.map_some, Option.toList_some, List.mem_singleton, hof] at hnew
          subst hnew
          obtain ⟨began, draw, ret, called, cookie, query, hsub, hbegan, hcalled, hstate, rfl, rfl⟩ :=
            hs.waiting code verifier returnTo (List.mem_of_getElem? hstage)
          exact .session ⟨began, draw, ret, called, cookie, query, i, idp, token,
            hsub.append (List.Sublist.refl _), hbegan, Int.le_trans hcalled hle, hstate, htoken, hid⟩
            (Int.le_refl now) (hhonest token id hid) hbody
    · obtain hnone | hold := List.mem_or_eq_of_mem_set hmem
      · exact (hs.waiting c v r hnone).snoc _ hle
      · cases hold
  next => cases h

theorem step_inv {d : Deployment} (hkeys : d.pkce.secret ≠ d.sessions.secret) {events : List Event}
    {s t : State} {e : Event} (hs : Inv d events s) (hhonest : Honest d s e) (h : step d s e = some t) :
    Inv d (events ++ [e]) t := by
  cases e with
  | login now draw query => exact step_login hs hhonest h
  | callback now cookie query => exact step_callback hkeys hs hhonest h
  | answered now i idp => exact step_answered hs hhonest h
  | logout now =>
    simp only [step] at h
    split_ifs at h with hclock
    cases h
    exact hs.snoc _ (Int.not_lt.mp hclock) rfl fun _ => id

variable [UnicodeCase]

/-- However logins, callbacks and the answers of the provider interleave, a handler of the
portal runs for an identity that the inbound chain accepted, or for one that has logged
in: the request comes within the lifetime of a session that began when the provider took
a code and the verifier of an earlier login for a token of that identity. -/
theorem session_authentic (d : Deployment)
    (hkeys : derivePKCESecret d.sessions.secret ≠ d.sessions.secret) (start : Time)
    (events : List Event) (s : State) (h : run (step d) ⟨start, [], [], []⟩ events = some s)
    (hhonest : Meets (step d) (Honest d) ⟨start, [], [], []⟩ events) (now : Time)
    (hnow : s.clock ≤ now) (r : PortalRequest)
    (hcookie : ∀ value, r.cookies.lookup d.sessions.cookieName = some value →
      Unforged s d.sessions.secret value)
    (handler : PortalHandler) (context : Option Auth.Identity)
    (hran : d.portal.serve d.mux now r = .ran handler context) :
    ∃ id, context = some id ∧
      ((∃ time, LoggedIn events id time ∧ time ≤ now ∧ now ≤ time + d.sessions.maxAge) ∨
        ∃ chain key, d.chain = some chain ∧ chain.authenticate r.wire = .ok (some key) ∧
          key.authType ≠ lit "anonymous" ∧ id = adaptInboundIdentity key) := by
  have hsecrets : d.pkce.secret ≠ d.sessions.secret := by rwa [newPKCEStore_secret d.derived]
  have hinv : Inv d events s := run_history_of_meets (Inv d) ⟨by simp, by simp⟩
    (fun _ _ _ _ _ hg hP hstep => step_inv hsecrets hP hg hstep) h hhonest
  have hadmitted : ∃ id, context = some id ∧ Admitted d.portal now r id := by
    simp only [PortalAuth.serve] at hran
    split at hran
    next route hroute => exact (PortalAuth.mounted_ran hran).2.1
    next => cases hran
    next => cases hran
  obtain ⟨id, rfl, hadmit⟩ := hadmitted
  refine ⟨id, rfl, ?_⟩
  cases hadmit with
  | session hs hlookup hsplit hsig hpayload hexpires hid =>
    cases hs
    obtain ⟨id', time, hlogged, htime, rfl⟩ :=
      session_of_decode hsecrets hinv (hcookie _ hlookup) hpayload
    cases hid
    exact .inl ⟨time, hlogged, Int.le_trans htime hnow, hexpires⟩
  | inbound hchain hresult htype => exact .inr ⟨_, _, hchain, hresult, htype, rfl⟩

/-! ### A login that comes to its end -/

omit [PayloadJSON] [HostSyntax] [UnicodeCase] in
/-- Nobody has to forge the cookie that was made last. -/
theorem unforged_sign (s : State) (key value : GoString) : Unforged (s.sign key (some value)) key value := by
  intro body sig hsplit _
  simp [State.sign, bodyOf, hsplit]

omit [HMAC] [PayloadJSON] [HostSyntax] [UnicodeCase] in
theorem randomString_ne_nil {buf : GoString} (h : buf ≠ []) : randomString buf ≠ [] := by
  intro hnil
  have hlength := Base64.length_encode buf
  rw [show Base64.encode buf = [] from hnil, List.length_nil] at hlength
  have hpos := List.length_pos_iff.mpr h
  omega

omit [HostSyntax] [UnicodeCase] in
/-- A callback with the cookie of a login and its state comes to the code exchange. -/
theorem handleCallback_of_login {pkce : SessionStore} {draw : Draw} {login query : Values}
    {cookie : GoString} {used : List (GoString × Time)}
    (hkeeps : KeepsText (randomString draw.state) (randomString draw.verifier)
      (randomString draw.nonce) (sanitizeReturnPath (login.get (lit "return"))))
    (hcookie : handleLogin pkce (randomString draw.state) (randomString draw.verifier)
      (randomString draw.nonce) login = some cookie)
    (hdraw : draw.state ≠ [] ∧ draw.nonce ≠ [])
    (hfresh : ∀ e ∈ used, e.1 ≠ randomString draw.nonce)
    (hstate : query.get (lit "state") = randomString draw.state)
    (hcode : query.get (lit "code") ≠ []) (now : Time) :
    ∃ used' returnTo, handleCallback pkce now (some cookie) query used =
      (.exchange (query.get (lit "code")) (randomString draw.verifier) returnTo, used') := by
  have hdecode := decode_handleLogin hkeeps hcookie
  simp only [mapRunes_randomString] at hdecode
  have hnonce : consumeNonce (randomString draw.nonce) now used =
      (true, (randomString draw.nonce, now) :: Ledger.evict nonceTTL now used) := by
    rw [consumeNonce, if_neg (randomString_ne_nil hdraw.2), Ledger.consume]
    refine if_neg ?_
    rw [List.any_eq_true]
    rintro ⟨e, he, hkey⟩
    exact hfresh e (Ledger.mem_evict.mp he).1 (of_decide_eq_true hkey)
  generalize mapRunes id (sanitizeReturnPath (login.get (lit "return"))) = returnTo at hdecode
  obtain ⟨carried, hcarried, hst, hverifier, hno⟩ : ∃ carried, (loginPayload (randomString draw.state)
      (randomString draw.verifier) (randomString draw.nonce) returnTo).identity = some carried ∧
      carried.claims.str (lit "state") = randomString draw.state ∧
      carried.claims.str (lit "verifier") = randomString draw.verifier ∧
      carried.claims.str (lit "nonce") = randomString draw.nonce := ⟨_, rfl, rfl, rfl, rfl⟩
  refine ⟨(randomString draw.nonce, now) :: Ledger.evict nonceTTL now used,
    carried.claims.str (lit "return"), ?_⟩
  simp only [handleCallback, hdecode, hcarried, hst, hverifier, hno, hstate, hnonce]
  rw [if_neg (by simpa using randomString_ne_nil hdraw.1), if_neg (by simp), if_neg hcode]

omit [HostSyntax] [UnicodeCase] in
theorem name_of_issue {store : SessionStore} {now : Time} {id : Option Auth.Identity} {c : Cookie}
    (h : store.issue now id = some c) : c.name = store.cookieName := by
  obtain ⟨value, -, rfl⟩ := Option.map_eq_some_iff.mp h
  rfl

omit [UnicodeCase] in
/-- The provider takes the code and the verifier for a token of the identity. -/
theorem finishCallback_of_token {idp : Provider} {sessions : SessionStore} {now : Time}
    {code verifier token : GoString} {id : Auth.Identity}
    (htoken : idp.exchangeCode code verifier = some token)
    (hid : idp.validateBearer token = some id)
    (hsession : RoundTrips ⟨some id, now + sessions.maxAge⟩) (returnTo : GoString) :
    ∃ session location, sessions.issue now (some id) = some session ∧
      finishCallback idp sessions now (.exchange code verifier returnTo) = .found session location ∧
      session.value ≠ [] ∧ sessions.decode session.value = .ok ⟨some id, now + sessions.maxAge⟩ := by
  obtain ⟨value, hencode, hne, hdecode⟩ := SessionStore.decode_of_encode (s := sessions) hsession
  have hissue : sessions.issue now (some id) = some ⟨sessions.cookieName, value, lit "/",
      some (now + sessions.maxAge), sessions.secure⟩ := by
    simp only [SessionStore.issue, hencode, Option.map_some]
  refine ⟨_, redirectLocation (lit "/portal/auth/callback") (if returnTo = [] then lit "/portal/" else returnTo),
    hissue, ?_, hne, hdecode⟩
  simp only [finishCallback, htoken, hid, hissue]

/-- A browser goes through a login with a fresh draw and comes back with its state and a
code that the provider takes. -/
structure Follows (d : Deployment) (s : State) (draw : Draw) (login query : Values) (idp : Provider)
    (id : Auth.Identity) (began called time : Time) : Prop where
  starts : s.clock ≤ began
  returns : began ≤ called
  waits : called ≤ time
  drawn : draw.state ≠ [] ∧ draw.nonce ≠ []
  fresh : ∀ e ∈ s.usedNonces, e.1 ≠ randomString draw.nonce
  keeps : KeepsText (randomString draw.state) (randomString draw.verifier) (randomString draw.nonce)
    (sanitizeReturnPath (login.get (lit "return")))
  marshals : (PayloadJSON.marshal (draw.payload login)).isSome = true
  session : RoundTrips ⟨some id, time + d.sessions.maxAge⟩
  state : query.get (lit "state") = randomString draw.state
  code : query.get (lit "code") ≠ []
  token : ∃ token, idp.exchangeCode (query.get (lit "code")) (randomString draw.verifier) = some token ∧
    idp.validateBearer token = some id

omit [UnicodeCase] in
/-- The three steps of a login, with the cookie that `handleLogin` sets and the session that
the callback issues. -/
theorem Follows.steps {d : Deployment} {s : State} {draw : Draw} {login query : Values}
    {idp : Provider} {id : Auth.Identity} {began called time : Time}
    (h : Follows d s draw login query idp id began called time) :
    ∃ cookie stage session location s₁ s₂ s₃,
      handleLogin d.pkce (randomString draw.state) (randomString draw.verifier)
        (randomString draw.nonce) login = some cookie ∧
      step d s (.login began draw login) = some s₁ ∧ Unforged s₁ d.pkce.secret cookie ∧
      step d s₁ (.callback called (some cookie) query) = some s₂ ∧
      s₂.waiting[s.waiting.length]? = some (some stage) ∧
      finishCallback idp d.sessions time stage = .found session location ∧
      d.sessions.issue time (some id) = some session ∧
      step d s₂ (.answered time s.waiting.length idp) = some s₃ ∧ s₃.clock = time ∧
      Unforged s₃ d.sessions.secret session.value ∧ session.value ≠ [] ∧
      d.sessions.decode session.value = .ok ⟨some id, time + d.sessions.maxAge⟩ := by
  obtain ⟨body, hbody⟩ := Option.isSome_iff_exists.mp h.marshals
  obtain ⟨token, htoken, hid⟩ := h.token
  obtain ⟨cookie, hcookie⟩ : ∃ cookie, handleLogin d.pkce (randomString draw.state)
      (randomString draw.verifier) (randomString draw.nonce) login = some cookie :=
    ⟨_, Option.map_eq_some_iff.mpr ⟨body, hbody, rfl⟩⟩
  obtain ⟨used', returnTo, hcallback⟩ :=
    handleCallback_of_login h.keeps hcookie h.drawn h.fresh h.state h.code called
  obtain ⟨session, location, hissue, hfound, hne, hdecode⟩ :=
    finishCallback_of_token htoken hid h.session returnTo
  have hlogin : step d s (.login began draw login) =
      some (State.sign { s with clock := began } d.pkce.secret (some cookie)) := by
    simp only [step, if_neg (Int.not_lt.mpr h.starts), hcookie]
  obtain ⟨s₂, hexchange, hclock, hwaiting⟩ : ∃ s₂,
      step d (State.sign { s with clock := began } d.pkce.secret (some cookie))
        (.callback called (some cookie) query) = some s₂ ∧ s₂.clock = called ∧
      s₂.waiting = s.waiting ++
        [some (.exchange (query.get (lit "code")) (randomString draw.verifier) returnTo)] := by
    simp only [step, State.sign, if_neg (Int.not_lt.mpr h.returns), hcallback, CallbackStage.waits]
    exact ⟨_, rfl, rfl, rfl⟩
  have hget : s₂.waiting[s.waiting.length]? =
      some (some (.exchange (query.get (lit "code")) (randomString draw.verifier) returnTo)) := by
    rw [hwaiting, List.getElem?_concat_length]
  have hanswered : step d s₂ (.answered time s.waiting.length idp) =
      some (State.sign { s₂ with clock := time, waiting := s₂.waiting.set s.waiting.length none }
        d.sessions.secret (some session.value)) := by
    simp only [step, hclock, if_neg (Int.not_lt.mpr h.waits), hget, hfound, sessionValue]
  exact ⟨cookie, _, session, location, _, s₂, _, hcookie, hlogin, unforged_sign _ _ _, hexchange, hget,
    hfound, hissue, hanswered, rfl, unforged_sign _ _ _, hne, hdecode⟩

omit [HostSyntax] in
/-- A session lets every route of the portal run, until it expires. -/
theorem serve_of_session {d : Deployment} {session : GoString} {id : Auth.Identity} {expires now : Time}
    (hne : session ≠ []) (hdecode : d.sessions.decode session = .ok ⟨some id, expires⟩)
    (hnow : now ≤ expires) {r : PortalRequest} {route : PortalRoute}
    (hcookie : r.cookies.lookup d.sessions.cookieName = some session)
    (hroute : d.mux.dispatch r.toRequest = some (some route))
    (hcsrf : route.csrf = true → r.wire.headerGet (lit "X-Requested-With") ≠ []) :
    d.portal.serve d.mux now r = .ran route.handler (some id) := by
  have hread : d.sessions.read now r.cookies = some id := by
    rw [SessionStore.read_of_decode hne hdecode hcookie, if_neg (Int.not_lt.mpr hnow)]
  have hbind : d.portal.sessions.bind (fun s => s.read now r.cookies) = some id := hread
  simp only [PortalAuth.serve, hroute, PortalAuth.mounted, PortalAuth.middleware, hbind]
  split_ifs with h
  · exact if_neg fun hmissing => hcsrf h hmissing.2
  · rfl

/-- From any state of the server, a browser that follows the protocol gets a session: it
takes the cookie of `handleLogin` to the callback, which goes on, once the provider answers,
to issue a session for the identity in the token. Until it expires, every route of the portal
runs for that identity. -/
theorem login_completes (d : Deployment) (s : State) (draw : Draw) (login query : Values)
    (idp : Provider) (id : Auth.Identity) (began called time : Time)
    (h : Follows d s draw login query idp id began called time) :
    ∃ cookie stage session location u t,
      handleLogin d.pkce (randomString draw.state) (randomString draw.verifier)
        (randomString draw.nonce) login = some cookie ∧
      run (step d) s [.login began draw login, .callback called (some cookie) query] = some u ∧
      u.waiting[s.waiting.length]? = some (some stage) ∧
      finishCallback idp d.sessions time stage = .found session location ∧
      d.sessions.issue time (some id) = some session ∧
      step d u (.answered time s.waiting.length idp) = some t ∧
      ∀ now r route, now ≤ time + d.sessions.maxAge →
        r.cookies.lookup session.name = some session.value →
        d.mux.dispatch r.toRequest = some (some route) →
        (route.csrf = true → r.wire.headerGet (lit "X-Requested-With") ≠ []) →
        d.portal.serve d.mux now r = .ran route.handler (some id) := by
  obtain ⟨cookie, stage, session, location, s₁, s₂, s₃, hcookie, hlogin, -, hcallback, hstage, hfound,
    hissue, hanswered, -, -, hne, hdecode⟩ := h.steps
  refine ⟨cookie, stage, session, location, s₂, s₃, hcookie,
    run_cons.mpr ⟨s₁, hlogin, run_cons.mpr ⟨s₂, hcallback, rfl⟩⟩, hstage, hfound, hissue, hanswered, ?_⟩
  intro now r route hnow hsession hroute hcsrf
  exact serve_of_session hne hdecode hnow (name_of_issue hissue ▸ hsession) hroute hcsrf

end

/-! ### One login -/

/-- JSON of the payloads of one login: that of its session has no claims. -/
@[reducible] def sampleJSON : PayloadJSON where
  marshal pl := some (if (pl.identity.map fun id => id.claims.isEmpty) = some true then lit "q" else lit "p")
  unmarshal body := some (if body = lit "q" then ⟨some { subject := lit "alice" }, 2 + defaultMaxAge⟩
    else loginPayload (randomString (lit "s")) (randomString (lit "v")) (randomString (lit "n")) [])

def sampleDraw : Draw := ⟨lit "s", lit "v", lit "n"⟩

def sampleQuery : Values :=
  [(lit "state", [randomString (lit "s")]), (lit "code", [lit "c"])]

/-- The session store of a sixteen byte secret. -/
def sampleSessions : SessionStore :=
  ⟨lit "api_test_session", List.replicate 16 0x61, false, defaultMaxAge,
    Nat.le_of_ble_eq_true rfl⟩

/-- The login store of the derived secret. -/
def samplePKCE : SessionStore :=
  ⟨lit "api_test_pkce", @derivePKCESecret unaryHMAC sampleSessions.secret, false, defaultMaxAge,
    Nat.le_of_ble_eq_true rfl⟩

def sampleDeployment (mux : ServeMux (Option PortalRoute)) : @Deployment unaryHMAC :=
  @Deployment.mk unaryHMAC sampleSessions samplePKCE false rfl none mux

theorem sample_follows (mux : ServeMux (Option PortalRoute)) :
    @Follows unaryHMAC sampleJSON (sampleDeployment mux) ⟨0, [], [], []⟩ sampleDraw [] sampleQuery
      trusting { subject := lit "alice" } 0 1 2 :=
  @Follows.mk unaryHMAC sampleJSON _ _ _ _ _ _ _ _ _ _ (by decide) (by decide) (by decide)
    (by decide +kernel) (by simp) (fun _ hbody => by cases hbody; rfl) rfl ⟨lit "q", rfl, rfl⟩ rfl
    (by decide +kernel) ⟨lit "t", rfl, rfl⟩

theorem sample_valid : ∀ token id, trusting.validateBearer token = some id →
    @Keeps sampleJSON ⟨some id, 2 + sampleSessions.maxAge⟩ := by
  rintro token id ⟨⟩ body hbody
  cases hbody
  rfl

theorem sample_lifetime : (3 : Time) ≤ 2 + sampleSessions.maxAge := by decide

theorem sample_keys : @derivePKCESecret unaryHMAC sampleSessions.secret ≠ sampleSessions.secret := by
  decide +kernel

/-- A browser asks who it is. -/
def meRequest (session : GoString) : PortalRequest where
  method := lit "GET"
  host := lit "h"
  escapedPath := lit "/api/v1/portal/me"
  path := lit "/api/v1/portal/me"
  methodValid := rfl
  decodes := rfl
  cookies := [(lit "api_test_session", session)]

theorem exists_me_route : ∃ mux, @mountPortal asciiNames [] [] = some mux ∧
    ∀ session, mux.dispatch (meRequest session).toRequest =
      some (some ⟨lit "GET /api/v1/portal/me", .me, false⟩) := by
  have hdispatch : (@mountPortal asciiNames [] []).bind (·.dispatch (meRequest []).toRequest) =
      some (some ⟨lit "GET /api/v1/portal/me", .me, false⟩) := by
    unfold mountPortal portalRoutes meRequest
    repeat rw [lit_ofList]
    decide +kernel
  obtain ⟨mux, hmux, hroute⟩ := Option.bind_eq_some_iff.mp hdispatch
  exact ⟨mux, hmux, fun _ => hroute⟩

theorem sample_completes : ∃ mux cookie stage session location u t,
    @handleLogin unaryHMAC sampleJSON samplePKCE (randomString (lit "s")) (randomString (lit "v"))
      (randomString (lit "n")) [] = some cookie ∧
    run (@step unaryHMAC sampleJSON noHosts (sampleDeployment mux)) ⟨0, [], [], []⟩
      [.login 0 sampleDraw [], .callback 1 (some cookie) sampleQuery] = some u ∧
    u.waiting[0]? = some (some stage) ∧
    @finishCallback unaryHMAC sampleJSON noHosts trusting sampleSessions 2 stage = .found session location ∧
    @step unaryHMAC sampleJSON noHosts (sampleDeployment mux) u (.answered 2 0 trusting) = some t ∧
    @PortalAuth.serve asciiCase unaryHMAC sampleJSON (@Deployment.portal unaryHMAC (sampleDeployment mux))
      mux 3 (meRequest session.value) = .ran .me (some { subject := lit "alice" }) := by
  obtain ⟨mux, -, hroute⟩ := exists_me_route
  obtain ⟨cookie, stage, session, location, u, t, hcookie, hrun, hstage, hfound, hissue, hanswered, hserve⟩ :=
    @login_completes unaryHMAC sampleJSON noHosts asciiCase (sampleDeployment mux) _ _ _ _ _ _ _ _ _
      (sample_follows mux)
  have hname := @name_of_issue unaryHMAC sampleJSON _ _ _ _ hissue
  exact ⟨mux, cookie, stage, session, location, u, t, hcookie, hrun, hstage, hfound, hanswered,
    hserve 3 (meRequest session.value) _ sample_lifetime (by rw [hname]; rfl) (hroute _) (by simp)⟩

theorem sample_authentic : ∃ mux cookie s,
    run (@step unaryHMAC sampleJSON noHosts (sampleDeployment mux)) ⟨0, [], [], []⟩
        [.login 0 sampleDraw [], .callback 1 (some cookie) sampleQuery, .answered 2 0 trusting] =
      some s ∧
    ∃ time, LoggedIn [.login 0 sampleDraw [], .callback 1 (some cookie) sampleQuery, .answered 2 0 trusting]
      { subject := lit "alice" } time ∧ time ≤ 3 := by
  obtain ⟨mux, -, hroute⟩ := exists_me_route
  obtain ⟨cookie, stage, session, location, s₁, s₂, s₃, -, hlogin, hcookie, hcallback, -, -, -, hanswered,
    hclock, hsession, hne, hdecode⟩ := @Follows.steps unaryHMAC sampleJSON noHosts _ _ _ _ _ _ _ _ _ _ (sample_follows mux)
  have hrun : run (@step unaryHMAC sampleJSON noHosts (sampleDeployment mux)) ⟨0, [], [], []⟩
      [.login 0 sampleDraw [], .callback 1 (some cookie) sampleQuery, .answered 2 0 trusting] = some s₃ :=
    run_cons.mpr ⟨s₁, hlogin, run_cons.mpr ⟨s₂, hcallback, run_cons.mpr ⟨s₃, hanswered, rfl⟩⟩⟩
  have hserve := @serve_of_session unaryHMAC sampleJSON asciiCase (sampleDeployment mux)
    session.value _ _ 3 hne hdecode sample_lifetime (meRequest session.value) _ rfl (hroute _) (by simp)
  have hhonest : Meets (@step unaryHMAC sampleJSON noHosts (sampleDeployment mux))
      (@Honest unaryHMAC sampleJSON (sampleDeployment mux)) ⟨0, [], [], []⟩
      [.login 0 sampleDraw [], .callback 1 (some cookie) sampleQuery, .answered 2 0 trusting] := by
    refine ⟨@Follows.keeps unaryHMAC sampleJSON _ _ _ _ _ _ _ _ _ _ (sample_follows mux), fun t ht => ?_⟩
    cases hlogin.symm.trans ht
    exact ⟨fun _ hvalue => Option.some_inj.mp hvalue ▸ hcookie, fun u _ =>
      ⟨sample_valid, fun _ _ => trivial⟩⟩
  refine ⟨mux, cookie, s₃, hrun, ?_⟩
  obtain ⟨id, hid, ⟨time, hlogged, htime, -⟩ | ⟨chain, key, hchain, -⟩⟩ :=
    @session_authentic unaryHMAC sampleJSON noHosts asciiCase (sampleDeployment mux) sample_keys
      0 _ s₃ hrun hhonest 3 (by rw [hclock]; decide) (meRequest session.value)
      (fun _ hvalue => Option.some_inj.mp hvalue ▸ hsession) _ _ hserve
  · cases hid
    exact ⟨time, hlogged, htime⟩
  · cases hchain

end ApiTest.Portal.Protocol
