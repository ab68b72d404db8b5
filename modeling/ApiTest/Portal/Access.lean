import ApiTest.Middleware.Identity
import ApiTest.Portal.Routes
import ApiTest.Portal.Session

/-! Who reaches a handler of the portal (`portalauth.go`, `csrf.go`,
`PortalAPI.Mount`). The middleware tries the session cookie and then the inbound
chain, never the anonymous identity; the handlers that change state stand behind
the CSRF header check as well, which looks at the method of the request and so
relies on the mux to have matched it. -/

namespace ApiTest.Portal

open Text Audit Net Inbound Middleware

/-- A request with what the middleware reads of it. -/
structure PortalRequest extends Request where
  header : Values := []
  query : Values := []
  cookies : List (GoString × GoString) := []

def PortalRequest.wire (r : PortalRequest) : Wire := ⟨r.header, r.query⟩

/-- What becomes of a request: a handler runs with the identity of its context, or
an error is answered, or another handler of the mux serves it. -/
inductive Outcome where
  | ran (handler : PortalHandler) (context : Option Auth.Identity)
  | unauthorized
  | forbidden (message : GoString)
  | elsewhere
  | unrouted

/-- A handler, for an identity in the context. -/
abbrev Next := Option Auth.Identity → PortalRequest → Outcome

structure PortalAuth where
  sessions : Option SessionStore
  chain : Option Chain

/-- `adaptInboundIdentity`. -/
def adaptInboundIdentity (id : Inbound.Identity) : Auth.Identity where
  subject := id.subject
  email := id.email
  name := id.keyName
  authType := id.authType
  apiKeyID := id.keyName
  claims := id.claims

/-- `requireCSRFHeader`. -/
def requireCSRFHeader (next : Next) : Next := fun context r =>
  if r.method ∈ [lit "POST", lit "PUT", lit "PATCH", lit "DELETE"] ∧
      r.wire.headerGet (lit "X-Requested-With") = [] then
    .forbidden (lit "missing X-Requested-With header")
  else next context r

section
variable [UnicodeCase] [HMAC] [PayloadJSON]

omit [HMAC] [PayloadJSON] in
/-- `hasCredential`. -/
def hasCredential (r : Wire) : Bool :=
  if r.headerGet (lit "X-API-Key") ≠ [] then true
  else
    let a := r.headerGet (lit "Authorization")
    if a = [] then false else hasBearerScheme a

namespace PortalAuth

/-- The identity the chain gives, if the request has a credential and the identity
is not the anonymous one. -/
def fallback (p : PortalAuth) (r : Wire) : Option Inbound.Identity :=
  if hasCredential r then
    match p.chain with
    | none => none
    | some chain =>
      match chain.authenticate r with
      | .ok (some id) => if id.authType ≠ lit "anonymous" then some id else none
      | _ => none
  else none

/-- `PortalAuth.Middleware` at the time `now`. -/
def middleware (p : PortalAuth) (now : Time) (next : Next) : Next := fun _ r =>
  match p.sessions.bind fun s => s.read now r.cookies with
  | some id => next (some id) r
  | none =>
    match p.fallback r.wire with
    | some id => next (some (adaptInboundIdentity id)) r
    | none => .unauthorized

/-- A route as `Mount` registers it. -/
def mounted (p : PortalAuth) (now : Time) (route : PortalRoute) : Next :=
  let handler : Next := fun context _ => .ran route.handler context
  p.middleware now (if route.csrf then requireCSRFHeader handler else handler)

/-- The mux as a handler; the entries that are no portal routes are `none`. -/
def serve (p : PortalAuth) (mux : ServeMux (Option PortalRoute)) (now : Time)
    (r : PortalRequest) : Outcome :=
  match mux.dispatch r.toRequest with
  | some (some route) => p.mounted now route none r
  | some none => .elsewhere
  | none => .unrouted

end PortalAuth
end

/-- `PortalAPI.Mount`, between the other registrations of the server. -/
def mountPortal [WildcardNames] (before after : List GoString) :
    Option (ServeMux (Option PortalRoute)) :=
  ServeMux.empty.handleAll (before.map (·, none) ++
    portalRoutes.map (fun route => (route.pattern, some route)) ++ after.map (·, none))

/-! ### Admission -/

/-- An identity that lets a request in. -/
inductive Admitted [HMAC] [PayloadJSON] (p : PortalAuth) (now : Time) (r : PortalRequest) :
    Auth.Identity → Prop
  | session {s : SessionStore} {v body sig : GoString} {pl : SessionPayload} {id : Auth.Identity}
      (hs : p.sessions = some s) (hcookie : r.cookies.lookup s.cookieName = some v)
      (hsplit : splitDot v = some (body, sig))
      (hsig : Base64.decode sig = some (HMAC.sum s.secret body)) (hpayload : s.decode v = .ok pl)
      (hexpires : now ≤ pl.expires) (hid : pl.identity = some id) : Admitted p now r id
  | inbound {chain : Chain} {id : Inbound.Identity} (hchain : p.chain = some chain)
      (hresult : chain.authenticate r.wire = .ok (some id))
      (htype : id.authType ≠ lit "anonymous") : Admitted p now r (adaptInboundIdentity id)

theorem SessionStore.read_eq_some [HMAC] [PayloadJSON] {s : SessionStore} {now : Time}
    {cookies : List (GoString × GoString)} {id : Auth.Identity}
    (h : s.read now cookies = some id) :
    ∃ v pl, cookies.lookup s.cookieName = some v ∧ s.decode v = .ok pl ∧ now ≤ pl.expires ∧
      pl.identity = some id := by
  unfold SessionStore.read at h
  cases hcookie : cookies.lookup s.cookieName with
  | none => simp [hcookie] at h
  | some v =>
    simp only [hcookie] at h
    split_ifs at h
    cases hdecode : s.decode v with
    | error e => simp [hdecode] at h
    | ok pl =>
      simp only [hdecode] at h
      split_ifs at h with hexpires
      exact ⟨v, pl, rfl, hdecode, Int.not_lt.mp hexpires, h⟩

section
variable [UnicodeCase]

theorem PortalAuth.fallback_eq_some {p : PortalAuth} {r : Wire} {id : Inbound.Identity}
    (h : p.fallback r = some id) :
    ∃ chain, p.chain = some chain ∧ chain.authenticate r = .ok (some id) ∧
      id.authType ≠ lit "anonymous" := by
  unfold PortalAuth.fallback at h
  split_ifs at h
  cases hchain : p.chain with
  | none => simp [hchain] at h
  | some chain =>
    simp only [hchain] at h
    split at h
    next id' hresult =>
      split_ifs at h with htype
      cases h
      exact ⟨chain, rfl, hresult, htype⟩
    next => cases h

variable [HMAC] [PayloadJSON]

/-- The middleware answers 401, or runs what is behind it for an admitted
identity. -/
theorem PortalAuth.middleware_cases (p : PortalAuth) (now : Time) (next : Next)
    (context : Option Auth.Identity) (r : PortalRequest) :
    p.middleware now next context r = .unauthorized ∨
      ∃ id, Admitted p now r id ∧ p.middleware now next context r = next (some id) r := by
  unfold PortalAuth.middleware
  cases hread : p.sessions.bind fun s => s.read now r.cookies with
  | some id =>
    obtain ⟨s, hs, hid⟩ := Option.bind_eq_some_iff.mp hread
    obtain ⟨v, pl, hcookie, hdecode, hexpires, hpl⟩ := SessionStore.read_eq_some hid
    obtain ⟨body, sig, -, hsplit, hsig, -, -⟩ := SessionStore.decode_eq_ok.mp hdecode
    exact Or.inr ⟨id, .session hs hcookie hsplit hsig hdecode hexpires hpl, rfl⟩
  | none =>
    cases hfallback : p.fallback r.wire with
    | none => exact Or.inl rfl
    | some id =>
      obtain ⟨chain, hchain, hresult, htype⟩ := PortalAuth.fallback_eq_some hfallback
      exact Or.inr ⟨_, .inbound hchain hresult htype, rfl⟩

/-- What runs behind the middleware of a route runs for an admitted identity and,
behind the CSRF check, with the header. -/
theorem PortalAuth.mounted_ran {p : PortalAuth} {now : Time} {route : PortalRoute}
    {context₀ context : Option Auth.Identity} {r : PortalRequest} {handler : PortalHandler}
    (h : p.mounted now route context₀ r = .ran handler context) :
    handler = route.handler ∧ (∃ id, context = some id ∧ Admitted p now r id) ∧
      (route.csrf = true → r.method ∈ [lit "POST", lit "PUT", lit "PATCH", lit "DELETE"] →
        r.wire.headerGet (lit "X-Requested-With") ≠ []) := by
  unfold PortalAuth.mounted at h
  obtain hrefused | ⟨id, hadmitted, hnext⟩ := p.middleware_cases now
    (if route.csrf then requireCSRFHeader fun context _ => .ran route.handler context
      else fun context _ => .ran route.handler context) context₀ r
  · rw [hrefused] at h
    cases h
  · rw [hnext] at h
    cases hcsrf : route.csrf with
    | false =>
      simp only [hcsrf, Bool.false_eq_true, if_false] at h
      cases h
      exact ⟨rfl, ⟨id, rfl, hadmitted⟩, by simp⟩
    | true =>
      simp only [hcsrf, if_true, requireCSRFHeader] at h
      split_ifs at h with hheader
      cases h
      exact ⟨rfl, ⟨id, rfl, hadmitted⟩, fun _ hmethod hnil => hheader ⟨hmethod, hnil⟩⟩

end

/-! ### The mounted routes -/

/-- The handlers that change state. -/
def stateChanging : List PortalHandler := [.auditReplay, .tryIt, .createKey, .deleteKey]

/-- Every state-changing handler is mounted behind the CSRF check, for a method that
the check looks at. -/
theorem csrf_of_stateChanging : ∀ route ∈ portalRoutes, route.handler ∈ stateChanging →
    route.csrf = true ∧ (splitMethod route.pattern).2.head? = some slash ∧
      (splitMethod route.pattern).1 ∈ [lit "POST", lit "DELETE"] := by
  unfold portalRoutes
  repeat rw [lit_ofList]
  decide +kernel

theorem route_of_dispatch [WildcardNames] {before after : List GoString}
    {mux : ServeMux (Option PortalRoute)} (hmux : mountPortal before after = some mux)
    {r : Request} {route : PortalRoute} (h : mux.dispatch r = some (some route)) :
    route ∈ portalRoutes ∧
      ∃ p, parsePattern route.pattern = some p ∧ p.servesMethod r.method = true := by
  obtain ⟨-, p, hentry, haccepts, -⟩ := ServeMux.dispatch_eq_some h
  simp only [Pattern.accepts, Bool.and_eq_true] at haccepts
  obtain hempty | ⟨m, hm, hpattern, hroute⟩ := (ServeMux.mem_handleAll hmux).mp hentry
  · cases hempty
  · simp only [List.mem_append, List.mem_map] at hm
    obtain (⟨pattern, -, rfl⟩ | ⟨route', hroute', rfl⟩) | ⟨pattern, -, rfl⟩ := hm
    · cases hroute
    · cases hroute
      exact ⟨hroute', p, hpattern, haccepts.1.2⟩
    · cases hroute

theorem method_of_stateChanging [WildcardNames] {route : PortalRoute} (hroute : route ∈ portalRoutes)
    (hhandler : route.handler ∈ stateChanging) {p : Pattern}
    (hp : parsePattern route.pattern = some p) {method : GoString}
    (hserves : p.servesMethod method = true) :
    method ∈ [lit "POST", lit "PUT", lit "PATCH", lit "DELETE"] := by
  obtain ⟨-, hroot, hmethod⟩ := csrf_of_stateChanging route hroute hhandler
  rw [← (parsePattern_eq_some hp hroot).1] at hmethod
  -- a pattern for POST or DELETE serves that method only
  have honly : ∀ m ∈ [lit "POST", lit "DELETE"], m ≠ [] ∧ m ≠ lit "GET" ∧
      m ∈ [lit "POST", lit "PUT", lit "PATCH", lit "DELETE"] := by decide
  obtain ⟨hne, hget, hmem⟩ := honly _ hmethod
  have heq : p.method = method := by
    simpa [Pattern.servesMethod, hne, hget] using hserves
  exact heq ▸ hmem

/-- A handler of the portal runs only with an admitted identity in its context, and
one that changes state only with the CSRF header. -/
theorem portal_never_anonymous [WildcardNames] [UnicodeCase] [HMAC] [PayloadJSON]
    (before after : List GoString) (mux : ServeMux (Option PortalRoute))
    (hmux : mountPortal before after = some mux) (p : PortalAuth) (now : Time) (r : PortalRequest)
    (handler : PortalHandler) (context : Option Auth.Identity)
    (h : p.serve mux now r = .ran handler context) :
    (∃ id, context = some id ∧ Admitted p now r id) ∧
      (handler ∈ stateChanging → r.wire.headerGet (lit "X-Requested-With") ≠ []) := by
  unfold PortalAuth.serve at h
  split at h
  next route hdispatch =>
    obtain ⟨hroute, pattern, hpattern, hserves⟩ := route_of_dispatch hmux hdispatch
    obtain ⟨rfl, hadmitted, hcsrf⟩ := PortalAuth.mounted_ran h
    refine ⟨hadmitted, fun hhandler => hcsrf (csrf_of_stateChanging route hroute hhandler).1 ?_⟩
    exact method_of_stateChanging hroute hhandler hpattern hserves
  next => cases h
  next => cases h

/-- A script that creates a key with an API key of its own. -/
def createRequest : PortalRequest where
  method := lit "POST"
  host := lit "h"
  escapedPath := lit "/api/v1/admin/keys"
  path := lit "/api/v1/admin/keys"
  methodValid := by decide
  decodes := by decide
  header := [(lit "X-Api-Key", [lit "k"]), (lit "X-Requested-With", [lit "script"])]

/-- The chain of a single authenticator that accepts every request. -/
def scriptAuth : PortalAuth := ⟨none, some ⟨[fun _ => .ok (some (keyIdentity (lit "ci")))], true⟩⟩

theorem portal_createKey_runs :
    ∃ mux, @mountPortal asciiNames [] [] = some mux ∧
      @Admitted unaryHMAC onePayload scriptAuth 0 createRequest
        (adaptInboundIdentity (keyIdentity (lit "ci"))) ∧
      createRequest.wire.headerGet (lit "X-Requested-With") ≠ [] := by
  have hdispatch : (@mountPortal asciiNames [] []).bind (·.dispatch createRequest.toRequest) =
      some (some ⟨lit "POST /api/v1/admin/keys", .createKey, true⟩) := by
    unfold mountPortal portalRoutes createRequest
    repeat rw [lit_ofList]
    decide +kernel
  obtain ⟨mux, hmux, hroute⟩ := Option.bind_eq_some_iff.mp hdispatch
  have hran : @PortalAuth.serve asciiCase unaryHMAC onePayload scriptAuth mux 0 createRequest =
      .ran .createKey (some (adaptInboundIdentity (keyIdentity (lit "ci")))) := by
    unfold PortalAuth.serve
    rw [hroute]
    rfl
  obtain ⟨⟨id, hid, hadmitted⟩, hheader⟩ := @portal_never_anonymous asciiNames asciiCase unaryHMAC
    onePayload [] [] mux hmux scriptAuth 0 createRequest _ _ hran
  cases hid
  exact ⟨mux, hmux, hadmitted, hheader (by decide)⟩

end ApiTest.Portal
