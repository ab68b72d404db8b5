import ApiTest.Middleware.Recorders
import ApiTest.Net.Mapped
import ApiTest.Portal.Access
import ApiTest.Portal.Dispatched

/-! A client's request on its way through the whole server: `RequestID` and `AccessLog`
around everything, then `CORS` and the browser redirect, then the mux. A route of the
registry runs behind the identity and the audit middleware; a route of the portal runs
behind its own authentication, and two of its handlers, Try-It and the audit replay, build
a request of their own and hand it to the mux again. The context of the client's request
goes along with it, and with the context the request id and the holder in which the
identity middleware leaves what it has resolved.

The dispatched request could in principle reach the portal again. It does not: its path
stands under `/v1/`, and the portal's do not. So a client's request is dispatched at most
twice, it leaves at most one audit event, and event, access line and response agree on who
it was and how it is called. -/

open ApiTest.Inbound

namespace ApiTest.Server

open Text Audit Net Endpoints Portal Middleware

/-! ### The mux -/

/-- What a pattern of the mux leads to: a route of the registry behind `endpointMW`, a
route of the portal API behind its authentication, or a handler without either. -/
inductive Mounted where
  | route (e : RouteEntry)
  | portal (route : PortalRoute)
  | other

def Mounted.handler : Mounted → Handler
  | .route e => .route e
  | _ => .other

def others (patterns : List GoString) : List (GoString × Mounted) := patterns.map (·, .other)

def portalMounts (d : PortalDeps) : List (GoString × Mounted) :=
  others [lit "GET /.well-known/oauth-protected-resource",
    lit "GET /.well-known/oauth-authorization-server"] ++
    others (if d.browserAuth then browserAuthPatterns else []) ++
    (if d.portalAPI then portalRoutes.map fun route => (route.pattern, .portal route) else []) ++
    others [lit "GET /portal/"]

/-- The registrations of `BuildMux`, in its order. -/
def mounts (reg : Registry) (portal : Option PortalDeps) (hasDoc : Bool) :
    List (GoString × Mounted) :=
  others probePatterns ++ reg.flat.map (fun e => (e.pattern, .route e)) ++
    (others (if hasDoc then openAPIPatterns else []) ++ (portal.map portalMounts).getD [] ++
      others [lit "GET /"])

theorem map_others (patterns : List GoString) :
    (others patterns).map (fun m => (m.1, m.2.handler)) =
      patterns.map fun pattern => (pattern, Handler.other) := by
  rw [others, List.map_map]
  rfl

theorem map_portalMounts (d : PortalDeps) :
    (portalMounts d).map (fun m => (m.1, m.2.handler)) =
      (portalPatterns d).map fun pattern => (pattern, Handler.other) := by
  simp only [portalMounts, portalPatterns, List.map_append, map_others]
  congr 2
  split_ifs
  · rw [List.map_map, List.map_map]
    rfl
  · rfl

theorem map_mounts (reg : Registry) (portal : Option PortalDeps) (hasDoc : Bool) :
    (mounts reg portal hasDoc).map (fun m => (m.1, m.2.handler)) =
      (probePatterns.map fun pattern => (pattern, Handler.other)) ++
        reg.flat.map RouteEntry.mount ++
          (laterPatterns portal hasDoc).map fun pattern => (pattern, Handler.other) := by
  have hroutes : (reg.flat.map fun e => (e.pattern, Mounted.route e)).map
      (fun m => (m.1, m.2.handler)) = reg.flat.map RouteEntry.mount := by
    rw [List.map_map]
    rfl
  have hportal : ((portal.map portalMounts).getD []).map (fun m => (m.1, m.2.handler)) =
      ((portal.map portalPatterns).getD []).map fun pattern => (pattern, Handler.other) := by
    cases portal with
    | none => rfl
    | some d => exact map_portalMounts d
  simp only [mounts, laterPatterns, List.map_append, map_others, hroutes, hportal]

section
variable [WildcardNames]

def serverMux (reg : Registry) (portal : Option PortalDeps) (hasDoc : Bool) :
    Option (ServeMux Mounted) := ServeMux.empty.handleAll (mounts reg portal hasDoc)

/-- Without the difference between the portal and the rest it is the mux of `BuildMux`. -/
theorem map_serverMux (reg : Registry) (portal : Option PortalDeps) (hasDoc : Bool) :
    (serverMux reg portal hasDoc).map (ServeMux.map Mounted.handler) =
      reg.serve probePatterns (laterPatterns portal hasDoc) := by
  rw [serverMux, ← ServeMux.handleAll_map, map_mounts]
  simp only [Registry.serve, Registry.mount_eq, ServeMux.handleAll, List.foldlM_append, bind_assoc]
  rfl

/-- The mux holds the routes of the registry, those of the portal and handlers without
either. -/
theorem mem_serverMux {reg : Registry} {portal : Option PortalDeps} {hasDoc : Bool}
    {mux : ServeMux Mounted} (h : serverMux reg portal hasDoc = some mux) {x : Pattern × Mounted}
    (hx : x ∈ mux.entries) :
    (∃ e ∈ reg.flat, parsePattern e.pattern = some x.1 ∧ x.2 = .route e) ∨
      (∃ route ∈ portalRoutes, parsePattern route.pattern = some x.1 ∧ x.2 = .portal route) ∨
        x.2 = .other := by
  obtain hempty | ⟨m, hm, hpattern, hsame⟩ := (ServeMux.mem_handleAll h).mp hx
  · cases hempty
  rw [← hsame]
  have hothers {patterns : List GoString} (hm : m ∈ others patterns) : m.2 = .other := by
    obtain ⟨_, -, rfl⟩ := List.mem_map.mp hm
    rfl
  simp only [mounts, List.mem_append, List.mem_map] at hm
  obtain (hm | ⟨e, he, rfl⟩) | (hm | hm) | hm := hm
  · exact Or.inr (Or.inr (hothers hm))
  · exact Or.inl ⟨e, he, hpattern, rfl⟩
  · exact Or.inr (Or.inr (hothers hm))
  · cases portal with
    | none => cases hm
    | some d =>
      simp only [Option.map_some, Option.getD_some, portalMounts, List.mem_append] at hm
      obtain ((hm | hm) | hm) | hm := hm
      · exact Or.inr (Or.inr (hothers hm))
      · exact Or.inr (Or.inr (hothers hm))
      · split_ifs at hm
        · obtain ⟨route, hroute, rfl⟩ := List.mem_map.mp hm
          exact Or.inr (Or.inl ⟨route, hroute, hpattern, rfl⟩)
        · cases hm
      · exact Or.inr (Or.inr (hothers hm))
  · exact Or.inr (Or.inr (hothers hm))

end

/-! ### Requests -/

/-- A request at the mux, with what its context holds. -/
structure Arriving extends PortalRequest where
  remoteAddr : GoString := []
  body : Option GoString := none
  requestID : GoString
  identity : Option Inbound.Identity := none

/-- The request as an endpoint handler finds it. -/
def Arriving.handlerRequest (r : Arriving) : HandlerRequest where
  method := r.method
  path := r.path
  query := r.query
  header := r.header
  remoteAddr := r.remoteAddr
  body := r.body
  requestID := r.requestID
  identity := r.identity

/-- A request the portal has built, at the mux. It has no cookies: Try-It and the replay
leave that header out. -/
def OutRequest.arriving (requestID : GoString) (r : OutRequest) : Option Arriving :=
  r.muxRequest.map fun req =>
    { toRequest := req
      header := r.header
      query := parseQuery r.url.rawQuery
      body := some r.body
      requestID := requestID
      identity := r.identity }

/-! ### The application -/

/-- The parts `Build` composes: the mux of the configured endpoint groups, their document
and the portal, and what the middlewares are given. The endpoint handlers and the decoder of
Try-It bodies are any functions. -/
structure Application [WildcardNames] [UnicodeCase] [ResponseJSON] where
  redactKeys : List GoString
  endpoints : EndpointsConfig
  portal : Option PortalDeps
  chain : Chain
  opts : AuditOptions
  portalAuth : PortalAuth
  store : PayloadStore
  decodeTryIt : Arriving → Option TryItRequest
  handler : RouteEntry → HandlerRequest → List HandlerAct
  mux : ServeMux Mounted
  mounted : serverMux (buildRegistry redactKeys endpoints) portal true = some mux

/-- What a request leaves behind: the audit events, and the identity in its holder. -/
structure Trace where
  events : List Event := []
  holder : Option Inbound.Identity := none

namespace Application

variable [WildcardNames] [UnicodeCase] [ResponseJSON] [HMAC] [PayloadJSON] [HostSyntax]
  [UUIDSyntax] (app : Application) (now : Time) (clock : Clock)

omit [HMAC] [PayloadJSON] [HostSyntax] [UUIDSyntax] in
def registry : Registry := buildRegistry app.redactKeys app.endpoints

omit [HMAC] [PayloadJSON] [HostSyntax] [UUIDSyntax] in
/-- A route behind `endpointMW`. -/
def endpoint (e : RouteEntry) (r : Arriving) : Trace where
  events := (endpointMW app.chain (some app.registry) app.opts (app.handler e) clock
    r.handlerRequest).toList
  holder := (identity app.chain r.identity r.wire).runs.join

/-- The request that a route of the portal hands to the mux, if it does. -/
def dispatched (route : PortalRoute) (r : Arriving) : Option Arriving :=
  let value (name : GoString) := ((app.mux.pathValues r.toRequest).lookup name).getD []
  match app.portalAuth.mounted now route none r.toPortalRequest with
  | .ran .tryIt operator =>
    (dispatchTryIt true (some app.registry) operator (value (lit "group")) (value (lit "route"))
      (app.decodeTryIt r)).toOption.bind (OutRequest.arriving r.requestID)
  | .ran .auditReplay operator =>
    (auditReplay true app.store operator (value (lit "id"))).toOption.bind fun replay =>
      OutRequest.arriving r.requestID replay.2
  | _ => none

/-- The mux as a handler, with at most `depth` requests on top of each other. -/
def serveMux : ℕ → Arriving → Trace
  | 0, _ => {}
  | depth + 1, r =>
    match app.mux.dispatch r.toRequest with
    | some (.route e) => app.endpoint clock e r
    | some (.portal route) => ((app.dispatched now route r).map (serveMux depth)).getD {}
    | _ => {}

end Application

/-! ### The layers around the mux -/

structure ClientRequest extends PortalRequest where
  remoteAddr : GoString := []
  body : Option GoString := none

/-- What the client gets as `X-Request-Id`, the line of the access log, and the events. -/
structure Served where
  requestID : GoString
  line : AccessLine
  events : List Event

/-- The id of a request: its own, or a new one. -/
def ClientRequest.requestID (uuid : GoString) (r : ClientRequest) : GoString :=
  orDefault (r.wire.headerGet (lit "X-Request-Id")) uuid

/-- The request behind `RequestID`, with nobody in its context. -/
def ClientRequest.arriving (uuid : GoString) (r : ClientRequest) : Arriving :=
  { r.toPortalRequest with
    remoteAddr := r.remoteAddr
    body := r.body
    requestID := r.requestID uuid }

namespace Application

variable [WildcardNames] [UnicodeCase] [ResponseJSON] [HMAC] [PayloadJSON] [HostSyntax]
  [UUIDSyntax] (app : Application) (now : Time) (clock : Clock)

/-- `CORS`, the browser redirect, and the mux. -/
def serveCore (depth : ℕ) (r : Arriving) : Trace :=
  if r.method = lit "OPTIONS" then {}
  else if app.portal.isSome && isBrowserRoot { r.toRequest with header := r.header } then {}
  else app.serveMux now clock depth r

/-- The handler of the server. The access log reads the holder when the inner handler has
returned; `rec` is its recorder then. -/
def serve (depth : ℕ) (uuid : GoString) (start finish : Time) (rec : StatusRecorder)
    (r : ClientRequest) : Served :=
  let trace := app.serveCore now clock depth (r.arriving uuid)
  { requestID := r.requestID uuid
    line := accessLog
      { (r.arriving uuid).handlerRequest.audited with
        identity := trace.holder.map (·.toIdentity) } start finish rec
    events := trace.events }

end Application

end ApiTest.Server
