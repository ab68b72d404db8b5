import ApiTest.Audit.Event
import ApiTest.Endpoints.Document
import ApiTest.Endpoints.Labelling
import ApiTest.Net.Precedence
import ApiTest.Portal.Routes

/-! The composed handler of `BuildMux`: health probes, the endpoint registry, the
OpenAPI documents and the portal on one mux, a redirect of browsers at the root
around it when there is a portal, and `CORS` around everything. `CORS` answers
every OPTIONS request itself, so a route registered for OPTIONS is published and
mounted but never reached. -/

namespace ApiTest.Server

open Text Audit Net Endpoints Portal

/-! ### BuildMux -/

/-- Which parts of the portal are there: the browser login, and the API together
with its authentication. -/
structure PortalDeps where
  browserAuth : Bool
  portalAPI : Bool

/-- The patterns registered ahead of the registry. -/
def probePatterns : List GoString := [lit "GET /healthz", lit "GET /readyz"]

/-- `mountOpenAPI`. -/
def openAPIPatterns : List GoString :=
  [lit "GET /openapi.json", lit "GET /openapi.yaml", lit "GET /docs"]

/-- `BrowserAuth.Mount`. -/
def browserAuthPatterns : List GoString :=
  [lit "GET /portal/auth/login", lit "GET /portal/auth/callback", lit "POST /portal/auth/logout"]

def portalPatterns (d : PortalDeps) : List GoString :=
  [lit "GET /.well-known/oauth-protected-resource",
    lit "GET /.well-known/oauth-authorization-server"] ++
    (if d.browserAuth then browserAuthPatterns else []) ++
    (if d.portalAPI then portalRoutes.map PortalRoute.pattern else []) ++ [lit "GET /portal/"]

/-- The patterns registered after the registry, the root handler last. -/
def laterPatterns (portal : Option PortalDeps) (hasDoc : Bool) : List GoString :=
  (if hasDoc then openAPIPatterns else []) ++ (portal.map portalPatterns).getD [] ++ [lit "GET /"]

inductive BuildError where
  | renderOpenAPI
  | panic
  deriving DecidableEq, Repr

/-- What `BuildMux` composes: the mux, and whether `BrowserRedirect` is around
it. -/
structure Composed where
  mux : ServeMux Handler
  portal : Bool

section Build
variable [WildcardNames] {ω : Type}

/-- `BuildMux`. `renders` says whether the document can be rendered; a pattern the
mux refuses is a panic. -/
def buildMux (renders : Document ω → Bool) (reg : Registry) (portal : Option PortalDeps)
    (oapiDoc : Option (Document ω)) : Except BuildError Composed :=
  if oapiDoc.any (fun doc => !renders doc) then .error .renderOpenAPI
  else match reg.serve probePatterns (laterPatterns portal oapiDoc.isSome) with
    | none => .error .panic
    | some mux => .ok ⟨mux, portal.isSome⟩

theorem buildMux_eq_ok {renders : Document ω → Bool} {reg : Registry} {portal : Option PortalDeps}
    {oapiDoc : Option (Document ω)} {c : Composed}
    (h : buildMux renders reg portal oapiDoc = .ok c) :
    reg.serve probePatterns (laterPatterns portal oapiDoc.isSome) = some c.mux := by
  unfold buildMux at h
  split_ifs at h
  split at h
  next => cases h
  next mux hmux =>
    cases h
    exact hmux

end Build

/-! ### The layers around the mux -/

/-- A request with its headers. -/
structure WebRequest extends Request where
  header : Values := []

/-- What a client is answered with, or the mounted handler that answers. -/
inductive Reply where
  | noContent
  | found (location : GoString)
  | handled (h : Handler)
  | unrouted
  deriving DecidableEq, Repr

/-- The mux as a handler; without a match it answers 404, 405 or a redirect. -/
def serveMux (mux : ServeMux Handler) (r : WebRequest) : Reply :=
  match mux.dispatch r.toRequest with
  | some h => .handled h
  | none => .unrouted

def isBrowserRoot (r : WebRequest) : Bool :=
  r.method == lit "GET" && r.path == lit "/" &&
    contains (r.header.get (lit "Accept")) (lit "text/html")

def browserRedirect (portalPath : GoString) (next : WebRequest → Reply) (r : WebRequest) : Reply :=
  if isBrowserRoot r then .found portalPath else next r

/-- `CORS`; the headers it adds are left out. -/
def cors (next : WebRequest → Reply) (r : WebRequest) : Reply :=
  if r.method = lit "OPTIONS" then .noContent else next r

/-- The handler `BuildMux` returns. -/
def Composed.serve (c : Composed) : WebRequest → Reply :=
  cors (if c.portal then browserRedirect (lit "/portal/") (serveMux c.mux) else serveMux c.mux)

/-- Off the root path and apart from OPTIONS, the layers pass the request on. -/
theorem serve_eq {c : Composed} {r : WebRequest} (hmethod : r.method ≠ lit "OPTIONS")
    (hpath : r.path ≠ lit "/") : c.serve r = serveMux c.mux r := by
  unfold Composed.serve cors
  rw [if_neg hmethod]
  cases c.portal with
  | false => rfl
  | true =>
    show browserRedirect _ _ r = _
    rw [browserRedirect, if_neg]
    simp [isBrowserRoot, hpath]

theorem serve_options {c : Composed} {r : WebRequest} (h : r.method = lit "OPTIONS") :
    c.serve r = .noContent := if_pos h

end ApiTest.Server
