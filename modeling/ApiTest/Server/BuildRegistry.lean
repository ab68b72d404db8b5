import ApiTest.Endpoints.Reflect
import ApiTest.Net.Segments
import ApiTest.Server.Reachable

/-! The registry the server builds (`buildRegistry`): the built-in groups that the
configuration enables. Whichever they are, all routes stand under `/v1/`, and none
takes a request from another: where two patterns serve the same method, neither is
the more specific. -/

namespace ApiTest.Server

open Text Net Endpoints

def endpoint (name method path : String) : EndpointMeta := ⟨lit name, lit method, lit path⟩

def dataEndpoints : Group :=
  ⟨lit "data", [endpoint "fixed" "GET" "/v1/fixed/\x7bkey\x7d", endpoint "sized" "GET" "/v1/sized",
    endpoint "lorem" "GET" "/v1/lorem"]⟩

def failureEndpoints : Group :=
  ⟨lit "failure", [endpoint "status" "GET" "/v1/status/\x7bcode\x7d",
    endpoint "slow" "GET" "/v1/slow", endpoint "flaky" "GET" "/v1/flaky"]⟩

def streamingEndpoints : Group :=
  ⟨lit "streaming", [endpoint "streaming_chunked" "GET" "/v1/streaming/chunked",
    endpoint "streaming_sse" "GET" "/v1/streaming/sse",
    endpoint "streaming_ndjson" "GET" "/v1/streaming/ndjson"]⟩

def paginationEndpoints : Group :=
  ⟨lit "pagination", [endpoint "pagination_link" "GET" "/v1/pagination/link",
    endpoint "pagination_odata" "GET" "/v1/pagination/odata",
    endpoint "pagination_cursor" "GET" "/v1/pagination/cursor"]⟩

def securityEndpoints : Group :=
  ⟨lit "security", [endpoint "security_admin" "GET" "/v1/security/admin/secret",
    endpoint "security_fetch" "GET" "/v1/security/fetch",
    endpoint "security_big_headers" "GET" "/v1/security/big-headers",
    endpoint "security_redirect_to" "POST" "/v1/security/redirect-to",
    endpoint "security_control_chars" "GET" "/v1/security/control-chars"]⟩

def exportEndpoints : Group :=
  ⟨lit "export", [endpoint "export_big_body" "GET" "/v1/export/big-body",
    endpoint "export_csv" "GET" "/v1/export/csv",
    endpoint "export_long_running" "GET" "/v1/export/long-running"]⟩

/-! ### The routes of all groups -/

/-- Method and path of each route. -/
def routeTable : List (GoString × GoString) :=
  [("GET", "/v1/whoami"), ("GET", "/v1/headers"),
    ("GET", "/v1/fixed/\x7bkey\x7d"), ("GET", "/v1/sized"), ("GET", "/v1/lorem"),
    ("GET", "/v1/status/\x7bcode\x7d"), ("GET", "/v1/slow"), ("GET", "/v1/flaky"),
    ("GET", "/v1/echo"), ("POST", "/v1/echo"), ("PUT", "/v1/echo"), ("PATCH", "/v1/echo"),
    ("DELETE", "/v1/echo"), ("HEAD", "/v1/echo"),
    ("GET", "/v1/streaming/chunked"), ("GET", "/v1/streaming/sse"), ("GET", "/v1/streaming/ndjson"),
    ("GET", "/v1/pagination/link"), ("GET", "/v1/pagination/odata"), ("GET", "/v1/pagination/cursor"),
    ("GET", "/v1/method/echo"), ("POST", "/v1/method/echo"), ("PUT", "/v1/method/echo"),
    ("PATCH", "/v1/method/echo"), ("DELETE", "/v1/method/echo"), ("HEAD", "/v1/method/echo"),
    ("OPTIONS", "/v1/method/echo"),
    ("GET", "/v1/security/admin/secret"), ("GET", "/v1/security/fetch"),
    ("GET", "/v1/security/big-headers"), ("POST", "/v1/security/redirect-to"),
    ("GET", "/v1/security/control-chars"),
    ("GET", "/v1/export/big-body"), ("GET", "/v1/export/csv"), ("GET", "/v1/export/long-running")].map
    fun r => (lit r.1, lit r.2)

theorem routeTable_v1 : ∀ r ∈ routeTable, validMethod r.1 ∧ lit "/v1/" <+: r.2 := by
  simp only [routeTable, List.map_cons, List.map_nil]
  repeat rw [lit_ofList]
  decide +kernel

/-- The patterns of all routes. -/
def routePatterns : List Pattern :=
  routeTable.filterMap fun r => @parsePattern allNames (r.1 ++ 0x20 :: r.2)

theorem routePatterns_specific : ∀ p ∈ routePatterns, ∀ q ∈ routePatterns,
    q.servesMethod p.method → q.precedes p = false := by
  simp only [routePatterns, routeTable, List.map_cons, List.map_nil]
  repeat rw [lit_ofList]
  decide +kernel

/-! ### The registry -/

section Reflecting
variable [UnicodeCase] [ResponseJSON] (redactKeys : List GoString)

def identityEndpoints : Group := ⟨lit "identity", (identityRoutes redactKeys).map Prod.fst⟩

def echoEndpoints : Group := ⟨lit "echo", (echoRoutes redactKeys).map Prod.fst⟩

def methodsEndpoints : Group := ⟨lit "methods", methodsRoutes.map Prod.fst⟩

/-- `EndpointsConfig`: which groups are enabled. -/
structure EndpointsConfig where
  identityEnabled : Bool
  dataEnabled : Bool
  failureEnabled : Bool
  streamingEnabled : Bool
  paginationEnabled : Bool
  methodsEnabled : Bool
  securityEnabled : Bool
  exportEnabled : Bool
  echoEnabled : Bool

/-- A group is added if it is enabled. -/
def addIf (enabled : Bool) (g : Group) (r : Registry) : Registry := if enabled then r.add g else r

def buildRegistry (cfg : EndpointsConfig) : Registry :=
  Registry.new
    |> addIf cfg.identityEnabled (identityEndpoints redactKeys)
    |> addIf cfg.dataEnabled dataEndpoints
    |> addIf cfg.failureEnabled failureEndpoints
    |> addIf cfg.echoEnabled (echoEndpoints redactKeys)
    |> addIf cfg.streamingEnabled streamingEndpoints
    |> addIf cfg.paginationEnabled paginationEndpoints
    |> addIf cfg.methodsEnabled methodsEndpoints
    |> addIf cfg.securityEnabled securityEndpoints
    |> addIf cfg.exportEnabled exportEndpoints

/-- All groups, in the order they are added. -/
def builtinGroups : List Group :=
  [identityEndpoints redactKeys, dataEndpoints, failureEndpoints, echoEndpoints redactKeys,
    streamingEndpoints, paginationEndpoints, methodsEndpoints, securityEndpoints, exportEndpoints]

omit [UnicodeCase] [ResponseJSON] in
theorem mem_flat_addIf {enabled : Bool} {g : Group} {r : Registry} {e : RouteEntry}
    (h : e ∈ (addIf enabled g r).flat) : e ∈ r.flat ∨ e ∈ g.index := by
  unfold addIf at h
  split_ifs at h
  · exact List.mem_append.mp h
  · exact Or.inl h

theorem mem_builtin {cfg : EndpointsConfig} {e : RouteEntry}
    (h : e ∈ (buildRegistry redactKeys cfg).flat) :
    e ∈ (builtinGroups redactKeys).flatMap Group.index := by
  have hcases {enabled : Bool} {g : Group} {r : Registry} (hg : g ∈ builtinGroups redactKeys)
      (hr : e ∈ r.flat → e ∈ (builtinGroups redactKeys).flatMap Group.index)
      (h : e ∈ (addIf enabled g r).flat) : e ∈ (builtinGroups redactKeys).flatMap Group.index := by
    obtain hr' | hg' := mem_flat_addIf h
    · exact hr hr'
    · exact List.mem_flatMap.mpr ⟨g, hg, hg'⟩
  -- one addition after the other, down to the empty registry
  repeat refine hcases (by simp [builtinGroups]) ?_ h; clear h; intro h
  cases h

theorem routeTable_eq : ((builtinGroups redactKeys).flatMap Group.index).map
    (fun e => (e.endpoint.method, e.endpoint.path)) = routeTable := by
  simp only [builtinGroups, Group.index, List.flatMap_cons, List.flatMap_nil, identityEndpoints,
    dataEndpoints, failureEndpoints, echoEndpoints, streamingEndpoints, paginationEndpoints,
    methodsEndpoints, securityEndpoints, exportEndpoints, identityRoutes, echoRoutes, methodsRoutes,
    supportedMethods, endpoint, List.map_cons, List.map_nil, routeTable, List.cons_append,
    List.nil_append]

theorem mem_routeTable {cfg : EndpointsConfig} {e : RouteEntry}
    (h : e ∈ (buildRegistry redactKeys cfg).flat) :
    (e.endpoint.method, e.endpoint.path) ∈ routeTable := by
  rw [← routeTable_eq redactKeys]
  exact List.mem_map_of_mem (mem_builtin redactKeys h)

/-! ### No route takes another's requests -/

variable [WildcardNames] {cfg : EndpointsConfig} {e : RouteEntry} {p : Pattern}

theorem mem_routePatterns (he : e ∈ (buildRegistry redactKeys cfg).flat)
    (hp : parsePattern e.pattern = some p) : p ∈ routePatterns :=
  List.mem_filterMap.mpr ⟨_, mem_routeTable redactKeys he, parsePattern_allNames hp⟩

/-- A route of the built registry that accepts a request another one is for does
not go before it. -/
theorem not_precedes (he : e ∈ (buildRegistry redactKeys cfg).flat)
    (hp : parsePattern e.pattern = some p) {f : RouteEntry}
    (hf : f ∈ (buildRegistry redactKeys cfg).flat) {q : Pattern}
    (hq : parsePattern f.pattern = some q) {host : GoString} {segments : List GoString}
    (haccepts : q.accepts host e.endpoint.method segments) : q.precedes p = false := by
  obtain ⟨hvalid, hv1⟩ := routeTable_v1 _ (mem_routeTable redactKeys he)
  obtain ⟨hmethod, -⟩ := pattern_of_route hvalid hv1 hp
  simp only [Pattern.accepts, Bool.and_eq_true] at haccepts
  exact routePatterns_specific p (mem_routePatterns redactKeys he hp) q
    (mem_routePatterns redactKeys hf hq) (hmethod ▸ haccepts.1.2)

end Reflecting

end ApiTest.Server
