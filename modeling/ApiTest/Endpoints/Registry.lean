import ApiTest.Net.ServeMux

/-! The endpoint registry (`pkg/endpoints/registry.go`). Groups are added one
after the other; each route is indexed with the segments of its path, in the
order of registration. The audit middleware resolves a live request with
`routeForRequest`, a walk over that index that is independent of the mux the
same routes are mounted on. Of a route's metadata only what the walk and the
mount read is kept. -/

namespace ApiTest.Endpoints

open ApiTest.Text ApiTest.Net

structure EndpointMeta where
  name : GoString
  method : GoString
  path : GoString
  deriving DecidableEq, Repr

/-- A group of endpoints: its `Name()` and its `Routes()`. -/
structure Group where
  name : GoString
  routes : List EndpointMeta

structure RouteEntry where
  group : GoString
  endpoint : EndpointMeta
  segs : List GoString
  deriving DecidableEq, Repr

/-- The slash-separated segments of a path, without the empty ones. -/
def splitPathSegments (p : GoString) : List GoString := (p.splitOn slash).filter (· ≠ [])

/-- The index entries `Add` makes for a group. -/
def Group.index (g : Group) : List RouteEntry :=
  g.routes.map fun route => ⟨g.name, route, splitPathSegments route.path⟩

/-- The groups and their flat index, which is always that of the groups. -/
structure Registry where
  groups : List Group
  flat : List RouteEntry
  indexed : flat = groups.flatMap Group.index

namespace Registry

def new : Registry := ⟨[], [], rfl⟩

def add (r : Registry) (g : Group) : Registry where
  groups := r.groups ++ [g]
  flat := r.flat ++ g.index
  indexed := by simp [r.indexed]

/-- Each route is indexed with the segments of its own path. -/
theorem segs_of_mem {r : Registry} {e : RouteEntry} (h : e ∈ r.flat) :
    e.segs = splitPathSegments e.endpoint.path := by
  rw [r.indexed, List.mem_flatMap] at h
  obtain ⟨g, -, he⟩ := h
  obtain ⟨route, -, rfl⟩ := List.mem_map.mp he
  rfl

end Registry

/-! ### Resolving a request -/

/-- A pattern segment written `{...}`. -/
def isPlaceholder (p : GoString) : Bool :=
  2 ≤ p.length && p.head? == some 0x7B && p.getLast? == some 0x7D

/-- Equal lengths, and each pattern segment is a placeholder or the request's
segment itself. -/
def matchSegments (patternSegs requestSegs : List GoString) : Bool :=
  patternSegs.length == requestSegs.length &&
    (patternSegs.zip requestSegs).all fun (p, q) => isPlaceholder p || p == q

theorem matchSegments_cons (p q : GoString) (ps qs : List GoString) :
    matchSegments (p :: ps) (q :: qs) = ((isPlaceholder p || p == q) && matchSegments ps qs) := by
  simp only [matchSegments, List.length_cons, List.zip_cons_cons, List.all_cons]
  rw [show (ps.length + 1 == qs.length + 1) = (ps.length == qs.length) from by simp]
  ac_rfl

/-- The entry matches a live request. -/
def RouteEntry.resolves (e : RouteEntry) (method : GoString) (reqSegs : List GoString) : Bool :=
  e.endpoint.method == method && matchSegments e.segs reqSegs

namespace Registry

/-- The group and name of the first entry that matches, two empty strings
without one. -/
def routeForRequest (r : Registry) (method requestPath : GoString) : GoString × GoString :=
  let reqSegs := splitPathSegments requestPath
  match r.flat.find? fun e => e.resolves method reqSegs with
  | some e => (e.group, e.endpoint.name)
  | none => ([], [])

/-- The first entry that matches gives the labels. -/
theorem routeForRequest_eq {r : Registry} {before after : List RouteEntry} {e : RouteEntry}
    {method path : GoString} (hflat : r.flat = before ++ e :: after)
    (he : e.resolves method (splitPathSegments path))
    (hbefore : ∀ f ∈ before, f.resolves method (splitPathSegments path) = false) :
    r.routeForRequest method path = (e.group, e.endpoint.name) := by
  have hfind : r.flat.find? (fun e => e.resolves method (splitPathSegments path)) = some e := by
    rw [List.find?_eq_some_iff_append]
    refine ⟨he, before, after, hflat, ?_⟩
    intro f hf
    rw [hbefore f hf, Bool.not_false]
  simp only [routeForRequest, hfind]

end Registry

/-! ### Mounting -/

/-- What a pattern of the served mux leads to: a route of the registry, or a
handler mounted beside it (health, portal, documents). -/
inductive Handler where
  | route (e : RouteEntry)
  | other
  deriving DecidableEq, Repr

/-- The pattern a route is mounted under, `METHOD PATH`. -/
def RouteEntry.pattern (e : RouteEntry) : GoString := e.endpoint.method ++ 0x20 :: e.endpoint.path

/-- The registration of an indexed route. -/
def RouteEntry.mount (e : RouteEntry) : GoString × Handler := (e.pattern, .route e)

section Mount
variable [WildcardNames]

/-- Each group mounts its routes as it lists them. -/
def Group.mount (g : Group) (mux : ServeMux Handler) : Option (ServeMux Handler) :=
  mux.handleAll (g.index.map RouteEntry.mount)

namespace Registry

/-- `Registry.Mount`: group after group. -/
def mount (r : Registry) (mux : ServeMux Handler) : Option (ServeMux Handler) :=
  r.groups.foldlM (fun mux g => g.mount mux) mux

/-- Mounting a registry registers its index entry by entry. -/
theorem mount_eq (r : Registry) (mux : ServeMux Handler) :
    r.mount mux = mux.handleAll (r.flat.map RouteEntry.mount) := by
  unfold mount
  rw [r.indexed]
  generalize r.groups = groups
  induction groups generalizing mux with
  | nil => rfl
  | cons g groups ih =>
    rw [List.foldlM_cons, List.flatMap_cons, List.map_append, ServeMux.handleAll,
      List.foldlM_append]
    exact congrArg _ (funext ih)

/-- The composed mux: handlers of the server, the registry, further handlers of
the server. -/
def serve (r : Registry) (before after : List GoString) : Option (ServeMux Handler) := do
  let mux ← ServeMux.empty.handleAll (before.map fun pattern => (pattern, Handler.other))
  let mux ← r.mount mux
  mux.handleAll (after.map fun pattern => (pattern, Handler.other))

end Registry

end Mount

end ApiTest.Endpoints
