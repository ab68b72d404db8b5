import ApiTest.Endpoints.Registry
import ApiTest.Text.Strings
import Mathlib.Data.List.Dedup
import Mathlib.Data.List.Sort

/-! The OpenAPI document as a table of operations (`pkg/oapi`). `Build` enters one
operation for each route under its path and upper-cased method, and `SelfCheck`
compares the table with the registry before the server starts. What an operation
says is left open: the check reads only which operations there are. -/

namespace ApiTest.Endpoints

open ApiTest.Text ApiTest.Net

/-- The operations of one path. -/
structure PathItem (ω : Type) where
  get : Option ω := none
  post : Option ω := none
  put : Option ω := none
  patch : Option ω := none
  delete : Option ω := none
  head : Option ω := none
  options : Option ω := none

/-- `Document.Paths`: the keys are distinct, and the order of the list stands for
some iteration order. -/
structure Document (ω : Type) where
  paths : List (GoString × PathItem ω) := []

variable {ω : Type}

/-- The methods of a path item, in the order of the source. -/
def PathItem.methods (p : PathItem ω) : List GoString :=
  (if p.get.isSome then [lit "GET"] else []) ++ (if p.post.isSome then [lit "POST"] else []) ++
    (if p.put.isSome then [lit "PUT"] else []) ++ (if p.patch.isSome then [lit "PATCH"] else []) ++
    (if p.delete.isSome then [lit "DELETE"] else []) ++
    (if p.head.isSome then [lit "HEAD"] else []) ++
    (if p.options.isSome then [lit "OPTIONS"] else [])

/-- The flat list of routes, `Registry.All`. -/
def Registry.all (reg : Registry) : List EndpointMeta := reg.groups.flatMap Group.routes

theorem Registry.mem_all_of_flat {reg : Registry} {e : RouteEntry} (h : e ∈ reg.flat) :
    e.endpoint ∈ reg.all := by
  rw [reg.indexed, List.mem_flatMap] at h
  obtain ⟨g, hg, he⟩ := h
  obtain ⟨route, hroute, rfl⟩ := List.mem_map.mp he
  exact List.mem_flatMap.mpr ⟨g, hg, hroute⟩

/-- A key of the two route sets, `METHOD PATH`. -/
def routeKey (method path : GoString) : GoString := method ++ 0x20 :: path

def Document.routeSet (doc : Document ω) : List GoString :=
  doc.paths.flatMap fun (path, item) => item.methods.map fun m => routeKey m path

/-- Write an entry of the map. -/
def Document.setPath (doc : Document ω) (path : GoString) (item : PathItem ω) : Document ω where
  paths :=
    if path ∈ doc.paths.map Prod.fst then
      doc.paths.map fun e => if e.1 = path then (path, item) else e
    else doc.paths ++ [(path, item)]

/-- The keys of one set that the other lacks, sorted. -/
def missing (routes others : List GoString) : List GoString :=
  ((routes.filter (· ∉ others)).dedup).insertionSort (· ≤ ·)

theorem missing_eq_nil {routes others : List GoString} :
    missing routes others = [] ↔ ∀ key ∈ routes, key ∈ others := by
  rw [List.eq_nil_iff_forall_not_mem]
  unfold missing
  simp only [List.mem_insertionSort, List.mem_dedup, List.mem_filter, decide_eq_true_eq, not_and,
    not_not]

/-- A part of the message of `SelfCheck`, if it has something to list. -/
def mismatch (label : GoString) (keys : List GoString) : List GoString :=
  if keys = [] then [] else [label ++ (lit ", ").intercalate keys]

section Build
variable [UnicodeUpper] (operationFor : EndpointMeta → ω)

/-- `assignOperation`; a method outside the seven is dropped. -/
def PathItem.assignOperation (p : PathItem ω) (method : GoString) (op : ω) : PathItem ω :=
  let m := toUpper method
  if m = lit "GET" then { p with get := some op }
  else if m = lit "POST" then { p with post := some op }
  else if m = lit "PUT" then { p with put := some op }
  else if m = lit "PATCH" then { p with patch := some op }
  else if m = lit "DELETE" then { p with delete := some op }
  else if m = lit "HEAD" then { p with head := some op }
  else if m = lit "OPTIONS" then { p with options := some op }
  else p

/-- One turn of the loop of `Build`. -/
def Document.addRoute (doc : Document ω) (route : EndpointMeta) : Document ω :=
  let item := (doc.paths.lookup route.path).getD {}
  doc.setPath route.path (item.assignOperation route.method (operationFor route))

/-- `oapi.Build`. -/
def build (reg : Registry) : Document ω := reg.all.foldl (Document.addRoute operationFor) {}

def Registry.routeSet (reg : Registry) : List GoString :=
  reg.all.map fun route => routeKey (toUpper route.method) route.path

/-- `SelfCheck`: the message of its error, or `none`. -/
def selfCheck (doc : Document ω) (reg : Registry) : Option GoString :=
  let missingInDoc := missing reg.routeSet doc.routeSet
  let missingInRegistry := missing doc.routeSet reg.routeSet
  if missingInDoc = [] ∧ missingInRegistry = [] then none
  else
    some (lit "openapi/registry mismatch: " ++ (lit "; ").intercalate
      (mismatch (lit "missing from openapi doc: ") missingInDoc ++
        mismatch (lit "missing from registry: ") missingInRegistry))

/-- The check passes exactly if document and registry have the same keys. -/
theorem selfCheck_eq_none {doc : Document ω} {reg : Registry} :
    selfCheck doc reg = none ↔ ∀ key, key ∈ reg.routeSet ↔ key ∈ doc.routeSet := by
  have hboth : (missing reg.routeSet doc.routeSet = [] ∧ missing doc.routeSet reg.routeSet = []) ↔
      ∀ key, key ∈ reg.routeSet ↔ key ∈ doc.routeSet := by
    rw [missing_eq_nil, missing_eq_nil, ← forall_and]
    exact forall_congr' fun key => iff_def.symm
  rw [← hboth]
  unfold selfCheck
  simp only
  split_ifs with h
  · exact ⟨fun _ => h, fun _ => rfl⟩
  · exact ⟨False.elim, fun hnone => absurd hnone h⟩

end Build

end ApiTest.Endpoints
