import ApiTest.Endpoints.Operations
import ApiTest.Oapi.GoType
import ApiTest.Portal.TryIt
import ApiTest.Text.Utf8

/-! The OpenAPI generator (`pkg/oapi/build.go`): an operation for each route of the
registry, with the parameters read off its path template and off the types that stand
for its inputs. Where a type is recursive the generator may not return; its functions
have no result then. -/

namespace ApiTest.Oapi

open Text Json Dictionary Net Portal

/-- `endpoints.EndpointMeta` with all its fields; the example values stand for their
types. -/
structure Route extends Endpoints.EndpointMeta where
  group : GoString := []
  description : GoString := []
  authRequired : Bool := false
  pathParams : Option GoType := none
  queryParams : Option GoType := none
  requestBody : Option GoType := none
  responseBody : Option GoType := none

structure Group where
  name : GoString
  routes : List Route

structure Registry where
  groups : List Group

/-- What the rest of the server sees of a group. -/
def Group.endpoints (g : Group) : Endpoints.Group := ⟨g.name, g.routes.map Route.toEndpointMeta⟩

def Registry.endpoints (reg : Registry) : Endpoints.Registry where
  groups := reg.groups.map Group.endpoints
  flat := (reg.groups.map Group.endpoints).flatMap Endpoints.Group.index
  indexed := rfl

/-- `Registry.All`. -/
def Registry.all (reg : Registry) : List Route := reg.groups.flatMap Group.routes

theorem Registry.all_endpoints (reg : Registry) :
    reg.endpoints.all = reg.all.map Route.toEndpointMeta := by
  simp only [Endpoints.Registry.all, Registry.endpoints, Registry.all, List.flatMap_map,
    List.map_flatMap, Group.endpoints]

/-! ### Options and results -/

structure Info where
  title : GoString := []
  description : GoString := []
  version : GoString := []

structure Server where
  url : GoString
  description : GoString := []

structure BuildOptions where
  info : Info := {}
  servers : List Server := []
  apiKeyHeader : GoString := []
  bearerEnabled : Bool := false

inductive ParamIn where
  | path | query
  deriving DecidableEq, Repr

structure Parameter where
  name : GoString
  in_ : ParamIn
  required : Bool
  schema : Schema

/-- A media type is given by its schema. -/
structure RequestBody where
  required : Bool
  content : List (GoString × Schema)

structure Response where
  description : GoString
  content : List (GoString × Schema) := []

structure Operation where
  operationID : GoString
  description : GoString
  tags : List GoString
  parameters : List Parameter
  requestBody : Option RequestBody
  responses : List (GoString × Response)
  security : List (List (GoString × List GoString))

structure SecurityScheme where
  type : GoString
  in_ : GoString := []
  name : GoString := []
  scheme : GoString := []
  description : GoString

/-- The document; `Endpoints.Document` has its paths. -/
structure Document extends Endpoints.Document Operation where
  openapi : GoString
  info : Info
  servers : List Server
  components : Option (List (GoString × SecurityScheme))
  tags : List GoString

def apiKeyScheme (header : GoString) : SecurityScheme where
  type := lit "apiKey"
  in_ := lit "header"
  name := header
  description := lit "Inbound API key header. Configured by api_keys.header_name."

def bearerScheme : SecurityScheme where
  type := lit "http"
  scheme := lit "bearer"
  description := lit "Inbound bearer token validated against the static bearer.tokens list " ++
    lit "or the OIDC validator when enabled."

def componentsFor (opts : BuildOptions) : Option (List (GoString × SecurityScheme)) :=
  let schemes :=
    (if opts.apiKeyHeader ≠ [] then [(lit "apiKey", apiKeyScheme opts.apiKeyHeader)] else []) ++
      if opts.bearerEnabled then [(lit "bearer", bearerScheme)] else []
  match schemes with
  | [] => none
  | schemes => some schemes

/-- The distinct names of the groups, sorted. -/
def tagsFor (reg : Registry) : List GoString :=
  ((reg.groups.map Group.name).dedup).insertionSort (· ≤ ·)

def securityRequirement (opts : BuildOptions) : List (List (GoString × List GoString)) :=
  (if opts.apiKeyHeader ≠ [] then [[(lit "apiKey", [])]] else []) ++
    if opts.bearerEnabled then [[(lit "bearer", [])]] else []

/-- Each security requirement is of a scheme among the components. -/
theorem securityRequirement_declared {opts : BuildOptions} {requirement : List (GoString × List GoString)}
    (h : requirement ∈ securityRequirement opts) :
    ∃ schemes, componentsFor opts = some schemes ∧
      ∀ e ∈ requirement, e.1 ∈ schemes.map Prod.fst := by
  unfold securityRequirement at h
  unfold componentsFor
  by_cases hheader : opts.apiKeyHeader = []
  · cases hbearer : opts.bearerEnabled <;> simp_all
  · cases hbearer : opts.bearerEnabled <;> simp_all
    rcases h with rfl | rfl <;> simp

/-! ### Path parameters -/

/-- The matches of `pathParamPattern` in at most `fuel` steps. -/
def pathParamNamesFrom : ℕ → GoString → List GoString
  | 0, _ => []
  | _ + 1, [] => []
  | fuel + 1, c :: s =>
    match (if c = openBrace then placeholderName s else none) with
    | none => pathParamNamesFrom fuel s
    | some (name, rest) => name :: pathParamNamesFrom fuel rest

/-- The names `FindAllStringSubmatch` finds in a path. -/
def pathParamNames (path : GoString) : List GoString := pathParamNamesFrom path.length path

section Schemas

/-- The type behind any number of pointers; none is behind a pointer to itself. -/
def GoType.pointee : GoType → Option GoType
  | .ptr t => t.pointee
  | .self => none
  | t => some t

variable [UnicodeFold]

/-- `lookupFieldByJSONName`: the first field of that name, up to case. -/
def lookupFieldByJSONName (t : GoType) (target : GoString) : Option (Option GoType) :=
  t.pointee.map fun
    | .struct fs =>
      (fs.described.find? fun d => d.1.name = target || equalFoldRunes d.1.name target).map Prod.snd
    | _ => none

def pathParamSchema (name : GoString) : Option GoType → Option Schema
  | none => some { type := some .string }
  | some t => (lookupFieldByJSONName t name).bind fun
    | some ft => schemaFromType ft
    | none => some { type := some .string }

/-- The query parameters among `parametersFor`. -/
def queryParameters : Option GoType → Option (List Parameter)
  | none => some []
  | some t => t.pointee.bind fun
    | .struct fs => fs.described.mapM fun d => (schemaFromType d.2).map fun s =>
        { name := d.1.name, in_ := .query, required := !d.1.omitEmpty, schema := s }
    | _ => some []

def pathParameters (route : Route) : Option (List Parameter) :=
  (pathParamNames route.path).mapM fun name => (pathParamSchema name route.pathParams).map fun s =>
    { name := name, in_ := .path, required := true, schema := s }

def parametersFor (route : Route) : Option (List Parameter) :=
  (pathParameters route).bind fun path => (queryParameters route.queryParams).map fun query =>
    path ++ query

end Schemas

/-- The content of a body of the given type. -/
def contentOf (t : GoType) : Option (List (GoString × Schema)) :=
  (schemaFromType t).map fun s => [(lit "application/json", s)]

def responsesFor (route : Route) : Option (List (GoString × Response)) :=
  match route.responseBody with
  | some t => (contentOf t).map fun content =>
    [(lit "200", { description := lit "Success", content := content })]
  | none => some [(lit "200", { description := lit "Success" })]

def requestBodyFor (route : Route) : Option (Option RequestBody) :=
  match route.requestBody with
  | some t => (contentOf t).map fun content => some { required := true, content := content }
  | none => some none

section Build
variable [UnicodeFold]

def operationFor (route : Route) (opts : BuildOptions) : Option Operation := do
  let parameters ← parametersFor route
  let responses ← responsesFor route
  let requestBody ← requestBodyFor route
  return { operationID := route.name
           description := route.description
           tags := [route.group]
           parameters := parameters
           requestBody := requestBody
           responses := responses
           security := if route.authRequired then securityRequirement opts else [] }

variable [UnicodeUpper]

/-- One turn of the loop of `Build`. -/
def Document.add (opts : BuildOptions) (doc : Document) (route : Route) : Option Document :=
  (operationFor route opts).map fun op =>
    { doc with toDocument := doc.toDocument.addRoute (fun _ => op) route.toEndpointMeta }

/-- `Build`; `none` if it does not return. -/
def build (reg : Registry) (opts : BuildOptions) : Option Document :=
  reg.all.foldlM (Document.add opts)
    { openapi := lit "3.1.0"
      info := opts.info
      servers := opts.servers
      components := componentsFor opts
      tags := tagsFor reg }

end Build

end ApiTest.Oapi
