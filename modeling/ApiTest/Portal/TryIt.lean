import ApiTest.Endpoints.Document
import ApiTest.Portal.Dispatch

/-! Try-It: the operator picks a registered route, fills in its placeholders,
query, headers and body, and the portal sends the request to the mux. The model
follows `tryIt` up to the dispatch. -/

open ApiTest.Inbound

namespace ApiTest.Portal

open Text Audit Net Middleware Multimap Endpoints

/-! ### Path parameters -/

def openBrace : UInt8 := 0x7B
def closeBrace : UInt8 := 0x7D

/-- A match of `pathParamRe` behind an opening brace: the name, and what follows
the closing brace. -/
def placeholderName (s : GoString) : Option (GoString × GoString) :=
  let name := s.takeWhile fun c => c ≠ closeBrace && c ≠ slash
  match s.drop name.length with
  | c :: rest => if name ≠ [] ∧ c = closeBrace then some (name, rest) else none
  | [] => none

/-- A name up to its closing brace is a match. -/
theorem placeholderName_eq_some {name : GoString} (hne : name ≠ []) (hclose : closeBrace ∉ name)
    (hslash : slash ∉ name) (s : GoString) :
    placeholderName (name ++ closeBrace :: s) = some (name, s) := by
  have htake : (name ++ closeBrace :: s).takeWhile (fun c => c ≠ closeBrace && c ≠ slash) = name := by
    rw [List.takeWhile_append_of_pos, List.takeWhile_cons_of_neg (by simp), List.append_nil]
    intro c hc
    simp [ne_of_mem_of_not_mem hc hclose, ne_of_mem_of_not_mem hc hslash]
  simp only [placeholderName, htake, List.drop_left]
  rw [if_pos ⟨hne, trivial⟩]

/-- What the replacement function makes of a placeholder: its text, or what it
reports as missing. -/
def substituteParam (params : List (GoString × GoString)) (name : GoString) :
    Except GoString GoString :=
  match params.lookup name with
  | none => .error name
  | some v =>
    if v = [] then .error name
    else if slash ∈ v then .error (name ++ lit " (contains '/')")
    else .ok (pathEscape v)

/-- The replaced text of at most `fuel` bytes and the reports, in order. -/
def substituteFrom (params : List (GoString × GoString)) : ℕ → GoString → GoString × List GoString
  | 0, _ => ([], [])
  | _ + 1, [] => ([], [])
  | fuel + 1, c :: s =>
    match (if c = openBrace then placeholderName s else none) with
    | none =>
      let (out, missing) := substituteFrom params fuel s
      (c :: out, missing)
    | some (name, rest) =>
      let (out, missing) := substituteFrom params fuel rest
      match substituteParam params name with
      | .ok text => (text ++ out, missing)
      | .error report => (openBrace :: name ++ closeBrace :: out, report :: missing)

/-- `substitutePathParams`. -/
def substitutePathParams (template : GoString) (params : List (GoString × GoString)) :
    Except GoString GoString :=
  let (out, missing) := substituteFrom params template.length template
  if missing = [] then .ok out
  else .error (lit "missing or invalid path params: " ++ (lit ", ").intercalate missing)

example : (substitutePathParams (lit "/v1/fixed/\x7bkey\x7d") [(lit "key", lit "a b")]).toOption =
    some (lit "/v1/fixed/a%20b") := by decide

/-! ### The dispatch -/

def tryItHeaderMarker : GoString := lit "X-Plexara-Try-It"
def tryItMaxBodyBytes : ℕ := 2 ^ 20

structure TryItRequest where
  method : GoString := []
  pathParams : List (GoString × GoString) := []
  queryParams : Values := []
  headers : Values := []
  body : GoString := []

/-- Why nothing is dispatched. -/
inductive TryItRefusal where
  | noTarget
  | notRegistered (group route : GoString)
  | badBody
  | badParams (message : GoString)
  | badPath
  | badRequest

def TryItRefusal.status : TryItRefusal → ℕ
  | .noTarget => 503
  | .notRegistered _ _ => 404
  | .badBody => 400
  | .badParams _ => 400
  | .badPath => 500
  | .badRequest => 400

/-- An error for a missing value. -/
def orRefuse {ε α : Type} (e : ε) : Option α → Except ε α
  | none => .error e
  | some a => .ok a

@[simp] theorem orRefuse_eq_ok {ε α : Type} {e : ε} {o : Option α} {a : α} :
    orRefuse e o = .ok a ↔ o = some a := by
  cases o <;> simp [orRefuse]

theorem ok_bind {ε α β : Type} (a : α) (f : α → Except ε β) : (Except.ok a >>= f) = f a := rfl

theorem bind_eq_ok {ε α β : Type} {x : Except ε α} {f : α → Except ε β} {b : β} :
    (x >>= f) = .ok b ↔ ∃ a, x = .ok a ∧ f a = .ok b := by
  cases x with
  | error e => simp [bind, Except.bind]
  | ok a => simp [bind, Except.bind]

theorem ok_of_toOption {ε α : Type} {x : Except ε α} {a : α} (h : x.toOption = some a) :
    x = .ok a := by
  cases x with
  | error e => cases h
  | ok b =>
    cases h
    rfl

/-- `findRoute`; the `Group` of a route is the name of the group it is in. -/
def findRoute (registry : Option Registry) (group route : GoString) : Option EndpointMeta :=
  registry.bind fun reg =>
    (reg.flat.find? fun e => e.group = group && e.endpoint.name = route).map RouteEntry.endpoint

/-- `values.Add` for every value of a query map. -/
def addedValues (q : Values) : Values := ofPairs (toPairs q)

/-- The URL of a Try-It request on a substituted path. -/
def tryItURL [HostSyntax] (path : GoString) (queryParams : Values) : Option URL :=
  (parse path).map fun u =>
    if queryParams.length > 0 then { u with rawQuery := encodeQuery (addedValues queryParams) } else u

/-- `tryIt` up to the dispatch. The decoded body is `none` if it is no valid
JSON. -/
def dispatchTryIt [UnicodeCase] [HostSyntax] (wired : Bool) (registry : Option Registry)
    (operator : Option Auth.Identity) (group route : GoString) (decoded : Option TryItRequest) :
    Except TryItRefusal OutRequest :=
  if !wired then .error .noTarget
  else do
    let endpoint ← orRefuse (.notRegistered group route) (findRoute registry group route)
    let req ← orRefuse .badBody decoded
    let path ← (substitutePathParams endpoint.path req.pathParams).mapError .badParams
    let u ← orRefuse .badPath (tryItURL path req.queryParams)
    let r ← orRefuse .badRequest (newRequest (orDefault req.method endpoint.method) u.string
      (req.body.take tryItMaxBodyBytes) (operator.map portalIdentityToInbound))
    .ok { r with header := headerSet (tryItHeaders req.headers) tryItHeaderMarker (lit "true") }

/-- What a dispatched request is made of. -/
structure TriedIt [UnicodeCase] [HostSyntax] (endpoint : EndpointMeta) (req : TryItRequest)
    (operator : Option Auth.Identity) (path : GoString) (u : URL) (r : OutRequest) : Prop where
  substituted : substitutePathParams endpoint.path req.pathParams = .ok path
  tryItURL : tryItURL path req.queryParams = some u
  url : parse u.string = some r.url
  method : r.method = orDefault (orDefault req.method endpoint.method) (lit "GET")
  header : r.header = headerSet (tryItHeaders req.headers) tryItHeaderMarker (lit "true")
  body : r.body = req.body.take tryItMaxBodyBytes
  identity : r.identity = operator.map portalIdentityToInbound

theorem dispatchTryIt_eq_ok [UnicodeCase] [HostSyntax] {wired : Bool} {registry : Option Registry}
    {operator : Option Auth.Identity} {group route : GoString} {decoded : Option TryItRequest}
    {r : OutRequest} (h : dispatchTryIt wired registry operator group route decoded = .ok r) :
    ∃ endpoint req path u, findRoute registry group route = some endpoint ∧ decoded = some req ∧
      TriedIt endpoint req operator path u r := by
  unfold dispatchTryIt at h
  split_ifs at h
  simp only [bind_eq_ok, orRefuse_eq_ok] at h
  obtain ⟨endpoint, hendpoint, req, hreq, path, hpath, u, hu, out, hout, h⟩ := h
  obtain ⟨hmethod, hurl, -, hbody, hidentity⟩ := newRequest_eq_some hout
  have hsubstituted : substitutePathParams endpoint.path req.pathParams = .ok path := by
    cases hsub : substitutePathParams endpoint.path req.pathParams with
    | error e =>
      rw [hsub] at hpath
      cases hpath
    | ok path' =>
      rw [hsub] at hpath
      cases hpath
      rfl
  cases h
  exact ⟨endpoint, req, path, u, hendpoint, hreq, hsubstituted, hu, hurl, hmethod, rfl, hbody,
    hidentity⟩

end ApiTest.Portal
