import ApiTest.Oapi.Build
import ApiTest.Traverse.Basic

/-! The generated document and the registry. `Build` returns if no reflection walk over
the types of a route meets a reference back; then the document has one operation for
each route with a known method, and that operation describes its route. -/

namespace ApiTest.Oapi

open Text Json Net Portal Traverse

/-! ### Path templates -/

/-- A path as text around placeholders: each name with the text behind it. -/
structure PathTemplate where
  front : GoString
  params : List (GoString × GoString)
  plain : openBrace ∉ front ∧ ∀ e ∈ params, openBrace ∉ e.2
  named : ∀ e ∈ params, e.1 ≠ [] ∧ closeBrace ∉ e.1 ∧ slash ∉ e.1

def placeholderText (e : GoString × GoString) : GoString :=
  openBrace :: (e.1 ++ closeBrace :: e.2)

def PathTemplate.text (t : PathTemplate) : GoString := t.front ++ t.params.flatMap placeholderText

def PathTemplate.names (t : PathTemplate) : List GoString := t.params.map Prod.fst

/-- Text without an opening brace is passed over. -/
theorem pathParamNamesFrom_append {text : GoString} (h : openBrace ∉ text) (fuel : ℕ)
    (s : GoString) :
    pathParamNamesFrom (text.length + fuel) (text ++ s) = pathParamNamesFrom fuel s := by
  induction text with
  | nil => simp
  | cons c text ih =>
    rw [List.mem_cons, not_or] at h
    rw [List.length_cons, Nat.add_right_comm, List.cons_append, pathParamNamesFrom,
      if_neg (Ne.symm h.1)]
    exact ih h.2

theorem pathParamNamesFrom_params {params : List (GoString × GoString)}
    (hplain : ∀ e ∈ params, openBrace ∉ e.2)
    (hnamed : ∀ e ∈ params, e.1 ≠ [] ∧ closeBrace ∉ e.1 ∧ slash ∉ e.1) {fuel : ℕ}
    (hfuel : (params.flatMap placeholderText).length ≤ fuel) :
    pathParamNamesFrom fuel (params.flatMap placeholderText) = params.map Prod.fst := by
  induction params generalizing fuel with
  | nil => cases fuel <;> rfl
  | cons e params ih =>
    rw [List.forall_mem_cons] at hplain hnamed
    obtain ⟨⟨hne, hclose, hslash⟩, hnamed⟩ := hnamed
    have hshape : (e :: params).flatMap placeholderText =
        openBrace :: (e.1 ++ closeBrace :: (e.2 ++ params.flatMap placeholderText)) := by
      simp [placeholderText]
    rw [hshape] at hfuel ⊢
    simp only [List.length_cons, List.length_append] at hfuel
    -- one step for the placeholder, then the text behind it
    obtain ⟨k, rfl⟩ : ∃ k, fuel = e.2.length + k + 1 := ⟨fuel - e.2.length - 1, by omega⟩
    rw [pathParamNamesFrom, if_pos rfl, placeholderName_eq_some hne hclose hslash]
    simp only [List.map_cons, List.cons.injEq, true_and]
    rw [pathParamNamesFrom_append hplain.1]
    exact ih hplain.2 hnamed (by omega)

/-- The generator finds the placeholders of a template, in order. -/
theorem pathParamNames_text (t : PathTemplate) : pathParamNames t.text = t.names := by
  unfold pathParamNames PathTemplate.text
  rw [List.length_append, pathParamNamesFrom_append t.plain.1]
  exact pathParamNamesFrom_params t.plain.2 t.named le_rfl

/-! ### Operations -/

/-- The fields of `QueryParams` that are exported and not skipped. -/
def Route.queryFields (route : Route) : List (JSONTag × GoType) :=
  match route.queryParams.bind GoType.pointee with
  | some (.struct fs) => fs.described
  | _ => []

def Operation.paramsIn (op : Operation) (place : ParamIn) : List Parameter :=
  op.parameters.filter (·.in_ = place)

/-- What an operation says about its route. -/
structure Describes (route : Route) (op : Operation) : Prop where
  operationID : op.operationID = route.name
  tags : op.tags = [route.group]
  pathParams : (op.paramsIn .path).map (fun p => (p.name, p.required)) =
    (pathParamNames route.path).map (·, true)
  template : ∀ t : PathTemplate, t.text = route.path → (op.paramsIn .path).map (·.name) = t.names
  queryParams : (op.paramsIn .query).map (fun p => (p.name, p.required, some p.schema)) =
    route.queryFields.map fun d => (d.1.name, !d.1.omitEmpty, schemaFromType d.2)

section
variable [UnicodeFold]

theorem mem_pathParameters {route : Route} {ps : List Parameter}
    (h : pathParameters route = some ps) : ∀ p ∈ ps, p.in_ = .path := by
  intro p hp
  obtain ⟨name, -, hname⟩ := exists_of_mem_mapM h hp
  obtain ⟨s, -, rfl⟩ := Option.map_eq_some_iff.mp hname
  rfl

theorem map_pathParameters {route : Route} {ps : List Parameter}
    (h : pathParameters route = some ps) :
    ps.map (fun p => (p.name, p.required)) = (pathParamNames route.path).map (·, true) := by
  refine map_of_mapM h fun name _ p hp => ?_
  obtain ⟨s, -, rfl⟩ := Option.map_eq_some_iff.mp hp
  rfl

omit [UnicodeFold] in
theorem queryParameters_eq_some {route : Route} {ps : List Parameter}
    (h : queryParameters route.queryParams = some ps) :
    (route.queryFields.mapM fun d => (schemaFromType d.2).map fun s =>
      ({ name := d.1.name, in_ := .query, required := !d.1.omitEmpty, schema := s } : Parameter)) =
        some ps := by
  unfold queryParameters at h
  unfold Route.queryFields
  cases hq : route.queryParams with
  | none =>
    rw [hq] at h
    exact h
  | some t =>
    simp only [hq, Option.bind_some] at h ⊢
    cases hu : t.pointee with
    | none =>
      rw [hu] at h
      cases h
    | some u =>
      rw [hu] at h
      cases u <;> exact h

omit [UnicodeFold] in
theorem mem_queryParameters {route : Route} {ps : List Parameter}
    (h : queryParameters route.queryParams = some ps) : ∀ p ∈ ps, p.in_ = .query := by
  intro p hp
  obtain ⟨d, -, hd⟩ := exists_of_mem_mapM (queryParameters_eq_some h) hp
  obtain ⟨s, -, rfl⟩ := Option.map_eq_some_iff.mp hd
  rfl

omit [UnicodeFold] in
theorem map_queryParameters {route : Route} {ps : List Parameter}
    (h : queryParameters route.queryParams = some ps) :
    ps.map (fun p => (p.name, p.required, some p.schema)) =
      route.queryFields.map fun d => (d.1.name, !d.1.omitEmpty, schemaFromType d.2) := by
  refine map_of_mapM (queryParameters_eq_some h) fun d _ p hp => ?_
  obtain ⟨s, hs, rfl⟩ := Option.map_eq_some_iff.mp hp
  rw [hs]

theorem operationFor_eq_some {route : Route} {opts : BuildOptions} {op : Operation}
    (h : operationFor route opts = some op) :
    op.operationID = route.name ∧ op.tags = [route.group] ∧
      ∃ path query, pathParameters route = some path ∧
        queryParameters route.queryParams = some query ∧ op.parameters = path ++ query := by
  simp only [operationFor, Option.bind_eq_bind, Option.pure_def, Option.bind_eq_some_iff,
    Option.some.injEq] at h
  obtain ⟨parameters, hparameters, responses, -, requestBody, -, rfl⟩ := h
  obtain ⟨path, hpath, hrest⟩ := Option.bind_eq_some_iff.mp hparameters
  obtain ⟨query, hquery, rfl⟩ := Option.map_eq_some_iff.mp hrest
  exact ⟨rfl, rfl, path, query, hpath, hquery, rfl⟩

/-- The operation of a route describes it. -/
theorem describes_of_operationFor {route : Route} {opts : BuildOptions} {op : Operation}
    (h : operationFor route opts = some op) : Describes route op := by
  obtain ⟨hid, htags, path, query, hpath, hquery, hparameters⟩ := operationFor_eq_some h
  have hpathIn : op.paramsIn .path = path := by
    rw [Operation.paramsIn, hparameters, List.filter_append, List.filter_eq_self.mpr,
      List.filter_eq_nil_iff.mpr, List.append_nil]
    · intro p hp
      simp [mem_queryParameters hquery p hp]
    · intro p hp
      simp [mem_pathParameters hpath p hp]
  have hqueryIn : op.paramsIn .query = query := by
    rw [Operation.paramsIn, hparameters, List.filter_append, List.filter_eq_nil_iff.mpr,
      List.filter_eq_self.mpr, List.nil_append]
    · intro p hp
      simp [mem_queryParameters hquery p hp]
    · intro p hp
      simp [mem_pathParameters hpath p hp]
  refine ⟨hid, htags, ?_, ?_, ?_⟩
  · rw [hpathIn, map_pathParameters hpath]
  · intro t ht
    have hnames := congrArg (List.map Prod.fst) (map_pathParameters hpath)
    rw [List.map_map, List.map_map, ← ht, pathParamNames_text] at hnames
    simpa [hpathIn, Function.comp_def] using hnames
  · rw [hqueryIn, map_queryParameters hquery]

end

/-! ### When the generator returns -/

/-- The walk over the fields of the struct behind any number of pointers ends. -/
def GoType.fieldsEnd : GoType → Bool
  | .ptr t => t.fieldsEnd
  | .self => false
  | .struct fs => fs.ends
  | _ => true

theorem fieldsEnd_eq : ∀ t : GoType, t.fieldsEnd = match t.pointee with
    | none => false
    | some (.struct fs) => fs.ends
    | some _ => true
  | .ptr t => fieldsEnd_eq t
  | .self | .struct _ | .bool | .int _ | .float | .string | .time | .any | .other | .slice _
  | .array _ _ | .map _ _ => rfl

theorem Fields.ends_eq_all (fs : Fields) : fs.ends = fs.described.all fun d => d.2.ends := by
  induction fs using Fields.induct with
  | nil => rfl
  | cons info t rest ih =>
    rw [Fields.ends, Fields.described_cons, List.all_append, ih]
    cases info.described <;> simp

theorem isSome_queryParameters (q : Option GoType) :
    (queryParameters q).isSome ↔ ∀ t ∈ q, t.fieldsEnd = true := by
  cases q with
  | none => simp [queryParameters]
  | some t =>
    rw [queryParameters]
    simp only [Option.mem_some_iff, forall_eq']
    rw [fieldsEnd_eq]
    cases t.pointee with
    | none => simp
    | some u =>
      rw [Option.bind_some]
      cases u with
      | struct fs =>
        simp only [isSome_mapM, Option.isSome_map, isSome_schemaFromType, Fields.ends_eq_all,
          List.all_eq_true]
      | _ => simp

theorem isSome_contentOf (t : GoType) : (contentOf t).isSome = t.ends := by
  rw [contentOf, Option.isSome_map, isSome_schemaFromType]

section
variable [UnicodeFold]

/-- No walk over a type of the route takes a reference back. -/
structure Route.Ends (route : Route) : Prop where
  requestBody : ∀ t ∈ route.requestBody, t.ends = true
  responseBody : ∀ t ∈ route.responseBody, t.ends = true
  queryParams : ∀ t ∈ route.queryParams, t.fieldsEnd = true
  pathParams : ∀ t ∈ route.pathParams, ∀ name ∈ pathParamNames route.path,
    ∃ found, lookupFieldByJSONName t name = some found ∧ ∀ ft ∈ found, ft.ends = true

theorem isSome_pathParameters (route : Route) : (pathParameters route).isSome ↔
    ∀ t ∈ route.pathParams, ∀ name ∈ pathParamNames route.path,
      ∃ found, lookupFieldByJSONName t name = some found ∧ ∀ ft ∈ found, ft.ends = true := by
  unfold pathParameters
  rw [isSome_mapM]
  simp only [Option.isSome_map]
  cases route.pathParams with
  | none => simp [pathParamSchema]
  | some t =>
    simp only [Option.mem_some_iff, forall_eq']
    refine forall₂_congr fun name _ => ?_
    rw [pathParamSchema]
    cases lookupFieldByJSONName t name with
    | none => simp
    | some found =>
      cases found with
      | none => simp
      | some ft => simp [isSome_schemaFromType]

theorem isSome_operationFor (route : Route) (opts : BuildOptions) :
    (operationFor route opts).isSome ↔ route.Ends := by
  have hparameters : (parametersFor route).isSome ↔
      (pathParameters route).isSome ∧ (queryParameters route.queryParams).isSome := by
    unfold parametersFor
    cases pathParameters route <;> cases queryParameters route.queryParams <;> simp
  have hresponses : (responsesFor route).isSome ↔ ∀ t ∈ route.responseBody, t.ends = true := by
    unfold responsesFor
    cases route.responseBody <;> simp [isSome_contentOf]
  have hrequest : (requestBodyFor route).isSome ↔ ∀ t ∈ route.requestBody, t.ends = true := by
    unfold requestBodyFor
    cases route.requestBody <;> simp [isSome_contentOf]
  have hall : (operationFor route opts).isSome ↔ (parametersFor route).isSome ∧
      (responsesFor route).isSome ∧ (requestBodyFor route).isSome := by
    unfold operationFor
    cases parametersFor route <;> cases responsesFor route <;> cases requestBodyFor route <;> simp
  rw [hall, hparameters, hresponses, hrequest, isSome_pathParameters, isSome_queryParameters]
  constructor
  · rintro ⟨⟨hpath, hquery⟩, hresponse, hrequest⟩
    exact ⟨hrequest, hresponse, hquery, hpath⟩
  · rintro ⟨hrequest, hresponse, hquery, hpath⟩
    exact ⟨⟨hpath, hquery⟩, hresponse, hrequest⟩

variable [UnicodeUpper]

/-- The routes with their operations. -/
def entries (routes : List Route) (ops : List Operation) :
    List (Endpoints.EndpointMeta × Operation) :=
  (routes.zip ops).map fun e => (e.1.toEndpointMeta, e.2)

/-- The loop makes the operations and enters them one after the other. -/
theorem foldlM_add {routes : List Route} {opts : BuildOptions} {doc doc' : Document} :
    routes.foldlM (Document.add opts) doc = some doc' ↔
      ∃ ops, (routes.mapM fun route => operationFor route opts) = some ops ∧
        doc' = { doc with toDocument := doc.toDocument.enterAll (entries routes ops) } := by
  induction routes generalizing doc with
  | nil => simp [entries, Endpoints.Document.enterAll, eq_comm]
  | cons route routes ih =>
    rw [List.foldlM_cons, List.mapM_cons]
    cases hop : operationFor route opts with
    | none => simp [Document.add, hop]
    | some op =>
      have hadd : Document.add opts doc route = some
          { doc with toDocument := doc.toDocument.addRoute (fun _ => op) route.toEndpointMeta } := by
        rw [Document.add, hop]
        rfl
      rw [hadd, Option.bind_eq_bind, Option.bind_some, ih]
      cases (routes.mapM fun route => operationFor route opts) with
      | none => simp
      | some ops =>
        simp only [Option.some.injEq, exists_eq_left', Option.bind_eq_bind, Option.bind_some,
          Option.pure_def]
        rfl

/-! ### Document and registry -/

variable {reg : Registry} {opts : BuildOptions} {doc : Document} {ops : List Operation}

/-- The upper-cased methods and the paths of the routes. -/
def Registry.keys (reg : Registry) : List (GoString × GoString) :=
  reg.all.map fun route => (toUpper route.method, route.path)

/-- The operations are those of the routes, one for each, and each describes its route. -/
structure Exact (reg : Registry) (doc : Document) : Prop where
  keys : doc.keys.Perm reg.keys
  operation : ∀ route ∈ reg.all, ∃ op,
    doc.operationAt route.path (toUpper route.method) = some op ∧ Describes route op

theorem build_eq_some (h : build reg opts = some doc) :
    ∃ ops, (reg.all.mapM fun route => operationFor route opts) = some ops ∧
      doc.toDocument = ({} : Endpoints.Document Operation).enterAll (entries reg.all ops) := by
  obtain ⟨ops, hops, rfl⟩ := foldlM_add.mp h
  exact ⟨ops, hops, rfl⟩

theorem isSome_build : (build reg opts).isSome ↔ ∀ route ∈ reg.all, route.Ends := by
  have hmap : (build reg opts).isSome ↔
      (reg.all.mapM fun route => operationFor route opts).isSome := by
    simp only [Option.isSome_iff_exists, build, foldlM_add]
    exact ⟨fun ⟨_, ops, hops, _⟩ => ⟨ops, hops⟩, fun ⟨ops, hops⟩ => ⟨_, ops, hops, rfl⟩⟩
  rw [hmap, isSome_mapM]
  exact forall₂_congr fun route _ => isSome_operationFor route opts

omit [UnicodeUpper] in
theorem map_fst_entries (h : (reg.all.mapM fun route => operationFor route opts) = some ops) :
    (entries reg.all ops).map Prod.fst = reg.endpoints.all := by
  rw [reg.all_endpoints, entries, List.map_map]
  calc (reg.all.zip ops).map (Prod.fst ∘ fun e => (e.1.toEndpointMeta, e.2))
      = ((reg.all.zip ops).map Prod.fst).map Route.toEndpointMeta := by rw [List.map_map]; rfl
    _ = reg.all.map Route.toEndpointMeta := by
      rw [List.map_fst_zip (length_of_mapM h).le]

theorem keys_entries (h : (reg.all.mapM fun route => operationFor route opts) = some ops) :
    (entries reg.all ops).map (fun e => (toUpper e.1.method, e.1.path)) = reg.keys := by
  have hfst := congrArg (List.map fun e : Endpoints.EndpointMeta => (toUpper e.method, e.path))
    (map_fst_entries h)
  rw [List.map_map, reg.all_endpoints, List.map_map] at hfst
  exact hfst

/-- The check passes if the routes without an operation are shadowed. -/
theorem selfCheck_build (hdistinct : reg.keys.Nodup) (h : build reg opts = some doc) :
    Endpoints.selfCheck doc.toDocument reg.endpoints = none ↔
      ∀ e ∈ reg.endpoints.all, ¬ e.Known → reg.endpoints.Shadowed e := by
  obtain ⟨ops, hops, hdoc⟩ := build_eq_some h
  rw [hdoc]
  refine Endpoints.selfCheck_enterAll ?_ (map_fst_entries hops)
  rw [keys_entries hops]
  exact hdistinct

theorem exact_of_known (hdistinct : reg.keys.Nodup) (h : build reg opts = some doc)
    (hknown : ∀ route ∈ reg.all, toUpper route.method ∈ Endpoints.knownMethods) : Exact reg doc := by
  obtain ⟨ops, hops, hdoc⟩ := build_eq_some h
  have hkeys := keys_entries hops
  have hnodup : ((entries reg.all ops).map fun e => (toUpper e.1.method, e.1.path)).Nodup := by
    rw [hkeys]
    exact hdistinct
  constructor
  · rw [hdoc, List.perm_ext_iff_of_nodup
      (Endpoints.Document.nodup_keys (Endpoints.Document.nodup_enterAll _)) hdistinct]
    rintro ⟨m, path⟩
    rw [Endpoints.Document.mem_keys_enterAll hnodup, hkeys]
    refine and_iff_right_of_imp fun hmem => ?_
    obtain ⟨route, hroute, heq⟩ := List.mem_map.mp hmem
    cases heq
    exact hknown route hroute
  · intro route hroute
    obtain ⟨op, hop, hzip⟩ := exists_mem_zip hops hroute
    refine ⟨op, ?_, describes_of_operationFor hop⟩
    rw [hdoc, Endpoints.Document.operationAt_enterAll hnodup]
    exact ⟨hknown route hroute, (route.toEndpointMeta, op), List.mem_map.mpr ⟨_, hzip, rfl⟩, rfl, rfl⟩

/-- For a registry with distinct methods and paths: the generator returns, the check
passes exactly if all methods are known, and then the document is that of the registry,
provided that no type is walked around in a circle and the check hides no dropped route. -/
theorem document_exact_iff (reg : Registry) (opts : BuildOptions) (hdistinct : reg.keys.Nodup) :
    (∃ doc, build reg opts = some doc ∧
      (Endpoints.selfCheck doc.toDocument reg.endpoints = none ↔
        ∀ route ∈ reg.all, toUpper route.method ∈ Endpoints.knownMethods) ∧
      (Endpoints.selfCheck doc.toDocument reg.endpoints = none → Exact reg doc)) ↔
    (∀ route ∈ reg.all, route.Ends) ∧ ¬ reg.endpoints.Masked := by
  have hall : (∀ e ∈ reg.endpoints.all, e.Known) ↔
      ∀ route ∈ reg.all, toUpper route.method ∈ Endpoints.knownMethods := by
    rw [reg.all_endpoints, List.forall_mem_map]
    rfl
  constructor
  · rintro ⟨doc, hbuild, hcheck, -⟩
    refine ⟨isSome_build.mp (Option.isSome_iff_exists.mpr ⟨doc, hbuild⟩), ?_⟩
    rintro ⟨⟨e, he, hunknown⟩, hshadowed⟩
    exact hunknown (hall.mpr (hcheck.mp ((selfCheck_build hdistinct hbuild).mpr hshadowed)) e he)
  · rintro ⟨hends, hmasked⟩
    obtain ⟨doc, hbuild⟩ := Option.isSome_iff_exists.mp (isSome_build.mpr hends)
    have hcheck : Endpoints.selfCheck doc.toDocument reg.endpoints = none ↔
        ∀ route ∈ reg.all, toUpper route.method ∈ Endpoints.knownMethods := by
      rw [selfCheck_build hdistinct hbuild, ← hall]
      constructor
      · intro hshadowed e he
        by_contra hunknown
        exact hmasked ⟨⟨e, he, hunknown⟩, hshadowed⟩
      · intro hknown e he hunknown
        exact absurd (hknown e he) hunknown
    exact ⟨doc, hbuild, hcheck, fun hnone => exact_of_known hdistinct hbuild (hcheck.mp hnone)⟩

end

/-- The types of the routes of a small registry: a path parameter, and a query. -/
def itemPath : GoType := .ptr (.struct (.ofList [({ name := lit "Key", tag := lit "key" }, .string)]))

def itemQuery : GoType := .ptr (.struct (.ofList
  [({ name := lit "Limit", tag := lit "limit" }, .int .int),
    ({ name := lit "Cursor", tag := lit "cursor,omitempty" }, .string)]))

def itemRegistry : Registry where
  groups := [{
    name := lit "items"
    routes := [
      { name := lit "get_item", method := lit "GET", path := lit "/v1/items/\x7bkey\x7d",
        group := lit "items", pathParams := some itemPath, queryParams := some itemQuery },
      { name := lit "put_item", method := lit "put", path := lit "/v1/items/\x7bkey\x7d",
        group := lit "items", pathParams := some itemPath }] }]

theorem items_document_exact :
    (@Registry.keys asciiUpper itemRegistry).Nodup ∧
    ∃ doc, @build asciiFold asciiUpper itemRegistry {} = some doc ∧
      (@Endpoints.selfCheck _ asciiUpper doc.toDocument itemRegistry.endpoints = none ↔
        ∀ route ∈ itemRegistry.all, @toUpper asciiUpper route.method ∈ Endpoints.knownMethods) ∧
      (@Endpoints.selfCheck _ asciiUpper doc.toDocument itemRegistry.endpoints = none →
        @Exact asciiUpper itemRegistry doc) := by
  have hdistinct : (@Registry.keys asciiUpper itemRegistry).Nodup := by decide +kernel
  refine ⟨hdistinct, (@document_exact_iff asciiFold asciiUpper itemRegistry {} hdistinct).mpr ⟨?_, ?_⟩⟩
  · intro route hroute
    have hsome : ∀ route ∈ itemRegistry.all, (@operationFor asciiFold route {}).isSome = true := by
      decide +kernel
    exact (@isSome_operationFor asciiFold route {}).mp (hsome route hroute)
  · refine @Endpoints.Registry.not_masked asciiUpper itemRegistry.endpoints ?_
    decide +kernel

/-- Two routes with one key: the method of the second is the beginning of the first one's
key. -/
def maskedRegistry : Registry where
  groups := [{
    name := lit "items"
    routes := [{ name := lit "spaced", method := lit "GET", path := lit "/A /b" },
      { name := lit "odd", method := lit "GET /A", path := lit "/b" }] }]

/-- The route `odd` is not in the document, and the check passes. -/
theorem dropped_route_passes :
    (@Registry.keys asciiUpper maskedRegistry).Nodup ∧
    ¬ (∀ route ∈ maskedRegistry.all, @toUpper asciiUpper route.method ∈ Endpoints.knownMethods) ∧
    (@build asciiFold asciiUpper maskedRegistry {}).map (fun doc =>
      (@Endpoints.selfCheck _ asciiUpper doc.toDocument maskedRegistry.endpoints, doc.keys)) =
        some (none, [(lit "GET", lit "/A /b")]) := by
  decide +kernel

end ApiTest.Oapi
