import ApiTest.Endpoints.Operations
import ApiTest.Net.Registering
import ApiTest.Server.Serving

/-! The server starts whatever groups are enabled. `BuildMux` panics on a pattern the mux
refuses, and `Build` gives up if the document and the registry differ. Neither happens: the
patterns of all groups and of the whole portal go together, what is switched off only takes
patterns away, and every route has a method that the document knows. -/

namespace ApiTest.Server

open Text Net Endpoints Portal

/-! ### All patterns -/

/-- The patterns of a server with everything switched on. -/
def fullPatterns : List GoString :=
  probePatterns ++ routeTable.map (fun r => routeKey r.1 r.2) ++
    laterPatterns (some ⟨true, true⟩) true

/-- The names of the placeholders in them. -/
def placeholderNames : List GoString :=
  [lit "key", lit "code", lit "name", lit "id", lit "group", lit "route"]

/-- All patterns are read, none conflicts with an earlier one, and the placeholders have the
given names. -/
def Fit (names : List GoString) (parsed : List (Option Pattern)) : Prop :=
  (∀ o ∈ parsed, o.isSome = true) ∧
    (parsed.Pairwise fun o o' => (o.all fun p => o'.all fun q => !q.conflictsWith p) = true) ∧
      ∀ o ∈ parsed, (o.all fun p => p.segments.all fun s => s.names.all fun name =>
        name == [] || names.contains name) = true

instance instDecidableFit (names : List GoString) : DecidablePred (Fit names) :=
  fun _ => inferInstanceAs (Decidable (_ ∧ _))

theorem fit_fullPatterns : Fit placeholderNames (fullPatterns.map (@parsePattern allNames)) := by
  unfold fullPatterns laterPatterns probePatterns openAPIPatterns portalPatterns
    browserAuthPatterns portalRoutes routeTable placeholderNames
  repeat rw [lit_ofList]
  decide +kernel

section
variable [WildcardNames]

/-- Each pattern is read as soon as the names of its placeholders are allowed. -/
theorem parsePattern_full (hnames : ∀ name ∈ placeholderNames, WildcardNames.valid name = true)
    {pattern : GoString} (h : pattern ∈ fullPatterns) : (parsePattern pattern).isSome = true := by
  obtain ⟨hreads, -, hplaceholders⟩ := fit_fullPatterns
  have hmem := List.mem_map_of_mem (f := @parsePattern allNames) h
  obtain ⟨p, hp⟩ := Option.isSome_iff_exists.mp (hreads _ hmem)
  rw [parsePattern_of_allNames hp, Option.isSome_some]
  intro s hs name hname hne
  have hall := hplaceholders _ hmem
  simp only [hp, Option.all_some, List.all_eq_true, Bool.or_eq_true, beq_iff_eq,
    List.contains_iff_mem] at hall
  exact hnames name ((hall s hs name hname).resolve_left hne)

theorem compatible_full : fullPatterns.Pairwise ServeMux.Compatible := by
  have hpairs := List.pairwise_map.mp fit_fullPatterns.2.1
  refine hpairs.imp ?_
  intro earlier later hall p q hp hq
  rw [parsePattern_allNames hp, parsePattern_allNames hq] at hall
  simpa using hall

end

/-! ### Any configuration -/

section
variable [UnicodeCase] [ResponseJSON] (redactKeys : List GoString) (cfg : EndpointsConfig)

omit [UnicodeCase] [ResponseJSON] in
theorem flat_addIf_sublist {r : Registry} {l : List RouteEntry} (h : r.flat.Sublist l)
    (enabled : Bool) (g : Group) : (addIf enabled g r).flat.Sublist (l ++ g.index) := by
  unfold addIf
  split_ifs
  · exact h.append (List.Sublist.refl _)
  · exact h.trans (List.sublist_append_left _ _)

/-- The enabled groups have some of all routes, in their order. -/
theorem flat_sublist :
    (buildRegistry redactKeys cfg).flat.Sublist
      ((builtinGroups redactKeys).flatMap Group.index) := by
  have hflat : (builtinGroups redactKeys).flatMap Group.index =
      [] ++ (identityEndpoints redactKeys).index ++ dataEndpoints.index ++ failureEndpoints.index ++
        (echoEndpoints redactKeys).index ++ streamingEndpoints.index ++ paginationEndpoints.index ++
        methodsEndpoints.index ++ securityEndpoints.index ++ exportEndpoints.index := by
    simp only [builtinGroups, List.flatMap_cons, List.flatMap_nil, List.append_assoc,
      List.nil_append, List.append_nil]
  rw [hflat]
  unfold buildRegistry
  repeat apply flat_addIf_sublist
  exact List.Sublist.refl _

theorem routes_sublist :
    ((buildRegistry redactKeys cfg).flat.map RouteEntry.pattern).Sublist
      (routeTable.map fun r => routeKey r.1 r.2) := by
  rw [← routeTable_eq redactKeys, List.map_map]
  exact (flat_sublist redactKeys cfg).map _

omit [UnicodeCase] [ResponseJSON] in
theorem later_sublist (portal : Option PortalDeps) (hasDoc : Bool) :
    (laterPatterns portal hasDoc).Sublist (laterPatterns (some ⟨true, true⟩) true) := by
  have hif (b : Bool) (l : List GoString) : (if b then l else []).Sublist l := by
    cases b with
    | false => exact List.nil_sublist _
    | true => exact List.Sublist.refl _
  unfold laterPatterns
  refine ((hif hasDoc openAPIPatterns).append ?_).append (List.Sublist.refl _)
  cases portal with
  | none => exact List.nil_sublist _
  | some d =>
    exact (((List.Sublist.refl _).append (hif _ _)).append (hif _ _)).append (List.Sublist.refl _)

theorem mounts_sublist (portal : Option PortalDeps) (hasDoc : Bool) :
    ((mounts (buildRegistry redactKeys cfg) portal hasDoc).map Prod.fst).Sublist fullPatterns := by
  have hfst : (mounts (buildRegistry redactKeys cfg) portal hasDoc).map Prod.fst =
      probePatterns ++ (buildRegistry redactKeys cfg).flat.map RouteEntry.pattern ++
        laterPatterns portal hasDoc := by
    have hmap := congrArg (List.map Prod.fst)
      (map_mounts (buildRegistry redactKeys cfg) portal hasDoc)
    simp only [List.map_map, List.map_append] at hmap
    simpa [Function.comp_def, RouteEntry.mount] using hmap
  rw [hfst]
  exact ((List.Sublist.refl _).append (routes_sublist redactKeys cfg)).append
    (later_sublist portal hasDoc)

/-- The mux takes all registrations. -/
theorem exists_serverMux [WildcardNames]
    (hnames : ∀ name ∈ placeholderNames, WildcardNames.valid name = true)
    (portal : Option PortalDeps) (hasDoc : Bool) :
    ∃ mux, serverMux (buildRegistry redactKeys cfg) portal hasDoc = some mux := by
  have hsublist := mounts_sublist redactKeys cfg portal hasDoc
  apply ServeMux.exists_handleAll_empty
  · intro m hm
    exact parsePattern_full hnames (hsublist.subset (List.mem_map_of_mem hm))
  · exact compatible_full.sublist hsublist

end

/-! ### The document -/

theorem routeTable_nodup : routeTable.Nodup := by decide +kernel

theorem known_of_routeTable : ∀ r ∈ routeTable, r.1 ∈ knownMethods := by
  unfold routeTable knownMethods
  repeat rw [lit_ofList]
  decide +kernel

section
variable [UnicodeUpper]

/-- The methods of the document are written in capitals. -/
theorem toUpper_known : ∀ m ∈ knownMethods, toUpper m = m := by
  intro m hm
  simp only [knownMethods, List.mem_cons, List.not_mem_nil, or_false] at hm
  obtain rfl | rfl | rfl | rfl | rfl | rfl | rfl := hm <;> rfl

variable [UnicodeCase] [ResponseJSON] (redactKeys : List GoString) (cfg : EndpointsConfig)

omit [UnicodeUpper] [UnicodeCase] [ResponseJSON] in
theorem all_eq (reg : Registry) : reg.all = reg.flat.map RouteEntry.endpoint := by
  rw [Registry.all, reg.indexed, List.map_flatMap]
  congr 1
  funext g
  simp [Group.index, Function.comp_def]

theorem keys_sublist : ((buildRegistry redactKeys cfg).all.map fun route =>
    (toUpper route.method, route.path)).Sublist routeTable := by
  have hsublist := (flat_sublist redactKeys cfg).map fun e => (e.endpoint.method, e.endpoint.path)
  rw [routeTable_eq] at hsublist
  have hsame : ((buildRegistry redactKeys cfg).all.map fun route =>
      (toUpper route.method, route.path)) =
        (buildRegistry redactKeys cfg).flat.map fun e => (e.endpoint.method, e.endpoint.path) := by
    rw [all_eq, List.map_map]
    refine List.map_congr_left ?_
    intro e he
    have hknown := known_of_routeTable _ (mem_routeTable redactKeys he)
    exact congrArg (·, e.endpoint.path) (toUpper_known _ hknown)
  rw [hsame]
  exact hsublist

variable {ω : Type} (operationFor : EndpointMeta → ω)

/-- The document of the enabled groups passes the check. -/
theorem selfCheck_buildRegistry :
    selfCheck (build operationFor (buildRegistry redactKeys cfg)) (buildRegistry redactKeys cfg) =
      none := by
  have hentries : build operationFor (buildRegistry redactKeys cfg) = ({} : Document ω).enterAll
      ((buildRegistry redactKeys cfg).all.map fun route => (route, operationFor route)) := by
    rw [build, Document.enterAll, List.foldl_map]
    rfl
  have hkeys := keys_sublist redactKeys cfg
  rw [hentries, selfCheck_enterAll]
  · intro route hroute hunknown
    have hmem := hkeys.subset (List.mem_map_of_mem hroute)
    exact absurd (known_of_routeTable _ hmem) hunknown
  · rw [List.map_map]
    exact routeTable_nodup.sublist hkeys
  · rw [List.map_map]
    exact List.map_id _

/-! ### The result -/

/-- Whatever groups are enabled and whatever parts the portal has, the document passes the
self-check, the mux takes every pattern, and what `BuildMux` returns is the mux that serves
them. Only the rendering of the document is left to succeed. -/
theorem server_starts [WildcardNames]
    (hnames : ∀ name ∈ placeholderNames, WildcardNames.valid name = true)
    (portal : Option PortalDeps) (renders : Document ω → Bool)
    (hrenders : renders (build operationFor (buildRegistry redactKeys cfg)) = true) :
    selfCheck (build operationFor (buildRegistry redactKeys cfg)) (buildRegistry redactKeys cfg) =
        none ∧
      ∃ mux, serverMux (buildRegistry redactKeys cfg) portal true = some mux ∧
        buildMux renders (buildRegistry redactKeys cfg) portal
          (some (build operationFor (buildRegistry redactKeys cfg))) =
            .ok ⟨mux.map Mounted.handler, portal.isSome⟩ := by
  refine ⟨selfCheck_buildRegistry redactKeys cfg operationFor, ?_⟩
  obtain ⟨mux, hmux⟩ := exists_serverMux redactKeys cfg hnames portal true
  have hserve := map_serverMux (buildRegistry redactKeys cfg) portal true
  rw [hmux, Option.map_some] at hserve
  refine ⟨mux, hmux, ?_⟩
  simp only [buildMux, Option.any_some, hrenders, Bool.not_true, Bool.false_eq_true, if_false,
    Option.isSome_some, ← hserve]

end

/-- The `data` group and the portal API, with the identifiers of the ASCII range. -/
theorem data_starts :
    ∃ mux, @serverMux asciiNames dataRegistry (some ⟨false, true⟩) true = some mux := by
  obtain ⟨-, mux, hmux, -⟩ := @server_starts asciiUpper asciiCase plainJSON [] onlyData Unit
    (fun _ => ()) asciiNames (by decide +kernel) (some ⟨false, true⟩) (fun _ => true) rfl
  exact ⟨mux, hmux⟩

end ApiTest.Server
