import ApiTest.Server.Mux

/-! Every published operation is served, but for OPTIONS. The routes of the
registry stand under `/v1/`, where the server itself mounts nothing but the root
handler, so a request for a route reaches the mux entry of the most specific
route it instantiates. What stands in between is `CORS`, and for templates that
end in a multi-segment wildcard the mux's own redirect to a trailing slash. -/

namespace ApiTest.Server

open Text Net Endpoints Portal

/-! ### The entries of the composed mux -/

section Entries
variable [WildcardNames]

/-- The composed mux holds the registry's routes and the server's own patterns,
and nothing else. -/
theorem mem_serve {reg : Registry} {before after : List GoString} {mux : ServeMux Handler}
    (h : reg.serve before after = some mux) {x : Pattern × Handler} :
    x ∈ mux.entries ↔
      (∃ e ∈ reg.flat, parsePattern e.pattern = some x.1 ∧ x.2 = .route e) ∨
        ∃ pattern ∈ before ++ after, parsePattern pattern = some x.1 ∧ x.2 = .other := by
  simp only [Registry.serve, Registry.mount_eq, Option.bind_eq_bind, Option.bind_eq_some_iff] at h
  obtain ⟨mux₁, h₁, mux₂, h₂, h₃⟩ := h
  rw [ServeMux.mem_handleAll h₃, ServeMux.mem_handleAll h₂, ServeMux.mem_handleAll h₁]
  simp only [ServeMux.empty, List.not_mem_nil, false_or, List.mem_map, List.mem_append,
    exists_exists_and_eq_and, RouteEntry.mount, eq_comm (b := x.2)]
  grind

end Entries

/-! ### Under `/v1/` -/

/-- The part a pattern's path opens with. -/
def firstPart (pattern : GoString) : GoString :=
  (splitMethod pattern).2.tail.takeWhile (· ≠ slash)

/-- A pattern of the server: its path is the root, or opens with a literal other
than `v1`. -/
def Foreign (pattern : GoString) : Prop :=
  (splitMethod pattern).2.head? = some slash ∧
    (splitMethod pattern = (lit "GET", lit "/") ∨
      firstPart pattern ≠ [] ∧ 0x7B ∉ firstPart pattern ∧ percent ∉ firstPart pattern ∧
        firstPart pattern ≠ lit "v1")

instance : DecidablePred Foreign := fun _ => inferInstanceAs (Decidable (_ ∧ _))

/-- All patterns `BuildMux` may register beside the registry's. -/
def ownPatterns : List GoString :=
  probePatterns ++ openAPIPatterns ++ portalPatterns ⟨true, true⟩ ++ [lit "GET /"]

theorem foreign_of_own : ∀ pattern ∈ ownPatterns, Foreign pattern := by
  unfold ownPatterns probePatterns openAPIPatterns portalPatterns portalRoutes
  repeat rw [lit_ofList]
  decide +kernel

theorem mem_ownPatterns {portal : Option PortalDeps} {hasDoc : Bool} {pattern : GoString}
    (h : pattern ∈ probePatterns ++ laterPatterns portal hasDoc) : pattern ∈ ownPatterns := by
  rcases portal with _ | ⟨browserAuth, portalAPI⟩ <;>
    simp only [laterPatterns, portalPatterns, ownPatterns, List.mem_append, Option.map_none,
      Option.map_some, Option.getD_none, Option.getD_some] at h ⊢ <;>
    grind

/-- A route under `/v1/` goes before the root handler. -/
theorem precedes_root {p q : Pattern} {segs : List Segment} {method : GoString}
    (hp : p.host = []) (hq : q.host = []) (hps : p.segments = .literal (lit "v1") :: segs)
    (hqm : q.method = lit "GET") (hqs : q.segments = [.multi []]) (hpm : p.method = method)
    (hserves : q.servesMethod method) : p.precedes q := by
  have hmethods : p.compareMethods q = .equivalent ∨ p.compareMethods q = .moreSpecific := by
    unfold Pattern.compareMethods
    simp only [Pattern.servesMethod, hqm, Bool.or_eq_true, Bool.and_eq_true, beq_iff_eq] at hserves
    rw [hpm, hqm]
    rcases hserves with (hnil | hget) | ⟨-, hhead⟩
    · exact absurd hnil (by decide)
    · exact Or.inl (if_pos hget.symm)
    · rw [hhead]
      decide
  have hpaths : p.comparePaths q = .moreSpecific := by
    unfold Pattern.comparePaths
    have hlast : q.lastMulti = true := by rw [lastMulti_eq, hqs]; rfl
    rw [hlast, hps, hqs, if_neg (by simp)]
    cases segs with
    | nil => rfl
    | cons s segs => rfl
  rw [Pattern.precedes, hp, hq, if_pos rfl, Pattern.comparePathsAndMethods, hpaths]
  rcases hmethods with h | h <;> rw [h] <;> rfl

section Precedence
variable [WildcardNames]

theorem literal_of_parseSegments {part : GoString} {seen rest : List GoString}
    {segments : List Segment} (h : parseSegments seen (part :: rest) = some segments)
    (hne : part ≠ []) (hbrace : 0x7B ∉ part) :
    ∃ segs, segments = .literal (pathUnescape part) :: segs := by
  rw [parseSegments, if_neg (fun hlast => hne hlast.1), if_pos hbrace] at h
  obtain ⟨segs, -, rfl⟩ := Option.map_eq_some_iff.mp h
  exact ⟨segs, rfl⟩

/-- The pattern of a route under `/v1/`. -/
theorem pattern_of_route {e : RouteEntry} {p : Pattern} (hm : validMethod e.endpoint.method)
    (hv1 : lit "/v1/" <+: e.endpoint.path) (hp : parsePattern e.pattern = some p) :
    p.method = e.endpoint.method ∧ p.host = [] ∧ MultiLast p.segments ∧
      ∃ segs, p.segments = .literal (lit "v1") :: segs := by
  obtain ⟨rest, hpath⟩ := hv1
  have hroot : e.endpoint.path.head? = some slash := by
    rw [← hpath]
    rfl
  obtain ⟨hmethod, hhost, hsegments⟩ := parsePattern_rooted hm hroot hp
  have hsplit : (e.endpoint.path.splitOn slash).tail = lit "v1" :: rest.splitOn slash := by
    rw [← hpath]
    show ((slash :: (lit "v1" ++ slash :: rest)).splitOn slash).tail = _
    rw [splitOn_cons_slash, List.tail_cons]
    exact List.splitOn_append_cons_self_of_not_mem (by decide) rest
  refine ⟨hmethod, hhost, multiLast_of_parseSegments hsegments, ?_⟩
  rw [hsplit] at hsegments
  exact literal_of_parseSegments hsegments (by decide) (by decide)

/-- A pattern of the server is that of the root handler, or opens with a literal
other than `v1`. -/
theorem pattern_of_foreign {pattern : GoString} {q : Pattern} (h : Foreign pattern)
    (hq : parsePattern pattern = some q) :
    q.host = [] ∧ (q.method = lit "GET" ∧ q.segments = [.multi []] ∨
      ∃ part segs, q.segments = .literal part :: segs ∧ part ≠ lit "v1") := by
  obtain ⟨hroot, hpath⟩ := h
  obtain ⟨hmethod, hhost, hsegments⟩ := parsePattern_eq_some hq hroot
  refine ⟨hhost, ?_⟩
  rcases hpath with hget | ⟨hne, hbrace, hpercent, hv1⟩
  · have hsplit : parseSegments [] ((lit "/").splitOn slash).tail = some [.multi []] := rfl
    rw [hget, hsplit, Option.some.injEq] at hsegments
    exact Or.inl ⟨by rw [hmethod, hget], hsegments.symm⟩
  · right
    unfold firstPart at hne hbrace hpercent hv1
    obtain ⟨rest, hrest⟩ := List.head?_eq_some_iff.mp hroot
    obtain ⟨parts, hparts⟩ := splitOn_head rest
    rw [hrest, List.tail_cons] at hne hbrace hpercent hv1
    rw [hrest, splitOn_cons_slash, List.tail_cons, hparts] at hsegments
    obtain ⟨segs, hsegs⟩ := literal_of_parseSegments hsegments hne hbrace
    rw [pathUnescape_of_not_mem hpercent] at hsegs
    exact ⟨_, segs, hsegs, hv1⟩

/-- The entry of the most specific route a request instantiates is the one the
composed mux finds. -/
theorem find_route {reg : Registry} {portal : Option PortalDeps} {hasDoc : Bool}
    {mux : ServeMux Handler}
    (hmux : reg.serve probePatterns (laterPatterns portal hasDoc) = some mux)
    (hv1 : ∀ e ∈ reg.flat, lit "/v1/" <+: e.endpoint.path) {e : RouteEntry} (he : e ∈ reg.flat)
    {p : Pattern} (hp : parsePattern e.pattern = some p) {r : Request}
    (hmethod : r.method = e.endpoint.method)
    (hinst : matchesPath p.segments (requestSegments r.escapedPath))
    (hspecific : ∀ f ∈ reg.flat, ∀ q ∈ parsePattern f.pattern,
      q.accepts r.host r.method (requestSegments r.escapedPath) → q.precedes p = false) :
    mux.find r.host r.method (requestSegments r.escapedPath) = some (p, .route e) := by
  obtain ⟨hpm, hph, hpwf, segs, hps⟩ := pattern_of_route (hmethod ▸ r.methodValid) (hv1 e he) hp
  have hmem : (p, Handler.route e) ∈ mux.entries := (mem_serve hmux).mpr (Or.inl ⟨e, he, hp, rfl⟩)
  have haccepts : p.accepts r.host r.method (requestSegments r.escapedPath) := by
    simp [Pattern.accepts, Pattern.servesMethod, hph, hpm, hmethod, hinst]
  apply ServeMux.find_eq_some hmem haccepts
  rintro ⟨q, h⟩ hqmem hqacc
  rcases (mem_serve hmux).mp hqmem with ⟨f, hf, hq, -⟩ | ⟨pattern, hpattern, hq, -⟩
  · by_cases hsame : (q, h) = (p, .route e)
    · exact Or.inl (congrArg Prod.fst hsame)
    · right
      exact precedes_of_not_beaten hpwf (multiLast_of_parsePattern hq) hph haccepts hqacc
        (ServeMux.noConflict_of_mem hqmem hmem hsame) (hspecific f hf q hq hqacc)
  · obtain ⟨hqh, hroot | ⟨part, qsegs, hqs, hne⟩⟩ :=
      pattern_of_foreign (foreign_of_own pattern (mem_ownPatterns hpattern)) hq
    · right
      simp only [Pattern.accepts, Bool.and_eq_true] at hqacc
      exact precedes_root hph hqh hps hroot.1 hroot.2 (hpm.trans hmethod.symm) hqacc.1.2
    · -- the literal that opens the path is not the one the pattern opens with
      simp only [Pattern.accepts, Bool.and_eq_true] at hqacc
      rw [hps] at hinst
      rw [hqs] at hqacc
      cases hsegments : requestSegments r.escapedPath with
      | nil => simp [hsegments, matchesPath] at hinst
      | cons first rest =>
        simp only [hsegments, matchesPath, Bool.and_eq_true, beq_iff_eq] at hinst hqacc
        exact absurd (hqacc.2.1.trans hinst.1.symm) hne

end Precedence

/-- A clean path that opens with a literal `v1` is not the root. -/
theorem path_ne_root {r : Request} (hclean : cleanPath r.escapedPath = r.escapedPath)
    {segs : List Segment}
    (h : matchesPath (.literal (lit "v1") :: segs) (requestSegments r.escapedPath)) :
    r.path ≠ lit "/" := by
  intro hpath
  obtain ⟨rest, hrest⟩ : ∃ rest, r.escapedPath = slash :: rest := by
    rw [← hclean]
    unfold cleanPath
    simp only
    split_ifs
    · exact ⟨_, rfl⟩
    · exact ⟨_, rfl⟩
  have hdecodes := r.decodes
  rw [hpath, hrest, unescape_cons (by decide)] at hdecodes
  obtain ⟨decoded, hdecoded, hroot⟩ := Option.map_eq_some_iff.mp hdecodes
  have hnil : decoded = [] := (List.cons.inj hroot).2
  rw [hnil] at hdecoded
  have hsegments : requestSegments [slash] = [[slash]] := by decide
  rw [hrest, eq_nil_of_unescape_eq_nil hdecoded, hsegments] at h
  simp only [matchesPath, Bool.and_eq_true, beq_iff_eq] at h
  exact absurd h.1 (by decide)

/-! ### The result -/

/-- Published operations are served. On the handler built for a registry under
`/v1/` that passes the self-check, every route is published, and a request for
its method on a clean path that instantiates its template and no more specific
one reaches its handler exactly if the method is not OPTIONS and the mux does not
redirect the path to its form with a trailing slash. -/
theorem served_iff [WildcardNames] [UnicodeUpper] {ω : Type} (operationFor : EndpointMeta → ω)
    (renders : Document ω → Bool) (reg : Registry) (portal : Option PortalDeps) (c : Composed)
    (hbuild : buildMux renders reg portal (some (build operationFor reg)) = .ok c)
    (hv1 : ∀ e ∈ reg.flat, lit "/v1/" <+: e.endpoint.path)
    (hcheck : selfCheck (build operationFor reg) reg = none)
    (e : RouteEntry) (he : e ∈ reg.flat) (p : Pattern) (hp : parsePattern e.pattern = some p)
    (r : WebRequest) (hmethod : r.method = e.endpoint.method)
    (hclean : cleanPath r.escapedPath = r.escapedPath)
    (hinst : matchesPath p.segments (requestSegments r.escapedPath))
    (hspecific : ∀ f ∈ reg.flat, ∀ q ∈ parsePattern f.pattern,
      q.accepts r.host r.method (requestSegments r.escapedPath) → q.precedes p = false) :
    routeKey (toUpper e.endpoint.method) e.endpoint.path ∈ (build operationFor reg).routeSet ∧
      (c.serve r = .handled (.route e) ↔
        r.method ≠ lit "OPTIONS" ∧ ¬ c.mux.RedirectsToSlash p r.toRequest) := by
  constructor
  · apply (selfCheck_eq_none.mp hcheck _).mp
    exact List.mem_map.mpr ⟨e.endpoint, Registry.mem_all_of_flat he, rfl⟩
  · by_cases hoptions : r.method = lit "OPTIONS"
    · rw [serve_options hoptions]
      simp [hoptions]
    · have hmux := buildMux_eq_ok hbuild
      obtain ⟨-, -, -, segs, hps⟩ := pattern_of_route (hmethod ▸ r.methodValid) (hv1 e he) hp
      have hfind := find_route hmux hv1 he hp hmethod hinst hspecific
      rw [hps] at hinst
      rw [serve_eq hoptions (path_ne_root hclean hinst), serveMux,
        ServeMux.dispatch_eq hclean hfind]
      split_ifs with hslash
      · simp [hslash]
      · simp [hslash, hoptions]

/-- A route of the `methods` group. -/
def echoRoute (name method : String) : EndpointMeta := ⟨lit name, lit method, lit "/v1/method/echo"⟩

/-- The `methods` group: one path for every supported verb. -/
def methodsGroup : Group :=
  ⟨lit "methods", [echoRoute "method_get" "GET", echoRoute "method_post" "POST",
    echoRoute "method_put" "PUT", echoRoute "method_patch" "PATCH",
    echoRoute "method_delete" "DELETE", echoRoute "method_head" "HEAD",
    echoRoute "method_options" "OPTIONS"]⟩

def methodsRegistry : Registry := Registry.new.add methodsGroup

def echoEntry (name method : String) : RouteEntry :=
  ⟨lit "methods", echoRoute name method, [lit "v1", lit "method", lit "echo"]⟩

/-- A request for `/v1/method/echo`. -/
def echoRequest (method : String) (h : validMethod (lit method)) : WebRequest :=
  { method := lit method, host := [], escapedPath := lit "/v1/method/echo",
    path := lit "/v1/method/echo", methodValid := h, decodes := by decide }

theorem served_get :
    (@buildMux asciiNames Unit (fun _ => true) methodsRegistry none
        (some (@build Unit asciiUpper (fun _ => ()) methodsRegistry))).toOption.map
          (·.serve (echoRequest "GET" (by decide))) =
      some (.handled (.route (echoEntry "method_get" "GET"))) := by
  cases hbuild : @buildMux asciiNames Unit (fun _ => true) methodsRegistry none
      (some (@build Unit asciiUpper (fun _ => ()) methodsRegistry)) with
  | error err =>
    have hok : (@buildMux asciiNames Unit (fun _ => true) methodsRegistry none
      (some (@build Unit asciiUpper (fun _ => ()) methodsRegistry))).isOk = true := by
      decide +kernel
    rw [hbuild] at hok
    cases hok
  | ok c =>
    have hserved := (@served_iff asciiNames asciiUpper Unit (fun _ => ()) (fun _ => true)
      methodsRegistry none c hbuild (by decide) (by decide) (echoEntry "method_get" "GET")
      (by decide) ⟨lit "GET", [], [.literal (lit "v1"), .literal (lit "method"), .literal (lit "echo")]⟩
      (by decide) (echoRequest "GET" (by decide)) rfl (by decide) (by decide) (by decide)).2.mpr
      ⟨by decide, fun hslash => absurd hslash.1 (by decide)⟩
    exact congrArg some hserved

/-- OPTIONS on `/v1/method/echo` is published and mounted, and `CORS` answers it
before the mux. -/
theorem options_not_served :
    @selfCheck Unit asciiUpper (@build Unit asciiUpper (fun _ => ()) methodsRegistry)
        methodsRegistry = none ∧
      (@buildMux asciiNames Unit (fun _ => true) methodsRegistry none
        (some (@build Unit asciiUpper (fun _ => ()) methodsRegistry))).toOption.map (fun c =>
          (c.mux.dispatch (echoRequest "OPTIONS" (by decide)).toRequest,
            c.serve (echoRequest "OPTIONS" (by decide)))) =
        some (some (.route (echoEntry "method_options" "OPTIONS")), .noContent) := by
  decide +kernel

end ApiTest.Server
