import ApiTest.Endpoints.Registry

/-! Audit labels against dispatch. A request is served by the mux, which picks
the most specific pattern on the escaped path, and labelled by
`routeForRequest`, which takes the first entry that matches the decoded path. On
routes of the documented shapes, literal segments and `{name}`, the two matchers
agree segment by segment; the label is then the route served unless an earlier
route of the same method is the more general one, an escaped slash moves a
segment boundary, or the method served is not the one requested. -/

namespace ApiTest.Endpoints

open ApiTest.Text ApiTest.Net

/-! ### Segments of the request -/

theorem splitPathSegments_of_splitOn {p : GoString} {parts : List GoString}
    (h : p.splitOn slash = [] :: parts) (hparts : ∀ part ∈ parts, part ≠ []) :
    splitPathSegments p = parts := by
  rw [splitPathSegments, h, List.filter_cons_of_neg (by simp), List.filter_eq_self]
  intro part hpart
  simpa using hparts part hpart

/-- Without a trailing slash the mux's segments are the decoded parts. -/
theorem segmentsOf_eq_map {parts : List GoString} (h : ∀ part ∈ parts, part ≠ []) :
    segmentsOf parts = parts.map pathUnescape := by
  induction parts with
  | nil => rfl
  | cons part parts ih =>
    simp only [List.forall_mem_cons] at h
    rw [segmentsOf, if_neg (fun he => h.1 he.1), ih h.2, List.map_cons]

theorem slash_mem_segmentsOf (parts : List GoString) : [slash] ∈ segmentsOf (parts ++ [[]]) := by
  induction parts with
  | nil => simp [segmentsOf]
  | cons part parts ih =>
    rw [List.cons_append, segmentsOf, if_neg (by simp)]
    exact List.mem_cons_of_mem _ ih

/-- On a clean path without a trailing or an escaped slash, the segments of the
decoded path are those the mux sees. -/
theorem splitPathSegments_path {r : Request} (hclean : cleanPath r.escapedPath = r.escapedPath)
    (hslash : ∀ part ∈ r.escapedPath.splitOn slash, slash ∉ pathUnescape part)
    (hlast : ∀ q ∈ requestSegments r.escapedPath, q ≠ [slash]) :
    splitPathSegments r.path = requestSegments r.escapedPath := by
  obtain ⟨parts, hparts, hsplit | hsplit⟩ := splitOn_of_clean hclean
  · have hne : ∀ part ∈ parts, part ≠ [] := fun part hpart => (hparts part hpart).1
    have hpath : r.path.splitOn slash = [] :: parts.map pathUnescape := by
      rw [splitOn_of_unescape r.decodes hslash, hsplit]
      rfl
    rw [requestSegments, hsplit, List.tail_cons, segmentsOf_eq_map hne]
    apply splitPathSegments_of_splitOn hpath
    intro q hq
    obtain ⟨part, hpart, rfl⟩ := List.mem_map.mp hq
    exact pathUnescape_ne_nil (hne part hpart)
  · refine absurd rfl (hlast [slash] ?_)
    rw [requestSegments, hsplit, List.tail_cons]
    exact slash_mem_segmentsOf parts

/-! ### Routes of the documented shapes -/

theorem not_isPlaceholder {part : GoString} (h : 0x7B ∉ part) : isPlaceholder part = false := by
  have hhead : part.head? ≠ some 0x7B := fun he => h (List.mem_of_mem_head? he)
  simp [isPlaceholder, hhead]

/-- Single segments match no trailing slash. -/
theorem ne_slash_of_matchesPath {segments : List Segment} {qs : List GoString}
    (h : matchesPath segments qs) (hsingle : ∀ s ∈ segments, s.Single) :
    ∀ q ∈ qs, q ≠ [slash] := by
  induction segments generalizing qs with
  | nil => cases qs with
    | nil => simp
    | cons q qs => exact absurd h (by simp [matchesPath])
  | cons s segments ih =>
    simp only [List.forall_mem_cons] at hsingle
    cases qs with
    | nil => simp
    | cons q qs =>
      simp only [List.forall_mem_cons]
      cases s with
      | literal t =>
        simp only [matchesPath, Bool.and_eq_true, beq_iff_eq] at h
        exact ⟨h.1 ▸ hsingle.1.2, ih h.2 hsingle.2⟩
      | wild name =>
        simp only [matchesPath, Bool.and_eq_true, bne_iff_ne] at h
        exact ⟨h.1, ih h.2 hsingle.2⟩
      | multi name => exact absurd hsingle.1 id

section Agreement
variable [WildcardNames]

/-- On single segments without an escape, the registry matches the written parts
just as the mux matches the parsed segments. -/
theorem matchSegments_eq_matchesPath {parts seen : List GoString} {segments : List Segment}
    (h : parseSegments seen parts = some segments) (hsingle : ∀ s ∈ segments, s.Single)
    (hplain : ∀ part ∈ parts, percent ∉ part) {qs : List GoString}
    (hqs : ∀ q ∈ qs, q ≠ [slash]) : matchSegments parts qs = matchesPath segments qs := by
  induction parts generalizing seen segments qs with
  | nil =>
    cases h
    cases qs <;> rfl
  | cons part rest ih =>
    obtain ⟨s, seen', segments', rfl, hrest, hpart⟩ := parseSegments_cons_single h hsingle
    simp only [List.forall_mem_cons] at hsingle hplain
    cases qs with
    | nil => rcases hpart with ⟨-, rfl⟩ | ⟨-, -, -, name, rfl⟩ <;> rfl
    | cons q qs =>
      simp only [List.forall_mem_cons] at hqs
      rw [matchSegments_cons, ih hrest hsingle.2 hplain.2 hqs.2]
      rcases hpart with ⟨hbrace, rfl⟩ | ⟨hlen, hopen, hclose, name, rfl⟩
      · rw [not_isPlaceholder hbrace, pathUnescape_of_not_mem hplain.1]
        rfl
      · simp [isPlaceholder, matchesPath, hlen, hopen, hclose, hqs.1]

theorem ne_nil_of_parseSegments {parts seen : List GoString} {segments : List Segment}
    (h : parseSegments seen parts = some segments) (hsingle : ∀ s ∈ segments, s.Single)
    (hplain : ∀ part ∈ parts, percent ∉ part) : ∀ part ∈ parts, part ≠ [] := by
  induction parts generalizing seen segments with
  | nil => simp
  | cons part rest ih =>
    obtain ⟨s, seen', segments', rfl, hrest, hpart⟩ := parseSegments_cons_single h hsingle
    simp only [List.forall_mem_cons] at hsingle hplain ⊢
    refine ⟨?_, ih hrest hsingle.2 hplain.2⟩
    rcases hpart with ⟨-, rfl⟩ | ⟨hlen, -⟩
    · rw [pathUnescape_of_not_mem hplain.1] at hsingle
      exact hsingle.1.1
    · rintro rfl
      simp at hlen

/-- The shapes `RouteForRequest` is documented for: a rooted path of literal and
`{name}` segments. The literals are written without percent-encoding. -/
def RouteEntry.Documented (e : RouteEntry) : Prop :=
  e.endpoint.path.head? = some slash ∧ percent ∉ e.endpoint.path ∧
    ∀ p ∈ parsePattern e.pattern, ∀ s ∈ p.segments, s.Single

instance : DecidablePred RouteEntry.Documented := fun _ => inferInstanceAs (Decidable (_ ∧ _ ∧ _))

/-- A documented route resolves a request of its method if and only if its
pattern accepts it. -/
theorem resolves_eq_accepts {reg : Registry} {e : RouteEntry} (he : e ∈ reg.flat)
    (hdoc : e.Documented) {p : Pattern} (hp : parsePattern e.pattern = some p) {r : Request}
    (hmethod : e.endpoint.method = r.method)
    (hqs : ∀ q ∈ requestSegments r.escapedPath, q ≠ [slash]) :
    e.resolves r.method (requestSegments r.escapedPath) =
      p.accepts r.host r.method (requestSegments r.escapedPath) := by
  obtain ⟨hroot, hpercent, hsingle⟩ := hdoc
  obtain ⟨hpm, hph, hsegments⟩ := parsePattern_rooted (hmethod ▸ r.methodValid) hroot hp
  obtain ⟨rest, hpath⟩ : ∃ rest, e.endpoint.path = slash :: rest :=
    List.head?_eq_some_iff.mp hroot
  have hplain : ∀ part ∈ (e.endpoint.path.splitOn slash).tail, percent ∉ part := by
    intro part hpart hmem
    exact hpercent ((part_of_mem_splitOn (List.mem_of_mem_tail hpart)).1 hmem)
  have hsegs : e.segs = (e.endpoint.path.splitOn slash).tail := by
    rw [reg.segs_of_mem he]
    apply splitPathSegments_of_splitOn
    · rw [hpath, splitOn_cons_slash, List.tail_cons]
    · exact ne_nil_of_parseSegments hsegments (hsingle p hp) hplain
  rw [RouteEntry.resolves, Pattern.accepts, Pattern.servesMethod, hsegs,
    matchSegments_eq_matchesPath hsegments (hsingle p hp) hplain hqs, hpm, hph, hmethod]
  simp

/-! ### The served mux -/

/-- The served mux holds the registry's routes in their order, and beside them
handlers of the server. -/
theorem serve_eq_some {reg : Registry} {before after : List GoString} {mux : ServeMux Handler}
    (h : reg.serve before after = some mux) :
    ∃ first mounted last, mux.entries = first ++ (mounted ++ last) ∧
      (∀ x ∈ first, x.2 = .other) ∧ (∀ x ∈ last, x.2 = .other) ∧
      reg.flat.map (fun e => (parsePattern e.pattern, Handler.route e)) =
        mounted.map fun x => (some x.1, x.2) := by
  simp only [Registry.serve, Registry.mount_eq, Option.bind_eq_bind, Option.bind_eq_some_iff] at h
  obtain ⟨mux₁, h₁, mux₂, h₂, h₃⟩ := h
  obtain ⟨first, hfirst, hothers₁⟩ := ServeMux.handleAll_eq_some h₁
  obtain ⟨mounted, hmounted, hroutes⟩ := ServeMux.handleAll_eq_some h₂
  obtain ⟨last, hlast, hothers₂⟩ := ServeMux.handleAll_eq_some h₃
  -- an entry that was added for a server handler carries that handler
  have hother {added : List (Pattern × Handler)} {patterns : List GoString}
      (hadded : (patterns.map fun pattern => (pattern, Handler.other)).map
        (fun m => (parsePattern m.1, m.2)) = added.map fun e => (some e.1, e.2)) :
      ∀ x ∈ added, x.2 = .other := by
    intro x hx
    have hmem : (some x.1, x.2) ∈ added.map fun e => (some e.1, e.2) := List.mem_map_of_mem hx
    rw [← hadded, List.map_map] at hmem
    obtain ⟨pattern, -, heq⟩ := List.mem_map.mp hmem
    exact (congrArg Prod.snd heq).symm
  refine ⟨first, mounted, last, ?_, hother hothers₁, hother hothers₂, ?_⟩
  · rw [hlast, hmounted, hfirst]
    simp [ServeMux.empty]
  · rw [← hroutes, List.map_map]
    rfl

/-- A route that is served stands in the index, and no pattern of an earlier
route conflicts with its own. -/
theorem flat_of_mem_serve {reg : Registry} {before after : List GoString} {mux : ServeMux Handler}
    (h : reg.serve before after = some mux) {p : Pattern} {e : RouteEntry}
    (hmem : (p, Handler.route e) ∈ mux.entries) :
    ∃ pre post, reg.flat = pre ++ e :: post ∧ parsePattern e.pattern = some p ∧
      ∀ f ∈ pre, ∃ q, parsePattern f.pattern = some q ∧ (q, Handler.route f) ∈ mux.entries ∧
        p.conflictsWith q = false := by
  obtain ⟨first, mounted, last, hentries, hfirst, hlast, hroutes⟩ := serve_eq_some h
  have hmounted : (p, Handler.route e) ∈ mounted := by
    rw [hentries, List.mem_append, List.mem_append] at hmem
    rcases hmem with hx | hx | hx
    · cases hfirst _ hx
    · exact hx
    · cases hlast _ hx
  obtain ⟨earlier, later, rfl⟩ := List.append_of_mem hmounted
  rw [List.map_append, List.map_eq_append_iff] at hroutes
  obtain ⟨pre, rest, hflat, hpre, hrest⟩ := hroutes
  rw [List.map_cons, List.map_eq_cons_iff] at hrest
  obtain ⟨e', post, rfl, he', -⟩ := hrest
  simp only [Prod.mk.injEq, Handler.route.injEq] at he'
  obtain ⟨hp, rfl⟩ := he'
  refine ⟨pre, post, hflat, hp, ?_⟩
  intro f hf
  have hx : (parsePattern f.pattern, Handler.route f) ∈ earlier.map fun x => (some x.1, x.2) :=
    hpre ▸ List.mem_map_of_mem hf
  obtain ⟨⟨q, handler⟩, hq, heq⟩ := List.mem_map.mp hx
  simp only [Prod.mk.injEq] at heq
  obtain ⟨hparse, rfl⟩ := heq
  have hpair := mux.noConflict
  rw [hentries, List.append_assoc, List.pairwise_append, List.pairwise_append] at hpair
  have hconflict := hpair.2.1.2.2 _ hq (p, Handler.route e') (by simp)
  exact ⟨q, hparse.symm, by simp [hentries, hq], hconflict⟩

/-- Within each method, no route is registered after a more general one. -/
def Registry.SpecificFirst (reg : Registry) : Prop :=
  reg.flat.Pairwise fun e f => e.endpoint.method = f.endpoint.method →
    ∀ p ∈ parsePattern e.pattern, ∀ q ∈ parsePattern f.pattern,
      q.comparePathsAndMethods p ≠ .moreSpecific

instance : DecidablePred Registry.SpecificFirst :=
  fun _ => inferInstanceAs (Decidable (List.Pairwise _ _))

/-- Labels agree with dispatch. On a mux that accepts the registry's patterns,
all of the documented shapes and none after a more general one of its method, a
request for the method of the route that serves it, without an escaped slash in
its path, is labelled with the group and name of that route. -/
theorem routeForRequest_of_dispatch (reg : Registry) (before after : List GoString)
    (mux : ServeMux Handler) (hmux : reg.serve before after = some mux)
    (hdoc : ∀ e ∈ reg.flat, e.Documented) (horder : reg.SpecificFirst)
    (r : Request) (e : RouteEntry) (hdispatch : mux.dispatch r = some (.route e))
    (hmethod : r.method = e.endpoint.method)
    (hslash : ∀ part ∈ r.escapedPath.splitOn slash, slash ∉ pathUnescape part) :
    reg.routeForRequest r.method r.path = (e.group, e.endpoint.name) := by
  obtain ⟨hclean, p, hmem, haccepts, hwins⟩ := ServeMux.dispatch_eq_some hdispatch
  obtain ⟨pre, post, hflat, hp, hearlier⟩ := flat_of_mem_serve hmux hmem
  have he : e ∈ reg.flat := hflat ▸ List.mem_append_cons_self
  have hmatches : matchesPath p.segments (requestSegments r.escapedPath) := by
    simp only [Pattern.accepts, Bool.and_eq_true] at haccepts
    exact haccepts.2
  have hqs := ne_slash_of_matchesPath hmatches ((hdoc e he).2.2 p hp)
  have hsegs := splitPathSegments_path hclean hslash hqs
  apply Registry.routeForRequest_eq hflat
  · rw [hsegs, resolves_eq_accepts he (hdoc e he) hp hmethod.symm hqs]
    exact haccepts
  · intro f hf
    by_contra hres
    rw [hsegs, Bool.not_eq_false] at hres
    have hf' : f ∈ reg.flat := hflat ▸ List.mem_append_left _ hf
    have hfmethod : f.endpoint.method = r.method := by
      simp only [RouteEntry.resolves, Bool.and_eq_true, beq_iff_eq] at hres
      exact hres.1
    obtain ⟨q, hq, hqmem, hconflict⟩ := hearlier f hf
    rw [resolves_eq_accepts hf' (hdoc f hf') hq hfmethod hqs] at hres
    -- the earlier route matches as well, so its pattern is the more general one
    rcases hwins _ hqmem hres with rfl | hprecedes
    · rw [conflictsWith_self] at hconflict
      cases hconflict
    · have hhost := (parsePattern_rooted (hmethod ▸ r.methodValid) (hdoc e he).1 hp).2.1
      have hhost' := (parsePattern_rooted (hfmethod ▸ r.methodValid) (hdoc f hf').1 hq).2.1
      have hspecific : p.comparePathsAndMethods q = .moreSpecific := by
        simpa [Pattern.precedes, hhost, hhost'] using hprecedes
      rw [Registry.SpecificFirst, hflat, List.pairwise_append] at horder
      exact horder.2.2 f hf e List.mem_cons_self (hfmethod.trans hmethod) q hq p hp hspecific

end Agreement

/-- A GET request to a server with one host. -/
def getRequest (escapedPath path : GoString) (h : unescape escapedPath = some path) : Request :=
  ⟨lit "GET", [], escapedPath, path, by decide, h⟩

/-- `GET /v1/fixed/{key}`. -/
def fixedRoute : EndpointMeta := ⟨lit "fixed", lit "GET", lit "/v1/fixed/\x7bkey\x7d"⟩

/-- The group of that route, with a literal route beside it. -/
def dataGroup : Group := ⟨lit "data", [fixedRoute, ⟨lit "sized", lit "GET", lit "/v1/sized"⟩]⟩

theorem fixed_labelled :
    ((@Registry.serve asciiNames (Registry.new.add dataGroup) [lit "GET /healthz"] [lit "GET /"]).bind
        (·.dispatch (getRequest (lit "/v1/fixed/a%20b") (lit "/v1/fixed/a b") (by decide)))) =
      some (.route ⟨lit "data", fixedRoute, splitPathSegments fixedRoute.path⟩) ∧
    (Registry.new.add dataGroup).routeForRequest (lit "GET") (lit "/v1/fixed/a b") =
      (lit "data", lit "fixed") := by
  have hdispatch : ((@Registry.serve asciiNames (Registry.new.add dataGroup) [lit "GET /healthz"]
      [lit "GET /"]).bind
        (·.dispatch (getRequest (lit "/v1/fixed/a%20b") (lit "/v1/fixed/a b") (by decide)))) =
      some (.route ⟨lit "data", fixedRoute, splitPathSegments fixedRoute.path⟩) := by decide
  refine ⟨hdispatch, ?_⟩
  obtain ⟨mux, hmux, hserved⟩ := Option.bind_eq_some_iff.mp hdispatch
  exact @routeForRequest_of_dispatch asciiNames _ _ _ mux hmux (by decide) (by decide) _ _ hserved
    rfl (by decide)

/-- `GET /files/{rest...}`. -/
def filesRoute : EndpointMeta := ⟨lit "download", lit "GET", lit "/files/\x7brest...\x7d"⟩

/-- A multi-segment wildcard is served but not labelled. -/
theorem multi_not_labelled :
    ((@Registry.serve asciiNames (Registry.new.add ⟨lit "files", [filesRoute]⟩) [] []).bind
        (·.dispatch (getRequest (lit "/files/a/b") (lit "/files/a/b") (by decide)))) =
      some (.route ⟨lit "files", filesRoute, splitPathSegments filesRoute.path⟩) ∧
    (Registry.new.add ⟨lit "files", [filesRoute]⟩).routeForRequest (lit "GET") (lit "/files/a/b") =
      ([], []) := by
  decide

end ApiTest.Endpoints
