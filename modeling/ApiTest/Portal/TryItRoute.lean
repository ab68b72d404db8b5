import ApiTest.Portal.TryIt
import ApiTest.Server.BuildRegistry

/-! Where a Try-It request goes. `substitutePathParams` escapes the values it puts
into a template, so a value stays within its segment and is read back by the mux as
it was supplied; it refuses an empty value and one with a slash because they would
change the number of segments. The values `.` and `..` do so too: they are their own
escaped forms, and the mux redirects a path with such a segment to a shorter one. -/

namespace ApiTest.Portal

open Text Audit Net Inbound Endpoints Server

/-! ### Templates -/

/-- A segment of a path template. -/
inductive Part where
  | literal (text : GoString)
  | param (name : GoString)
  deriving DecidableEq, Repr

def Part.text : Part → GoString
  | .literal text => text
  | .param name => openBrace :: name ++ [closeBrace]

/-- A literal is a text that `PathEscape` leaves alone and the mux does not clean
away; a placeholder has a name, which is neither the end marker nor that of the rest
of the path. -/
def Part.WellFormed : Part → Prop
  | .literal text => text ≠ [] ∧ text.all (!shouldEscape · .pathSegment) = true ∧ ¬ IsDots text
  | .param name => name ≠ [] ∧ closeBrace ∉ name ∧ slash ∉ name ∧ name ≠ lit "$" ∧
      ¬ lit "..." <:+ name

instance : DecidablePred Part.WellFormed
  | .literal _ => inferInstanceAs (Decidable (_ ∧ _))
  | .param _ => inferInstanceAs (Decidable (_ ∧ _))

structure Template where
  parts : List Part
  nonempty : parts ≠ []
  wellFormed : ∀ part ∈ parts, part.WellFormed

def Template.text (t : Template) : GoString := joined (t.parts.map Part.text)

/-- The part a segment of a template is read as. -/
def readPart (s : GoString) : Part :=
  if isPlaceholder s then .param s.tail.dropLast else .literal s

def readParts (path : GoString) : List Part := (path.splitOn slash).tail.map readPart

theorem routeTable_template : ∀ r ∈ routeTable, readParts r.2 ≠ [] ∧
    (∀ part ∈ readParts r.2, part.WellFormed) ∧ joined ((readParts r.2).map Part.text) = r.2 := by
  simp only [routeTable, List.map_cons, List.map_nil]
  repeat rw [lit_ofList]
  decide +kernel

/-- A byte that needs no escape is neither a brace nor a slash. -/
theorem unescaped_ne {c : UInt8} (h : shouldEscape c .pathSegment = false) :
    c ≠ openBrace ∧ c ≠ slash ∧ c ≠ percent := by
  refine ⟨?_, ?_, ?_⟩ <;> (rintro rfl; cases h)

theorem notMem_literal {text : GoString} (h : (Part.literal text).WellFormed) :
    openBrace ∉ text ∧ slash ∉ text ∧ percent ∉ text := by
  have hbytes : ∀ c ∈ text, c ≠ openBrace ∧ c ≠ slash ∧ c ≠ percent := fun c hc =>
    unescaped_ne (by simpa using List.all_eq_true.mp h.2.1 c hc)
  exact ⟨fun hc => (hbytes _ hc).1 rfl, fun hc => (hbytes _ hc).2.1 rfl,
    fun hc => (hbytes _ hc).2.2 rfl⟩

theorem isPart_text {part : Part} (h : part.WellFormed) : IsPart part.text := by
  cases part with
  | literal text => exact ⟨h.1, (notMem_literal h).2.1⟩
  | param name =>
    refine ⟨List.cons_ne_nil _ _, ?_⟩
    simp only [Part.text, List.mem_append, List.mem_cons, List.not_mem_nil, or_false, not_or]
    exact ⟨⟨by decide, h.2.2.1⟩, by decide⟩

/-! ### Substitution -/

section Substitution
variable (params : List (GoString × GoString))

/-- Text without an opening brace is copied. -/
theorem substituteFrom_append {text : GoString} (h : openBrace ∉ text) (fuel : ℕ) (s : GoString) :
    substituteFrom params (text.length + fuel) (text ++ s) =
      (text ++ (substituteFrom params fuel s).1, (substituteFrom params fuel s).2) := by
  induction text with
  | nil => simp
  | cons c text ih =>
    rw [List.mem_cons, not_or] at h
    rw [List.length_cons, Nat.add_right_comm, List.cons_append, substituteFrom, if_neg (Ne.symm h.1),
      ih h.2]
    rfl

theorem substituteFrom_placeholder {name : GoString} (h : (Part.param name).WellFormed) (fuel : ℕ)
    (s : GoString) :
    substituteFrom params (fuel + 1) (openBrace :: (name ++ closeBrace :: s)) =
      match substituteParam params name with
      | .ok text => (text ++ (substituteFrom params fuel s).1, (substituteFrom params fuel s).2)
      | .error report => (openBrace :: name ++ closeBrace :: (substituteFrom params fuel s).1,
          report :: (substituteFrom params fuel s).2) := by
  have hmatch := placeholderName_eq_some h.1 h.2.1 h.2.2.1 s
  cases hparam : substituteParam params name <;> simp [substituteFrom, hmatch, hparam]

/-- What stands for a part of the template. -/
def Fills : Part → GoString → Prop
  | .literal text, seg => seg = text
  | .param name, seg => params.lookup name = some seg ∧ seg ≠ [] ∧ slash ∉ seg

theorem substituteParam_eq_ok {name text : GoString} (h : substituteParam params name = .ok text) :
    ∃ v, Fills params (.param name) v ∧ text = pathEscape v := by
  unfold substituteParam at h
  split at h
  next => cases h
  next v hv =>
    split_ifs at h with hnil hslash
    cases h
    exact ⟨v, ⟨hv, hnil, hslash⟩, rfl⟩

/-- Without a report, each part of the template is replaced by the escaped form of
what stands for it. -/
theorem substituteFrom_parts {parts : List Part} (hwf : ∀ part ∈ parts, part.WellFormed) {fuel : ℕ}
    (hfuel : (joined (parts.map Part.text)).length ≤ fuel) {out : GoString}
    (hout : substituteFrom params fuel (joined (parts.map Part.text)) = (out, [])) :
    ∃ segs, List.Forall₂ (Fills params) parts segs ∧ out = escapedPathOf segs := by
  induction parts generalizing fuel out with
  | nil =>
    refine ⟨[], List.Forall₂.nil, ?_⟩
    cases fuel <;> cases hout <;> rfl
  | cons part parts ih =>
    rw [List.forall_mem_cons] at hwf
    obtain ⟨hpart, hparts⟩ := hwf
    generalize hrest : joined (parts.map Part.text) = rest at ih
    have htext : joined ((part :: parts).map Part.text) = slash :: part.text ++ rest := by
      rw [← hrest]
      rfl
    rw [htext] at hfuel hout
    cases part with
    | literal text =>
      obtain ⟨hbrace, -⟩ := notMem_literal hpart
      have hcopied : openBrace ∉ slash :: text := by
        rw [List.mem_cons, not_or]
        exact ⟨by decide, hbrace⟩
      simp only [Part.text, List.length_append] at hfuel hout
      obtain ⟨k, rfl⟩ := Nat.exists_eq_add_of_le (Nat.le_of_add_right_le hfuel)
      rw [substituteFrom_append params hcopied, Prod.mk.injEq] at hout
      obtain ⟨rfl, hmissing⟩ := hout
      obtain ⟨segs, hsegs, hrest'⟩ := ih hparts (Nat.le_of_add_le_add_left hfuel) (Prod.ext rfl hmissing)
      refine ⟨text :: segs, List.Forall₂.cons rfl hsegs, ?_⟩
      rw [escapedPathOf, List.map_cons, joined_cons, pathEscape_eq_self hpart.2.1]
      exact congrArg _ hrest'
    | param name =>
      have hshape : slash :: (Part.param name).text ++ rest =
          slash :: openBrace :: (name ++ closeBrace :: rest) := by simp [Part.text]
      rw [hshape] at hfuel hout
      simp only [List.length_cons, List.length_append] at hfuel
      obtain ⟨k, rfl⟩ : ∃ k, fuel = k + 2 := ⟨fuel - 2, by omega⟩
      rw [substituteFrom, if_neg (by decide), substituteFrom_placeholder params hpart] at hout
      cases hparam : substituteParam params name with
      | error report => simp [hparam] at hout
      | ok text =>
        simp only [hparam, Prod.mk.injEq] at hout
        obtain ⟨rfl, hmissing⟩ := hout
        obtain ⟨v, hv, rfl⟩ := substituteParam_eq_ok params hparam
        obtain ⟨segs, hsegs, hrest'⟩ := ih hparts (by omega) (Prod.ext rfl hmissing)
        refine ⟨v :: segs, List.Forall₂.cons hv hsegs, ?_⟩
        exact congrArg (slash :: pathEscape v ++ ·) hrest'

theorem substitutePathParams_eq_ok {t : Template} {path : GoString}
    (h : substitutePathParams t.text params = .ok path) :
    ∃ segs, List.Forall₂ (Fills params) t.parts segs ∧ path = escapedPathOf segs := by
  simp only [substitutePathParams] at h
  split_ifs at h with hmissing
  cases h
  exact substituteFrom_parts params t.wellFormed le_rfl (Prod.ext rfl hmissing)

end Substitution

/-! ### The cleaned path -/

section Cleaned
variable (params : List (GoString × GoString))

/-- A segment of the cleaned path is what the template and the parameters say. -/
def Reads : Part → GoString → Prop
  | .literal text, seg => seg = text
  | .param name, seg => ∃ v, params.lookup name = some v ∧ unescape seg = some v

/-- The cleaned path has the segments of the template, one for one. -/
def KeepsTemplate (t : Template) (path : GoString) : Prop :=
  List.Forall₂ (Reads params) t.parts (cleanParts path)

/-- No placeholder gets one of the values `.` and `..`. -/
def NoDots (parts : List Part) : Prop :=
  ∀ name, Part.param name ∈ parts → ∀ v, params.lookup name = some v → ¬ IsDots v

variable {params} {parts : List Part} {segs : List GoString} (hwf : ∀ part ∈ parts, part.WellFormed)
  (hfills : List.Forall₂ (Fills params) parts segs)
include hwf hfills

theorem isPart_of_fills : ∀ seg ∈ segs, IsPart seg := by
  induction hfills with
  | nil => simp
  | @cons part seg parts segs hfill _ ih =>
    rw [List.forall_mem_cons] at hwf ⊢
    refine ⟨?_, ih hwf.2⟩
    cases part with
    | literal text =>
      cases hfill
      exact isPart_text hwf.1
    | param name => exact hfill.2

theorem noDots_iff : (∀ seg ∈ segs, ¬ IsDots seg) ↔ NoDots params parts := by
  induction hfills with
  | nil => simp [NoDots]
  | @cons part seg parts segs hfill _ ih =>
    rw [List.forall_mem_cons] at hwf
    rw [List.forall_mem_cons, ih hwf.2]
    cases part with
    | literal text =>
      cases hfill
      simp [NoDots, hwf.1.2.2]
    | param name =>
      obtain ⟨hlookup, -⟩ := hfill
      constructor
      · rintro ⟨hseg, hsegs⟩ n hn v hv
        obtain hn | hn := List.mem_cons.mp hn
        · cases hn
          rw [hlookup, Option.some.injEq] at hv
          exact hv ▸ hseg
        · exact hsegs n hn v hv
      · intro h
        exact ⟨h name List.mem_cons_self seg hlookup,
          fun n hn => h n (List.mem_cons_of_mem _ hn)⟩

theorem reads_of_fills : List.Forall₂ (Reads params) parts (segs.map pathEscape) := by
  induction hfills with
  | nil => exact List.Forall₂.nil
  | @cons part seg parts segs hfill _ ih =>
    rw [List.forall_mem_cons] at hwf
    refine List.Forall₂.cons ?_ (ih hwf.2)
    cases part with
    | literal text =>
      cases hfill
      exact pathEscape_eq_self hwf.1.2.1
    | param name => exact ⟨seg, hfill.1, unescape_pathEscape seg⟩

end Cleaned

section Cleaned
variable {params : List (GoString × GoString)} {t : Template} {segs : List GoString}
  (hfills : List.Forall₂ (Fills params) t.parts segs)
include hfills

theorem ne_nil_of_fills : segs ≠ [] := by
  rintro rfl
  exact t.nonempty (List.forall₂_nil_right_iff.mp hfills)

/-- Cleaning leaves the segments of the template exactly if none is given dots. -/
theorem keepsTemplate_iff : KeepsTemplate params t (escapedPathOf segs) ↔ NoDots params t.parts := by
  have hne : segs.map pathEscape ≠ [] := by simpa using ne_nil_of_fills hfills
  have hparts := isPart_of_mem_escaped (isPart_of_fills t.wellFormed hfills)
  rw [← noDots_iff t.wellFormed hfills]
  constructor
  · intro hkeeps seg hseg hdots
    -- one segment less than the template has parts
    have hlt := length_cleanParts_joined hne hparts
      ⟨_, List.mem_map_of_mem hseg, isDots_pathEscape.mpr hdots⟩
    have hlength := hkeeps.length_eq
    have hsegs := hfills.length_eq
    rw [List.length_map] at hlt
    rw [escapedPathOf] at hlength
    omega
  · intro hdots
    have hclean : cleanParts (escapedPathOf segs) = segs.map pathEscape := by
      apply cleanParts_joined hne hparts
      simpa [isDots_pathEscape] using hdots
    rw [KeepsTemplate, hclean]
    exact reads_of_fills t.wellFormed hfills

end Cleaned

/-! ### The pattern of a template -/

def Part.segment : Part → Segment
  | .literal text => .literal text
  | .param name => .wild name

theorem parseSegments_parts [WildcardNames] {parts : List Part} (hwf : ∀ part ∈ parts, part.WellFormed)
    {seen : List GoString} {segments : List Segment}
    (h : parseSegments seen (parts.map Part.text) = some segments) :
    segments = parts.map Part.segment := by
  induction parts generalizing seen segments with
  | nil =>
    cases h
    rfl
  | cons part parts ih =>
    rw [List.forall_mem_cons] at hwf
    rw [List.map_cons, parseSegments, if_neg fun he => (isPart_text hwf.1).1 he.1] at h
    cases part with
    | literal text =>
      obtain ⟨hbrace, -, hpercent⟩ := notMem_literal hwf.1
      rw [Part.text, if_pos (show 0x7B ∉ text from hbrace), pathUnescape_of_not_mem hpercent] at h
      obtain ⟨segs, hsegs, rfl⟩ := Option.map_eq_some_iff.mp h
      rw [ih hwf.2 hsegs]
      rfl
    | param name =>
      obtain ⟨hne, -, -, hend, hmulti⟩ := hwf.1
      have hbrace : 0x7B ∈ openBrace :: name ++ [closeBrace] := List.mem_cons_self
      rw [Part.text, if_neg (not_not.mpr hbrace)] at h
      have hname : (openBrace :: name ++ [closeBrace]).tail.dropLast = name := by simp
      have hends : ¬ ((openBrace :: name ++ [closeBrace]).head? ≠ some 0x7B ∨
          (openBrace :: name ++ [closeBrace]).getLast? ≠ some 0x7D) := by
        rw [List.getLast?_concat]
        simp [openBrace, closeBrace]
      split at h
      next => cases h
      next s hs =>
        simp only [parseWildcard, if_neg hends, hname, if_neg hend, if_neg hmulti] at hs
        split_ifs at hs
        cases hs
        obtain ⟨segs, hsegs, rfl⟩ := Option.map_eq_some_iff.mp h
        rw [ih hwf.2 hsegs]
        rfl

theorem not_lastMulti_of_parts {parts : List Part} {p : Pattern} (hp : p.segments = parts.map Part.segment) :
    p.lastMulti = false := by
  unfold Pattern.lastMulti
  rw [hp, List.getLast?_map]
  cases parts.getLast? with
  | none => rfl
  | some part => cases part <;> rfl

section Match
variable {params : List (GoString × GoString)} {parts : List Part} {segs : List GoString}
  (hfills : List.Forall₂ (Fills params) parts segs)
include hfills

theorem matchesPath_of_fills : matchesPath (parts.map Part.segment) segs := by
  induction hfills with
  | nil => rfl
  | @cons part seg parts segs hfill _ ih =>
    cases part with
    | literal text =>
      cases hfill
      simp [Part.segment, matchesPath, ih]
    | param name =>
      have hslash : seg ≠ [slash] := by
        rintro rfl
        exact hfill.2.2 (List.mem_singleton_self _)
      simp [Part.segment, matchesPath, hslash, ih]

/-- Each placeholder is bound to the value it was given. -/
theorem boundValues_of_fills {name : GoString} (hname : Part.param name ∈ parts) :
    (boundValues (parts.map Part.segment) segs).lookup name = params.lookup name := by
  induction hfills with
  | nil => cases hname
  | @cons part seg parts segs hfill _ ih =>
    cases part with
    | literal text => exact ih (by simpa using hname)
    | param other =>
      rw [List.map_cons, Part.segment, boundValues, List.lookup_cons]
      by_cases hsame : name = other
      · subst hsame
        simp [hfill.1]
      · have hbeq : (name == other) = false := by simpa using hsame
        rw [hbeq]
        exact ih (by simpa [hsame] using hname)

end Match

/-! ### The dispatch -/

/-- The request as the mux sees it; `NewRequest` makes none with an invalid
method. -/
def OutRequest.muxRequest (r : OutRequest) : Option Net.Request :=
  if h : validMethod r.method then
    some
      { method := r.method
        host := r.url.host
        escapedPath := r.url.escapedPath
        path := r.url.path
        methodValid := h
        decodes := r.url.unescape_escapedPath }
  else none

/-- The mux serves the request with the given route, whose handler finds the
supplied values. -/
structure Reaches (mux : ServeMux Handler) (e : RouteEntry) (params : List (GoString × GoString))
    (t : Template) (r : OutRequest) : Prop where
  keeps : KeepsTemplate params t r.url.escapedPath
  dispatched : r.muxRequest.bind mux.dispatch = some (.route e)
  values : ∀ name, Part.param name ∈ t.parts →
    (r.muxRequest.bind fun req => (mux.pathValues req).lookup name) = params.lookup name

/-- The escaped path survives the two readings of the URL. -/
theorem tryItURL_escapedPathOf [HostSyntax] {segs : List GoString} (hne : segs ≠ [])
    (hsegs : ∀ seg ∈ segs, IsPart seg) (q : Values) :
    ∃ u v, tryItURL (escapedPathOf segs) q = some u ∧ parse u.string = some v ∧
      v.escapedPath = escapedPathOf segs := by
  obtain ⟨u, hu, hlocal, -, hescaped, hquery⟩ := parse_escapedPathOf hne hsegs
  rw [tryItURL, hu, Option.map_some]
  by_cases hq : q.length > 0
  · obtain ⟨v, hv, -, -, hv'⟩ := parse_string (hlocal.withQuery (encodeQuery (addedValues q)))
      (encodeQuery_bytes _)
    rw [if_pos hq]
    exact ⟨_, v, rfl, hv, hv'.trans hescaped⟩
  · obtain ⟨v, hv, -, -, hv'⟩ := parse_string hlocal (by simp [hquery])
    rw [if_neg hq]
    exact ⟨_, v, rfl, hv, hv'.trans hescaped⟩

/-- A substituted path is always dispatched. -/
theorem dispatchTryIt_of_ok [UnicodeCase] [HostSyntax] {registry : Registry} {group route : GoString}
    {e : RouteEntry}
    (he : registry.flat.find? (fun e => e.group = group && e.endpoint.name = route) = some e)
    (hvalid : validMethod e.endpoint.method) {t : Template} (ht : t.text = e.endpoint.path)
    {req : TryItRequest} (hmethod : orDefault req.method e.endpoint.method = e.endpoint.method)
    {segs : List GoString} (hfills : List.Forall₂ (Fills req.pathParams) t.parts segs)
    (hpath : substitutePathParams t.text req.pathParams = .ok (escapedPathOf segs))
    (operator : Option Auth.Identity) :
    ∃ r, dispatchTryIt true (some registry) operator group route (some req) = .ok r ∧
      r.method = e.endpoint.method ∧ r.url.escapedPath = escapedPathOf segs := by
  obtain ⟨u, v, hu, hv, hescaped⟩ := tryItURL_escapedPathOf (ne_nil_of_fills hfills)
    (isPart_of_fills t.wellFormed hfills) req.queryParams
  have hdefault : orDefault e.endpoint.method (lit "GET") = e.endpoint.method := by
    rw [orDefault, if_neg]
    intro hnil
    rw [hnil] at hvalid
    cases hvalid
  have hroute : findRoute (some registry) group route = some e.endpoint := by
    rw [findRoute, Option.bind_some, he, Option.map_some]
  have hsub : (substitutePathParams e.endpoint.path req.pathParams).mapError TryItRefusal.badParams =
      .ok (escapedPathOf segs) := by
    rw [← ht, hpath]
    rfl
  unfold dispatchTryIt
  simp only [hroute, Bool.not_true, Bool.false_eq_true, if_false, orRefuse, ok_bind, hsub, hu, hmethod,
    newRequest, hdefault, hvalid, if_true, hv, Option.map_some]
  exact ⟨_, rfl, rfl, hescaped⟩

/-- The pattern of a served route has been read. -/
theorem pattern_of_serve [WildcardNames] {reg : Registry} {before after : List GoString}
    {mux : ServeMux Handler} (hmux : reg.serve before after = some mux) {e : RouteEntry}
    (he : e ∈ reg.flat) : ∃ p, parsePattern e.pattern = some p := by
  obtain ⟨first, mounted, last, -, -, -, hroutes⟩ := serve_eq_some hmux
  have hmem : (parsePattern e.pattern, Handler.route e) ∈ mounted.map fun x => (some x.1, x.2) :=
    hroutes ▸ List.mem_map_of_mem he
  obtain ⟨x, -, hx⟩ := List.mem_map.mp hmem
  exact ⟨x.1, (congrArg Prod.fst hx).symm⟩

section Registered
variable [WildcardNames] [UnicodeCase] [ResponseJSON] {redactKeys : List GoString}
  {cfg : EndpointsConfig} {e : RouteEntry} {t : Template}
  {params : List (GoString × GoString)} {segs : List GoString}

omit [WildcardNames] in
/-- Every registered route has a template for its path. -/
theorem exists_template (he : e ∈ (buildRegistry redactKeys cfg).flat) :
    ∃ t : Template, t.text = e.endpoint.path := by
  obtain ⟨hne, hwf, htext⟩ := routeTable_template _ (mem_routeTable redactKeys he)
  exact ⟨⟨readParts e.endpoint.path, hne, hwf⟩, htext⟩

/-- The pattern of a registered route has the segments of its template. -/
theorem pattern_of_template (he : e ∈ (buildRegistry redactKeys cfg).flat)
    (ht : t.text = e.endpoint.path) {p : Pattern} (hp : parsePattern e.pattern = some p) :
    p.segments = t.parts.map Part.segment := by
  obtain ⟨hvalid, hv1⟩ := routeTable_v1 _ (mem_routeTable redactKeys he)
  obtain ⟨rest, hrest⟩ := hv1
  have hroot : e.endpoint.path.head? = some slash := by
    rw [← show lit "/v1/" ++ rest = e.endpoint.path from hrest]
    rfl
  obtain ⟨-, -, hsegments⟩ := parsePattern_rooted hvalid hroot hp
  have hsplit : (e.endpoint.path.splitOn slash).tail = t.parts.map Part.text := by
    rw [← ht, Template.text, splitOn_joined (by simpa using t.nonempty), List.tail_cons]
    intro text htext
    obtain ⟨part, hpart, rfl⟩ := List.mem_map.mp htext
    exact (isPart_text (t.wellFormed part hpart)).2
  rw [hsplit] at hsegments
  exact parseSegments_parts t.wellFormed hsegments

variable {portal : Option PortalDeps} {hasDoc : Bool} {mux : ServeMux Handler}
  (hmux : (buildRegistry redactKeys cfg).serve probePatterns (laterPatterns portal hasDoc) = some mux)
  (he : e ∈ (buildRegistry redactKeys cfg).flat) (ht : t.text = e.endpoint.path)
  (hfills : List.Forall₂ (Fills params) t.parts segs)
include hmux he ht hfills

/-- A request for the route that is read as what stands for the parts of its template
finds the route's entry. -/
theorem find_of_fills {r : Net.Request} (hmethod : r.method = e.endpoint.method)
    (hread : requestSegments r.escapedPath = segs) :
    ∃ p, p.segments = t.parts.map Part.segment ∧
      mux.find r.host r.method (requestSegments r.escapedPath) = some (p, .route e) := by
  obtain ⟨p, hp⟩ := pattern_of_serve hmux he
  have hsegments := pattern_of_template he ht hp
  have hv1 : ∀ f ∈ (buildRegistry redactKeys cfg).flat, lit "/v1/" <+: f.endpoint.path :=
    fun f hf => (routeTable_v1 _ (mem_routeTable redactKeys hf)).2
  have hmatches : matchesPath p.segments (requestSegments r.escapedPath) := by
    rw [hread, hsegments]
    exact matchesPath_of_fills hfills
  refine ⟨p, hsegments, find_route hmux hv1 he hp hmethod hmatches ?_⟩
  intro f hf q hq haccepts
  exact not_precedes redactKeys he hp hf hq (by rwa [← hmethod])

theorem reaches_iff {r : OutRequest} (hmethod : r.method = e.endpoint.method)
    (hpath : r.url.escapedPath = escapedPathOf segs) :
    Reaches mux e params t r ↔ NoDots params t.parts := by
  have hsegs := isPart_of_fills t.wellFormed hfills
  have hne := ne_nil_of_fills hfills
  have hvalid : validMethod r.method := by
    rw [hmethod]
    exact (routeTable_v1 _ (mem_routeTable redactKeys he)).1
  obtain ⟨req, hrequest, hreqMethod, hreqPath⟩ : ∃ req : Net.Request, r.muxRequest = some req ∧
      req.method = r.method ∧ req.escapedPath = r.url.escapedPath := ⟨_, dif_pos hvalid, rfl, rfl⟩
  constructor
  · intro hreaches
    exact (keepsTemplate_iff hfills).mp (hpath ▸ hreaches.keeps)
  · intro hdots
    have hread : requestSegments req.escapedPath = segs := by
      rw [hreqPath, hpath, requestSegments_escapedPathOf hne hsegs]
    have hclean : cleanPath req.escapedPath = req.escapedPath := by
      rw [hreqPath, hpath, cleanPath_escapedPathOf_iff hne hsegs, noDots_iff t.wellFormed hfills]
      exact hdots
    obtain ⟨p, hsegments, hfind⟩ := find_of_fills hmux he ht hfills (hreqMethod.trans hmethod) hread
    refine ⟨?_, ?_, ?_⟩
    · rw [hpath]
      exact (keepsTemplate_iff hfills).mpr hdots
    · rw [hrequest, Option.bind_some, ServeMux.dispatch_eq hclean hfind, if_neg]
      intro hslash
      have hlast : p.lastMulti = true := hslash.1
      rw [not_lastMulti_of_parts hsegments] at hlast
      cases hlast
    · intro name hname
      rw [hrequest, Option.bind_some, ServeMux.pathValues_eq hfind, hread, hsegments]
      exact boundValues_of_fills hfills hname

end Registered

/-! ### The result -/

/-- Try-It dispatches to the route it names, but for dots. Whatever the template and
the parameters, a path that `substitutePathParams` returns has the template's
segments after cleaning, the literal ones unchanged and the others read as the
supplied values, exactly if no placeholder gets one of the values `.` and `..`; and
exactly then the request for a registered route, sent with its method, reaches it
with these values. -/
theorem tryIt_reaches_iff [WildcardNames] [UnicodeCase] [ResponseJSON] [HostSyntax] (t : Template)
    (params : List (GoString × GoString)) (path : GoString)
    (hpath : substitutePathParams t.text params = .ok path) :
    (KeepsTemplate params t path ↔ NoDots params t.parts) ∧
      ∀ (redactKeys : List GoString) (cfg : EndpointsConfig) (portal : Option PortalDeps)
        (hasDoc : Bool) (mux : ServeMux Handler) (operator : Option Auth.Identity)
        (group route : GoString) (e : RouteEntry) (req : TryItRequest),
        (buildRegistry redactKeys cfg).serve probePatterns (laterPatterns portal hasDoc) = some mux →
        (buildRegistry redactKeys cfg).flat.find?
          (fun e => e.group = group && e.endpoint.name = route) = some e →
        t.text = e.endpoint.path → req.pathParams = params →
        orDefault req.method e.endpoint.method = e.endpoint.method →
        ∃ r, dispatchTryIt true (some (buildRegistry redactKeys cfg)) operator group route (some req) =
            .ok r ∧ (Reaches mux e params t r ↔ NoDots params t.parts) := by
  obtain ⟨segs, hfills, rfl⟩ := substitutePathParams_eq_ok params hpath
  refine ⟨keepsTemplate_iff hfills, ?_⟩
  rintro redactKeys cfg portal hasDoc mux operator group route e req hmux he ht rfl hmethod
  have hmem := List.mem_of_find?_eq_some he
  have hvalid := (routeTable_v1 _ (mem_routeTable redactKeys hmem)).1
  obtain ⟨r, hr, hrmethod, hrpath⟩ := dispatchTryIt_of_ok he hvalid ht hmethod hfills hpath operator
  exact ⟨r, hr, reaches_iff hmux hmem ht hfills hrmethod hrpath⟩

/-- The template of `/v1/fixed/{key}`. -/
def fixedTemplate : Template where
  parts := [.literal (lit "v1"), .literal (lit "fixed"), .param (lit "key")]
  nonempty := by decide
  wellFormed := by decide +kernel

/-- Only the `data` group. -/
def onlyData : EndpointsConfig := ⟨false, true, false, false, false, false, false, false, false⟩

/-- A server with the `data` group alone. -/
def dataRegistry : Registry := @buildRegistry asciiCase plainJSON [] onlyData

def fixedEntry : RouteEntry :=
  ⟨lit "data", endpoint "fixed" "GET" "/v1/fixed/\x7bkey\x7d",
    [lit "v1", lit "fixed", lit "\x7bkey\x7d"]⟩

/-- Try-It for `fixed` with the given key. -/
def tryKey (key : GoString) : Except TryItRefusal OutRequest :=
  @dispatchTryIt asciiCase noHosts true (some dataRegistry) none (lit "data") (lit "fixed")
    (some { pathParams := [(lit "key", key)] })

theorem blank_key_dispatched :
    ∃ mux r, @Registry.serve asciiNames dataRegistry probePatterns (laterPatterns none false) =
      some mux ∧ tryKey (lit "a b") = .ok r ∧
        Reaches mux fixedEntry [(lit "key", lit "a b")] fixedTemplate r := by
  have hserved : (@Registry.serve asciiNames dataRegistry probePatterns
      (laterPatterns none false)).isSome = true := by decide +kernel
  obtain ⟨mux, hmux⟩ := Option.isSome_iff_exists.mp hserved
  have hpath : (substitutePathParams fixedTemplate.text [(lit "key", lit "a b")]).toOption =
      some (lit "/v1/fixed/a%20b") := by decide +kernel
  obtain ⟨r, hr, hreaches⟩ := (@tryIt_reaches_iff asciiNames asciiCase plainJSON noHosts fixedTemplate
    [(lit "key", lit "a b")] (lit "/v1/fixed/a%20b") (ok_of_toOption hpath)).2 [] onlyData none false mux
    none (lit "data") (lit "fixed") fixedEntry { pathParams := [(lit "key", lit "a b")] } hmux
    (by decide +kernel) (by decide +kernel) rfl (by decide +kernel)
  refine ⟨mux, r, hmux, hr, hreaches.mpr ?_⟩
  intro name hname v hv
  have hkey : name = lit "key" := by simpa [fixedTemplate] using hname
  subst hkey
  have hv' : v = lit "a b" := by simpa using hv.symm
  subst hv'
  decide +kernel

/-- What becomes of a request: the parts of its path after cleaning, and the
handler it is served with. -/
structure KeyOutcome where
  cleaned : List GoString
  served : Option Handler
  deriving DecidableEq

def keyOutcome (r : OutRequest) : Option KeyOutcome :=
  (@Registry.serve asciiNames dataRegistry probePatterns (laterPatterns none false)).bind fun mux =>
    r.muxRequest.map fun req => ⟨cleanParts req.escapedPath, mux.dispatch req⟩

/-- The keys `..` and `.` are accepted, the path has lost segments after cleaning, and
no route is served. -/
theorem dots_not_dispatched :
    (tryKey (lit "..")).toOption.bind keyOutcome = some ⟨[lit "v1"], none⟩ ∧
      (tryKey (lit ".")).toOption.bind keyOutcome = some ⟨[lit "v1", lit "fixed"], none⟩ := by
  decide +kernel

end ApiTest.Portal
