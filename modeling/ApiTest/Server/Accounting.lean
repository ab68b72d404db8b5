import ApiTest.Server.Starts

/-! What a client's request leaves behind. The request that Try-It or a replay makes of it
stands under `/v1/` and so never comes back to the portal: a client's request is dispatched
at most twice and runs at most one endpoint. From that follow the account, one event under
the id of the response and for the identity of the access line, and that no endpoint runs
for a client who was not let in. -/

open ApiTest.Inbound

namespace ApiTest.Server

open Text Audit Net Endpoints Portal Middleware

/-! ### Who a request runs as -/

theorem ofChain_runs {x : Except Failure (Option Inbound.Identity)} {id : Option Inbound.Identity}
    (h : (ofChain x).runs = some id) : x = .ok id := by
  cases x with
  | ok id' => exact congrArg _ (Option.some.inj h)
  | error e =>
    unfold ofChain at h
    dsimp only at h
    split_ifs at h <;> cases h

/-- Who a request runs as: the identity it carries, or what the chain makes of it. -/
theorem runs_cases [UnicodeCase] {chain : Chain} {pre : Option Inbound.Identity} {wire : Wire}
    {id : Option Inbound.Identity} (h : (identity chain pre wire).runs = some id) :
    (id = pre ∧ pre.isSome = true) ∨
      chain.authenticate wire = .ok id ∧ (pre.isSome = true → hasInboundCredential wire = true) := by
  unfold identity at h
  cases pre with
  | none => exact Or.inr ⟨ofChain_runs h, fun hpre => by cases hpre⟩
  | some pre =>
    dsimp only at h
    split_ifs at h with hcredential
    · exact Or.inl ⟨(Option.some.inj h).symm, rfl⟩
    · exact Or.inr ⟨ofChain_runs h, fun _ => by simpa using hcredential⟩

/-! ### First segments -/

theorem head_of_accepts {p : Pattern} {host method : GoString} {segments : List GoString}
    {part : GoString} {segs : List Segment} (hp : p.segments = .literal part :: segs)
    (h : p.accepts host method segments) :
    ∃ rest, segments = part :: rest ∧ matchesPath segs rest = true := by
  simp only [Pattern.accepts, Bool.and_eq_true, hp] at h
  cases segments with
  | nil => cases h.2
  | cons first rest =>
    simp only [matchesPath, Bool.and_eq_true, beq_iff_eq] at h
    exact ⟨rest, by rw [h.2.1], h.2.2⟩

/-- The first segment of a versioned path starts with its `v`. -/
theorem head_of_versioned {escaped : GoString} (h : Versioned escaped) :
    ∃ tail rest, requestSegments escaped = (0x76 :: tail) :: rest := by
  obtain ⟨s, rfl⟩ := h
  obtain ⟨parts, hparts⟩ := splitOn_head (0x76 :: s)
  have hfirst : (0x76 :: s).takeWhile (· ≠ slash) = 0x76 :: s.takeWhile (· ≠ slash) := rfl
  have hdecoded : ∃ tail, pathUnescape (0x76 :: s.takeWhile (· ≠ slash)) = 0x76 :: tail := by
    unfold pathUnescape
    rw [unescape_cons (by decide)]
    cases unescape (s.takeWhile (· ≠ slash)) with
    | none => exact ⟨_, rfl⟩
    | some decoded => exact ⟨decoded, rfl⟩
  obtain ⟨tail, htail⟩ := hdecoded
  refine ⟨tail, segmentsOf parts, ?_⟩
  rw [requestSegments, splitOn_cons_slash, List.tail_cons, hparts, hfirst, segmentsOf,
    if_neg (fun hnil => by cases hnil.1), htail]

theorem firstPart_portal : ∀ route ∈ portalRoutes,
    (splitMethod route.pattern).2.head? = some slash ∧ firstPart route.pattern = lit "api" := by
  unfold portalRoutes
  repeat rw [lit_ofList]
  decide +kernel

/-- The handlers that dispatch a request stand under POST, behind the header check. -/
theorem method_of_dispatching : ∀ route ∈ portalRoutes,
    route.handler ∈ [PortalHandler.tryIt, .auditReplay] →
      route.csrf = true ∧ (splitMethod route.pattern).1 = lit "POST" := by
  unfold portalRoutes
  repeat rw [lit_ofList]
  decide +kernel

section
variable [WildcardNames]

/-- A pattern of the portal opens with `api`. -/
theorem pattern_of_portal {route : PortalRoute} (hroute : route ∈ portalRoutes) {p : Pattern}
    (hp : parsePattern route.pattern = some p) : ∃ segs, p.segments = .literal (lit "api") :: segs := by
  obtain ⟨hroot, hfirst⟩ := firstPart_portal route hroute
  obtain ⟨-, -, hsegments⟩ := parsePattern_eq_some hp hroot
  obtain ⟨rest, hrest⟩ := List.head?_eq_some_iff.mp hroot
  obtain ⟨parts, hparts⟩ := splitOn_head rest
  rw [firstPart, hrest, List.tail_cons] at hfirst
  rw [hrest, splitOn_cons_slash, List.tail_cons, hparts, hfirst] at hsegments
  exact literal_of_parseSegments hsegments (by decide) (by decide)

theorem parseSegments_ne_nil {part : GoString} {seen rest : List GoString}
    {segments : List Segment} (h : parseSegments seen (part :: rest) = some segments) :
    segments ≠ [] := by
  rw [parseSegments] at h
  split_ifs at h with hlast hbrace
  · cases h
    exact List.cons_ne_nil _ _
  · split at h
    next => cases h
    next s hs =>
      obtain ⟨segs, -, rfl⟩ := Option.map_eq_some_iff.mp h
      exact List.cons_ne_nil _ _
  · obtain ⟨segs, -, rfl⟩ := Option.map_eq_some_iff.mp h
    exact List.cons_ne_nil _ _

/-- A pattern under `/v1/` has a segment behind `v1`. -/
theorem pattern_of_v1 {method path : GoString} (hm : validMethod method)
    (hv1 : lit "/v1/" <+: path) {p : Pattern} (hp : parsePattern (method ++ 0x20 :: path) = some p) :
    ∃ segs, p.segments = .literal (lit "v1") :: segs ∧ segs ≠ [] := by
  obtain ⟨rest, rfl⟩ := hv1
  obtain ⟨-, -, hsegments⟩ := parsePattern_rooted hm rfl hp
  have hsplit : (lit "/v1/" ++ rest).splitOn slash = [] :: lit "v1" :: rest.splitOn slash := by
    rw [show lit "/v1/" ++ rest = slash :: (lit "v1" ++ slash :: rest) from rfl, splitOn_cons_slash,
      List.splitOn_append_cons_self_of_not_mem (by decide)]
  obtain ⟨parts, hparts⟩ := splitOn_head rest
  rw [hsplit, List.tail_cons, hparts, parseSegments, if_neg (by simp), if_pos (by decide),
    pathUnescape_of_not_mem (by decide)] at hsegments
  obtain ⟨segs, hsegs, hp⟩ := Option.map_eq_some_iff.mp hsegments
  exact ⟨segs, hp.symm, parseSegments_ne_nil hsegs⟩

end

theorem rooted_of_clean {p : GoString} (h : cleanPath p = p) : ∃ s, p = slash :: s := by
  rw [← h]
  unfold cleanPath
  dsimp only
  split_ifs
  · exact ⟨_, rfl⟩
  · exact ⟨_, rfl⟩

/-- A path with a segment behind `v1` is under `/v1/`. -/
theorem v1_of_segments {r : Net.Request} (hclean : cleanPath r.escapedPath = r.escapedPath)
    {rest : List GoString} (h : requestSegments r.escapedPath = lit "v1" :: rest) (hrest : rest ≠ []) :
    lit "/v1/" <+: r.path := by
  obtain ⟨s, hs⟩ := rooted_of_clean hclean
  obtain ⟨parts, hparts⟩ := splitOn_head s
  have hjoin : [slash].intercalate (s.splitOn slash) = s := List.intercalate_splitOn slash
  rw [requestSegments, hs, splitOn_cons_slash, List.tail_cons, hparts, segmentsOf] at h
  rw [hparts] at hjoin
  generalize s.takeWhile (· ≠ slash) = part at h hjoin
  have hdecodes := r.decodes
  cases parts with
  | nil =>
    -- nothing stands behind the first segment
    split_ifs at h
    · exact absurd (List.cons.inj h).1 (by decide)
    · exact absurd (List.cons.inj h).2.symm hrest
  | cons next parts =>
    rw [if_neg fun hnil => List.cons_ne_nil _ _ hnil.2, List.cons.injEq] at h
    rw [List.intercalate_cons_cons, List.append_assoc, List.singleton_append] at hjoin
    rw [hs, unescape_cons (by decide), ← hjoin, unescape_append_slash] at hdecodes
    simp only [Option.map_eq_some_iff, Option.bind_eq_some_iff] at hdecodes
    obtain ⟨_, ⟨first, hfirst, behind, -, rfl⟩, hpath⟩ := hdecodes
    rw [pathUnescape_of_unescape hfirst] at h
    rw [← hpath, h.1]
    exact ⟨behind, rfl⟩

namespace Application

variable [WildcardNames] [UnicodeCase] [ResponseJSON] (app : Application)

/-! ### What the mux leads to -/

theorem v1_of_registry : ∀ e ∈ app.registry.flat,
    validMethod e.endpoint.method ∧ lit "/v1/" <+: e.endpoint.path :=
  fun _ he => routeTable_v1 _ (mem_routeTable app.redactKeys he)

/-- A route of the registry serves paths under `/v1/`. -/
theorem v1_of_route {r : Net.Request} {e : RouteEntry} (h : app.mux.dispatch r = some (.route e)) :
    lit "/v1/" <+: r.path := by
  obtain ⟨hclean, p, hmem, haccepts, -⟩ := ServeMux.dispatch_eq_some h
  obtain ⟨f, hf, hp, -⟩ | ⟨route, -, -, hroute⟩ | hother := mem_serverMux app.mounted hmem
  · obtain ⟨hvalid, hv1⟩ := app.v1_of_registry f hf
    obtain ⟨segs, hsegs, hne⟩ := pattern_of_v1 hvalid hv1 hp
    obtain ⟨rest, hrest, hmatches⟩ := head_of_accepts hsegs haccepts
    refine v1_of_segments hclean hrest ?_
    rintro rfl
    cases segs with
    | nil => exact hne rfl
    | cons s segs => cases s <;> cases hmatches
  · cases hroute
  · cases hother

theorem portal_of_dispatch {r : Net.Request} {route : PortalRoute}
    (h : app.mux.dispatch r = some (.portal route)) :
    route ∈ portalRoutes ∧ ∃ p, parsePattern route.pattern = some p ∧
      p.accepts r.host r.method (requestSegments r.escapedPath) := by
  obtain ⟨-, p, hmem, haccepts, -⟩ := ServeMux.dispatch_eq_some h
  obtain ⟨e, -, -, he⟩ | ⟨route', hroute, hp, hsame⟩ | hother := mem_serverMux app.mounted hmem
  · cases he
  · cases hsame
    exact ⟨hroute, p, hp, haccepts⟩
  · cases hother

/-- A route of the portal serves no versioned path. -/
theorem not_versioned_of_portal {r : Net.Request} {route : PortalRoute}
    (h : app.mux.dispatch r = some (.portal route)) : ¬ Versioned r.escapedPath := by
  obtain ⟨hroute, p, hp, haccepts⟩ := app.portal_of_dispatch h
  obtain ⟨segs, hsegs⟩ := pattern_of_portal hroute hp
  obtain ⟨rest, hrest, -⟩ := head_of_accepts hsegs haccepts
  intro hversioned
  obtain ⟨tail, rest', hhead⟩ := head_of_versioned hversioned
  rw [hrest, List.cons.injEq] at hhead
  exact absurd (congrArg List.head? hhead.1) (show (lit "api").head? ≠ some 0x76 by decide)

/-! ### The dispatched request -/

variable [HMAC] [PayloadJSON] [HostSyntax] [UUIDSyntax] (now : Time) (clock : Clock)

omit [WildcardNames] [UnicodeCase] [ResponseJSON] [HMAC] [PayloadJSON] [HostSyntax] [UUIDSyntax] in
theorem arriving_eq_some {requestID : GoString} {out : OutRequest} {r : Arriving}
    (h : OutRequest.arriving requestID out = some r) :
    r.requestID = requestID ∧ r.escapedPath = out.url.escapedPath ∧ r.identity = out.identity := by
  obtain ⟨req, hreq, rfl⟩ := Option.map_eq_some_iff.mp h
  unfold OutRequest.muxRequest at hreq
  split_ifs at hreq
  cases hreq
  exact ⟨rfl, rfl, rfl⟩

/-- What a dispatched request has from the one it comes from: the request id, and as its
identity the operator's. Its path is versioned. -/
structure DispatchedFrom (route : PortalRoute) (r r' : Arriving) : Prop where
  requestID : r'.requestID = r.requestID
  versioned : Versioned r'.escapedPath
  handler : route.handler ∈ [PortalHandler.tryIt, .auditReplay]
  operator : ∃ operator, Admitted app.portalAuth now r.toPortalRequest operator ∧
    r'.identity = some (portalIdentityToInbound operator)
  csrf : route.csrf = true → r.method ∈ [lit "POST", lit "PUT", lit "PATCH", lit "DELETE"] →
    r.wire.headerGet (lit "X-Requested-With") ≠ []

theorem dispatched_eq_some {route : PortalRoute} {r r' : Arriving}
    (h : app.dispatched now route r = some r') : app.DispatchedFrom now route r r' := by
  unfold dispatched at h
  dsimp only at h
  split at h
  next operator hran =>
    obtain ⟨hhandler, ⟨id, rfl, hadmitted⟩, hcsrf⟩ := PortalAuth.mounted_ran hran
    obtain ⟨out, hout, harriving⟩ := Option.bind_eq_some_iff.mp h
    have hout := ok_of_toOption hout
    obtain ⟨hid, hpath, hidentity⟩ := arriving_eq_some harriving
    obtain ⟨_, _, _, _, -, -, htried⟩ := dispatchTryIt_eq_ok hout
    refine ⟨hid, ?_, by simp [← hhandler], ⟨id, hadmitted, hidentity.trans htried.identity⟩, hcsrf⟩
    rw [hpath]
    exact versioned_of_dispatchTryIt (fun e he => (app.v1_of_registry e he).2) hout
  next operator hran =>
    obtain ⟨hhandler, ⟨id, rfl, hadmitted⟩, hcsrf⟩ := PortalAuth.mounted_ran hran
    obtain ⟨⟨replayed, out⟩, hout, harriving⟩ := Option.bind_eq_some_iff.mp h
    have hout := ok_of_toOption hout
    obtain ⟨hid, hpath, hidentity⟩ := arriving_eq_some harriving
    obtain ⟨-, _, _, -, -, hrebuild⟩ := auditReplay_eq_ok hout
    obtain ⟨_, _, hrebuilt⟩ := rebuilt_of_rebuild hrebuild
    refine ⟨hid, ?_, by simp [← hhandler], ⟨id, hadmitted, hidentity.trans hrebuilt.identity⟩, hcsrf⟩
    rw [hpath]
    exact versioned_of_auditReplay hout
  next => cases h

/-! ### Depth -/

/-- A versioned request ends at a route or nowhere. -/
theorem serveMux_of_versioned {r : Arriving} (h : Versioned r.escapedPath) (depth : ℕ) :
    app.serveMux now clock (depth + 1) r = app.serveMux now clock 1 r := by
  rw [serveMux, serveMux]
  cases hdispatch : app.mux.dispatch r.toRequest with
  | none => rfl
  | some mounted =>
    cases mounted with
    | route e => rfl
    | portal route => exact absurd h (app.not_versioned_of_portal hdispatch)
    | other => rfl

/-- No request is dispatched more than twice. -/
theorem serveMux_depth (depth : ℕ) (r : Arriving) :
    app.serveMux now clock (depth + 2) r = app.serveMux now clock 2 r := by
  rw [serveMux, serveMux]
  cases hdispatch : app.mux.dispatch r.toRequest with
  | none => rfl
  | some mounted =>
    cases mounted with
    | route e => rfl
    | other => rfl
    | portal route =>
      dsimp only
      cases hr' : app.dispatched now route r with
      | none => rfl
      | some r' =>
        have hversioned := (app.dispatched_eq_some now hr').versioned
        rw [Option.map_some, Option.map_some, app.serveMux_of_versioned now clock hversioned depth]

/-- The request whose endpoint runs: the one that arrived, or the one the portal made of
it. -/
inductive Reaching (r : Arriving) : Arriving → Prop
  | direct : Reaching r r
  | dispatched {route : PortalRoute} {r' : Arriving}
      (hmux : app.mux.dispatch r.toRequest = some (.portal route))
      (hfrom : app.DispatchedFrom now route r r') : Reaching r r'

/-- Nothing happens, or one endpoint runs. -/
theorem serveMux_cases (depth : ℕ) (r : Arriving) :
    app.serveMux now clock depth r = {} ∨
      ∃ e r', app.mux.dispatch r'.toRequest = some (.route e) ∧ app.Reaching now r r' ∧
        app.serveMux now clock depth r = app.endpoint clock e r' := by
  induction depth generalizing r with
  | zero => exact Or.inl rfl
  | succ depth ih =>
    rw [serveMux]
    cases hdispatch : app.mux.dispatch r.toRequest with
    | none => exact Or.inl rfl
    | some mounted =>
      cases mounted with
      | route e => exact Or.inr ⟨e, r, hdispatch, .direct, rfl⟩
      | other => exact Or.inl rfl
      | portal route =>
        dsimp only
        cases hr' : app.dispatched now route r with
        | none => exact Or.inl rfl
        | some r' =>
          have hfrom := app.dispatched_eq_some now hr'
          rw [Option.map_some, Option.getD_some]
          obtain hnone | ⟨e, r'', hroutes, hreaching, htrace⟩ := ih r'
          · exact Or.inl hnone
          · -- the portal is not reached a second time
            cases hreaching with
            | direct => exact Or.inr ⟨e, r', hroutes, .dispatched hdispatch hfrom, htrace⟩
            | dispatched hmux _ =>
              exact absurd hfrom.versioned (app.not_versioned_of_portal hmux)

/-! ### The account of a request -/

/-- An event names an identity. -/
structure Names (ev : Event) (id : Option Inbound.Identity) : Prop where
  subject : ev.userSubject = (id.map (·.subject)).getD []
  email : ev.userEmail = (id.map (·.email)).getD []
  authType : ev.authType = (id.map (·.authType)).getD []
  keyName : ev.apiKeyName = (id.map (·.keyName)).getD []

omit [HMAC] [PayloadJSON] [HostSyntax] [UUIDSyntax] in
/-- The trace of an endpoint: either the identity middleware has answered, or there is one
event, of the identity in the holder. -/
theorem endpoint_cases (e : RouteEntry) (r : Arriving) :
    app.endpoint clock e r = {} ∨
      ∃ id ev, (identity app.chain r.identity r.wire).runs = some id ∧
        app.endpoint clock e r = ⟨[ev], id⟩ ∧ ev.requestID = r.requestID ∧ ev.path = r.path ∧
          Names ev id := by
  unfold endpoint endpointMW
  cases hruns : (identity app.chain r.identity r.wire).runs with
  | none =>
    left
    have hruns' : (identity app.chain r.handlerRequest.identity r.handlerRequest.wire).runs = none :=
      hruns
    rw [hruns']
    rfl
  | some id =>
    right
    have hruns' : (identity app.chain r.handlerRequest.identity r.handlerRequest.wire).runs = some id :=
      hruns
    rw [hruns']
    refine ⟨id, _, rfl, rfl, rfl, rfl, ?_⟩
    cases id with
    | none => exact ⟨rfl, rfl, rfl, rfl⟩
    | some id => exact ⟨rfl, rfl, rfl, rfl⟩

/-- The event of a client's request stands for someone: the chain has accepted the request
itself, or an operator was admitted to the portal and sent a POST with the header against
forged requests. Then the event is the operator's, unless the request made for them had a
credential, which the chain has accepted. -/
inductive Authenticated (r : ClientRequest) (ev : Event) : Prop
  | chain {id : Option Inbound.Identity} (hchain : app.chain.authenticate r.wire = .ok id)
      (hnames : Names ev id) : Authenticated r ev
  | operator {operator : Auth.Identity}
      (hadmitted : Admitted app.portalAuth now r.toPortalRequest operator)
      (hmethod : r.method = lit "POST") (hheader : r.wire.headerGet (lit "X-Requested-With") ≠ [])
      (hnames : Names ev (some (portalIdentityToInbound operator))) : Authenticated r ev
  | credential {operator : Auth.Identity} {wire : Wire} {id : Option Inbound.Identity}
      (hadmitted : Admitted app.portalAuth now r.toPortalRequest operator)
      (hmethod : r.method = lit "POST") (hheader : r.wire.headerGet (lit "X-Requested-With") ≠ [])
      (hcredential : hasInboundCredential wire = true)
      (hchain : app.chain.authenticate wire = .ok id) (hnames : Names ev id) : Authenticated r ev

/-- What a client's request leaves behind agrees: its response, its line and its events name
one request id, there is at most one event, of a path under `/v1/`, and the line names the
identity of the event and no other. -/
structure Accounted (s : Served) : Prop where
  logged : s.line.requestID = s.requestID
  once : s.events.length ≤ 1
  unidentified : s.events = [] → s.line.identity = none
  event : ∀ ev ∈ s.events, ev.requestID = s.requestID ∧ lit "/v1/" <+: ev.path ∧
    (ev.authType, ev.userSubject) = s.line.identity.getD ([], [])

variable (depth : ℕ) (uuid : GoString) (start finish : Time) (rec : StatusRecorder)
  (r : ClientRequest)

/-- A request leaves nothing behind, or the event of the one endpoint that ran. -/
theorem serveCore_cases :
    app.serveCore now clock depth (r.arriving uuid) = {} ∨
      ∃ r' id ev, app.serveCore now clock depth (r.arriving uuid) = ⟨[ev], id⟩ ∧
        app.Reaching now (r.arriving uuid) r' ∧ lit "/v1/" <+: r'.path ∧
          (identity app.chain r'.identity r'.wire).runs = some id ∧
            ev.requestID = r'.requestID ∧ ev.path = r'.path ∧ Names ev id := by
  unfold serveCore
  split_ifs
  · exact Or.inl rfl
  · exact Or.inl rfl
  · obtain hnone | ⟨e, r', hroute, hreaching, htrace⟩ :=
      app.serveMux_cases now clock depth (r.arriving uuid)
    · exact Or.inl hnone
    · obtain hnone | ⟨id, ev, hruns, hone, hid, hpath, hnames⟩ := app.endpoint_cases clock e r'
      · exact Or.inl (htrace.trans hnone)
      · exact Or.inr ⟨r', id, ev, htrace.trans hone, hreaching, app.v1_of_route hroute, hruns, hid,
          hpath, hnames⟩

theorem serve_accounted :
    app.serve now clock (depth + 2) uuid start finish rec r =
        app.serve now clock 2 uuid start finish rec r ∧
      Accounted (app.serve now clock (depth + 2) uuid start finish rec r) := by
  constructor
  · unfold serve serveCore
    rw [app.serveMux_depth now clock depth]
  · unfold serve
    obtain hnone | ⟨r', id, ev, hone, hreaching, hv1, -, hid, hpath, hnames⟩ :=
      app.serveCore_cases now clock (depth + 2) uuid r
    · rw [hnone]
      exact ⟨rfl, Nat.zero_le 1, fun _ => rfl, fun _ hev => by cases hev⟩
    · have hsame : r'.requestID = r.requestID uuid := by
        cases hreaching with
        | direct => rfl
        | dispatched _ hfrom => exact hfrom.requestID
      rw [hone]
      refine ⟨rfl, Nat.le_refl 1, (fun hnil => by cases hnil), ?_⟩
      intro ev' hev'
      cases List.mem_singleton.mp hev'
      refine ⟨hid.trans hsame, hpath ▸ hv1, ?_⟩
      rw [hnames.authType, hnames.subject]
      cases id with
      | none => rfl
      | some id => rfl

end Application

/-! ### A script that tries a route -/

theorem sampleMux_isSome :
    (@serverMux asciiNames dataRegistry (some ⟨false, true⟩) true).isSome = true :=
  Option.isSome_iff_exists.mpr (@exists_serverMux asciiCase plainJSON [] onlyData asciiNames
    (by decide +kernel) (some ⟨false, true⟩) true)

/-- A server with the `data` group and the portal, which lets every request in as `ci`.
Try-It bodies decode to the key `a`. -/
def sampleApplication : @Application asciiNames asciiCase plainJSON :=
  @Application.mk asciiNames asciiCase plainJSON [] onlyData (some ⟨false, true⟩)
    ⟨[fun _ => .ok (some (keyIdentity (lit "ci")))], true⟩ ⟨false, false, 0, []⟩ scriptAuth
    ⟨fun _ => none, none⟩ (fun _ => some { pathParams := [(lit "key", lit "a")] }) (fun _ _ => [])
    (Option.get _ sampleMux_isSome) (Option.some_get sampleMux_isSome).symm

def tryFixed : ClientRequest where
  method := lit "POST"
  host := lit "h"
  escapedPath := lit "/api/v1/portal/tryit/data/fixed"
  path := lit "/api/v1/portal/tryit/data/fixed"
  methodValid := rfl
  decodes := rfl
  header := [(lit "X-Api-Key", [lit "k"]), (lit "X-Requested-With", [lit "script"])]

def triedFixed : Served :=
  @Application.serve asciiNames asciiCase plainJSON unaryHMAC onePayload noHosts canonicalUUID
    sampleApplication 0 ⟨0, 0, 0⟩ 2 (lit "u1") 0 0 {} tryFixed

theorem triedFixed_events : triedFixed.events.map (fun ev => (ev.requestID, ev.path, ev.apiKeyName)) =
    [(lit "u1", lit "/v1/fixed/a", lit "ci")] := by
  decide +kernel

end ApiTest.Server
