import ApiTest.Configuration.Load
import ApiTest.Endpoints.Labelling
import ApiTest.Portal.ReplayGuard

/-! What a replay sends. The event keeps the decoded path of the request, and the
replay reads it as an encoded one: a path with a byte that means something in a URL
is decoded a second time or cut at it, and what is cut off becomes a query. On any
other path the request is rebuilt, with the captured query and without a
credential. -/

open ApiTest.Inbound

namespace ApiTest.Portal

open Text Audit Net Middleware Multimap Endpoints

/-! ### The URL -/

/-- A path under `/v1/` starts with a slash and a byte that no step of reading a URL
touches. -/
def Versioned (s : GoString) : Prop := ∃ rest, s = slash :: 0x76 :: rest

theorem versioned_of_v1 {s : GoString} (h : lit "/v1/" <+: s) : Versioned s := by
  obtain ⟨rest, rfl⟩ := h
  exact ⟨_, rfl⟩

theorem Versioned.rooted {s : GoString} (h : Versioned s) : Rooted s := by
  obtain ⟨rest, rfl⟩ := h
  exact rooted_cons (by simp [slash])

theorem Versioned.cut {s : GoString} (h : Versioned s) {c : UInt8} (hslash : c ≠ slash)
    (hv : c ≠ 0x76) : Versioned (Text.cut c s).1 := by
  obtain ⟨rest, rfl⟩ := h
  refine ⟨rest.takeWhile (· ≠ c), ?_⟩
  simp [Text.cut, hslash.symm, hv.symm]

theorem Versioned.unescape {s t : GoString} (h : Versioned s) (ht : Net.unescape s = some t) :
    Versioned t := by
  obtain ⟨rest, rfl⟩ := h
  rw [unescape_cons (by decide), unescape_cons (by decide), Option.map_map] at ht
  obtain ⟨rest', -, rfl⟩ := Option.map_eq_some_iff.mp ht
  exact ⟨rest', rfl⟩

section
variable [HostSyntax]

/-- The text of a captured path that is read as its query. -/
def queryPart (path : GoString) : GoString := (cut question (cut hash path).1).2

/-- The URL of a replay is written and read again without a change. -/
theorem replayURL_spec {path : GoString} {q : Values} {u : URL} (hpath : Versioned path)
    (h : replayURL path q = some u) :
    ∃ w v, parse path = some w ∧ parse u.string = some v ∧ v.path = w.path ∧
      v.rawQuery = if q = [] then queryPart path else encodeQuery (replayQuery q) := by
  obtain ⟨w, hw, rfl⟩ := Option.map_eq_some_iff.mp h
  obtain ⟨hctl, wpath, hunescape, fragment, hfragment, hwEq⟩ := (parse_rooted hpath.rooted).mp hw
  have hrooted : Rooted w.path := by
    have hcut := (hpath.cut (show hash ≠ slash by decide) (by decide)).cut
      (show question ≠ slash by decide) (by decide)
    rw [hwEq]
    exact (hcut.unescape hunescape).rooted
  have hlocal := local_of_parse hpath.rooted hw hrooted
  refine ⟨w, ?_⟩
  cases q with
  | nil =>
    have hraw : w.rawQuery = queryPart path := by rw [hwEq]; rfl
    have hbytes : ∀ c ∈ w.rawQuery, c ≠ hash ∧ isCTL c = false := by
      intro c hc
      rw [hraw] at hc
      have hmem := mem_of_mem_cut hc
      refine ⟨ne_of_mem_of_not_mem hmem (notMem_cut hash path), ?_⟩
      simpa using List.any_eq_false.mp hctl c hmem
    obtain ⟨v, hv, hvpath, hvquery, -⟩ := parse_string hlocal hbytes
    exact ⟨v, hw, hv, hvpath, hvquery.trans hraw⟩
  | cons e q =>
    obtain ⟨v, hv, hvpath, hvquery, -⟩ := parse_string
      (hlocal.withQuery (encodeQuery (replayQuery (e :: q)))) (encodeQuery_bytes _)
    exact ⟨v, hw, hv, hvpath, hvquery⟩

/-- With a path that reads as itself, the URL of a replay has it. -/
theorem replayURL_path_iff {path : GoString} (hpath : Versioned path) (q : Values) :
    (∃ u v, replayURL path q = some u ∧ parse u.string = some v ∧ v.path = path) ↔
      path.all isPlain = true := by
  rw [← parse_path_iff hpath.rooted]
  constructor
  · rintro ⟨u, v, hu, hv, hvpath⟩
    obtain ⟨w, v', hw, hv', hsame, -⟩ := replayURL_spec hpath hu
    rw [hv] at hv'
    cases hv'
    exact ⟨w, hw, hsame.symm.trans hvpath⟩
  · rintro ⟨w, hw, hwpath⟩
    have hu := congrArg (Option.map fun u : URL =>
      if q.length > 0 then { u with rawQuery := encodeQuery (replayQuery q) } else u) hw
    obtain ⟨w', v, hw', hv, hsame, -⟩ := replayURL_spec hpath hu
    rw [hw] at hw'
    cases hw'
    exact ⟨_, v, hu, hv, hsame.trans hwpath⟩

/-! ### The query -/

omit [HostSyntax] in
/-- The query that is sent again has the captured values under every name but that of
the credential. -/
theorem lookup_replayQuery {q : Values} (hq : (q.map Prod.fst).Nodup) (k : GoString) :
    ((parseQuery (encodeQuery (replayQuery q))).lookup k).getD [] =
      if isRedactedCredentialQuery k then [] else (q.lookup k).getD [] := by
  have hkept : ((q.filter fun e => !isRedactedCredentialQuery e.1).map Prod.fst).Nodup :=
    hq.sublist (List.filter_sublist.map _)
  rw [replayQuery, addedValues, lookup_parseQuery_encodeQuery (nodup_ofPairs _), lookup_ofPairs,
    valuesOf_toPairs hkept, lookup_filter_key (fun k => !isRedactedCredentialQuery k)]
  cases isRedactedCredentialQuery k <;> rfl

/-! ### The request -/

/-- The request that the replay builds, before it copies the headers. -/
def builtRequest (ev : Event) (p : Payload) (operator : Option Auth.Identity) : Option OutRequest :=
  (replayURL ev.path p.requestQuery).bind fun u =>
    newRequest ev.method u.string (p.requestBody.take replayMaxBodyBytes)
      (operator.map portalIdentityToInbound)

/-- The request is the recorded one: its method, its path, the captured query without
the credential, and the captured body up to the cap. -/
structure Faithful (ev : Event) (p : Payload) (r : OutRequest) : Prop where
  method : r.method = ev.method
  path : r.url.path = ev.path
  query : ∀ k, ((parseQuery r.url.rawQuery).lookup k).getD [] =
    if isRedactedCredentialQuery k then [] else (p.requestQuery.lookup k).getD []
  body : r.body = p.requestBody.take replayMaxBodyBytes

/-- The replay builds the recorded request and dispatches it, unless the request was
captured with the marker of a replay and is refused for that. -/
def Rebuilds [UnicodeCase] [UUIDSyntax] (store : PayloadStore) (operator : Option Auth.Identity)
    (rawID id : GoString) (ev : Event) (p : Payload) : Prop :=
  ∃ r, builtRequest ev p operator = some r ∧ Faithful ev p r ∧
    if p.requestHeaders.any fun e => isReplayMarker e.1 then
      auditReplay true store operator rawID = .error .replayOfReplay
    else ∃ header, auditReplay true store operator rawID = .ok (id, { r with header })

omit [HostSyntax] in
theorem replayHeaders_eq_none_iff [UnicodeCase] (h captured : Values) :
    replayHeaders h captured = none ↔ captured.any (fun e => isReplayMarker e.1) = true := by
  rw [replayHeaders_eq]
  split_ifs with hmarker
  · simp [hmarker]
  · simp [hmarker]

/-- Building the request and copying the headers are the two halves of the replay. -/
theorem rebuild_of_built [UnicodeCase] {ev : Event} {p : Payload} {operator : Option Auth.Identity}
    {r : OutRequest} (h : builtRequest ev p operator = some r) (id : GoString) :
    rebuild id ev p operator = (orRefuse .replayOfReplay (replayHeaders [] p.requestHeaders)).map
      fun header => { r with header := markedHeaders id p.requestContentType header } := by
  obtain ⟨u, hu, hr⟩ := Option.bind_eq_some_iff.mp h
  simp only [rebuild, hu, hr, orRefuse, ok_bind]
  cases replayHeaders [] p.requestHeaders <;> rfl

end

section
variable [UnicodeCase] [HostSyntax] [UUIDSyntax]

omit [UnicodeCase] [UUIDSyntax] in
/-- The request is built faithfully exactly if the recorded path is plain. -/
theorem faithful_iff {ev : Event} {p : Payload} (operator : Option Auth.Identity)
    (hmethod : validMethod ev.method = true) (hpath : Versioned ev.path)
    (hquery : (p.requestQuery.map Prod.fst).Nodup) :
    (∃ r, builtRequest ev p operator = some r ∧ Faithful ev p r) ↔ ev.path.all isPlain = true := by
  have hne : ev.method ≠ [] := by
    rintro hnil
    rw [hnil] at hmethod
    cases hmethod
  have hdefault : orDefault ev.method (lit "GET") = ev.method := if_neg hne
  rw [← replayURL_path_iff hpath p.requestQuery]
  constructor
  · rintro ⟨r, hr, hfaithful⟩
    obtain ⟨u, hu, hreq⟩ := Option.bind_eq_some_iff.mp hr
    exact ⟨u, r.url, hu, (newRequest_eq_some hreq).2.1, hfaithful.path⟩
  · rintro ⟨u, v, hu, hv, hvpath⟩
    obtain ⟨w, v', hw, hv', hsame, hraw⟩ := replayURL_spec hpath hu
    rw [hv] at hv'
    cases hv'
    have hnoQuery : queryPart ev.path = [] := by
      obtain ⟨hhash, hquestion⟩ :=
        cut_plain ((parse_path_iff hpath.rooted).mp ⟨w, hw, hsame.symm.trans hvpath⟩)
      rw [queryPart, hhash, hquestion]
    have hreq : newRequest ev.method u.string (p.requestBody.take replayMaxBodyBytes)
        (operator.map portalIdentityToInbound) = some ⟨ev.method, v, [],
          p.requestBody.take replayMaxBodyBytes, operator.map portalIdentityToInbound⟩ := by
      simp only [newRequest, hdefault, hmethod, if_true, hv, Option.map_some]
    refine ⟨_, Option.bind_eq_some_iff.mpr ⟨u, hu, hreq⟩, rfl, hvpath, ?_, rfl⟩
    · intro k
      dsimp only
      rw [hraw]
      by_cases hnone : p.requestQuery = []
      · rw [if_pos hnone, hnoQuery, hnone]
        split_ifs <;> rfl
      · rw [if_neg hnone, lookup_replayQuery hquery]

/-- A request of the mux with its query string, as a handler finds it. -/
def servedRequest (req : Request) (rawQuery : GoString) (rest : HandlerRequest) : HandlerRequest :=
  { rest with method := req.method, path := req.path, query := parseQuery rawQuery }

omit [HostSyntax] [UUIDSyntax] in
/-- The names of a captured query are distinct. -/
theorem nodup_captured {registry : Option Registry} {opts : AuditOptions} {clock : Clock}
    {req : Request} {rawQuery : GoString} {rest : HandlerRequest} {acts : List HandlerAct} {p : Payload}
    (h : (audit registry opts clock (servedRequest req rawQuery rest).audited acts).payload = some p) :
    (p.requestQuery.map Prod.fst).Nodup := by
  rw [(captured_of_audit h).2]
  split_ifs
  · rw [map_fst_sanitize]
    exact nodup_ofPairs _
  · exact List.nodup_nil

/-- For every request under `/v1/` that is recorded with its payload: the replay
rebuilds it if and only if all bytes of the decoded path are plain. -/
theorem replay_rebuilds_iff (registry : Option Registry) (opts : AuditOptions) (clock : Clock)
    (req : Request) (rawQuery : GoString) (rest : HandlerRequest) (acts : List HandlerAct)
    (p : Payload) (store : PayloadStore) (operator : Option Auth.Identity) (rawID id : GoString)
    (hpath : lit "/v1/" <+: req.path)
    (hp : (audit registry opts clock (servedRequest req rawQuery rest).audited acts).payload = some p)
    (hid : UUIDSyntax.parse rawID = some id)
    (hfinds : store.Finds id
      { audit registry opts clock (servedRequest req rawQuery rest).audited acts with id } p) :
    Rebuilds store operator rawID id
        { audit registry opts clock (servedRequest req rawQuery rest).audited acts with id } p ↔
      req.path.all isPlain = true := by
  have hreplay := auditReplay_of_finds hid hfinds hpath operator
  have hfaithful := @faithful_iff _
    { audit registry opts clock (servedRequest req rawQuery rest).audited acts with id } _ operator
    req.methodValid (versioned_of_v1 hpath) (nodup_captured hp)
  rw [← show _ ↔ req.path.all isPlain = true from hfaithful]
  constructor
  · rintro ⟨r, hr, hsame, -⟩
    exact ⟨r, hr, hsame⟩
  · rintro ⟨r, hr, hsame⟩
    refine ⟨r, hr, hsame, ?_⟩
    rw [hreplay, rebuild_of_built hr]
    split_ifs with hmarker
    · rw [(replayHeaders_eq_none_iff [] _).mpr hmarker]
      rfl
    · obtain ⟨header, hheader⟩ := Option.ne_none_iff_exists'.mp
        (mt (replayHeaders_eq_none_iff [] _).mp hmarker)
      rw [hheader]
      exact ⟨_, rfl⟩

/-! ### Credentials -/

omit [HostSyntax] [UUIDSyntax] in
/-- A name the replay drops is not among the headers it sends. -/
theorem lookup_replayHeaders {captured h header : Values} {name : GoString}
    (hname : ∀ b ∈ name, b.toNat < 0x80) (hdropped : isRedactedCredentialHeader name = true)
    (hok : replayHeaders h captured = some header) : header.lookup name = h.lookup name := by
  rw [replayHeaders_eq] at hok
  split_ifs at hok
  cases hok
  -- no header that is added has the name
  refine List.foldlRecOn (motive := fun m : Values => m.lookup name = h.lookup name) _ _ rfl ?_
  intro m hm e he
  have hkept := (List.mem_filter.mp he).2
  rw [← hm]
  refine lookup_headerAddAll_of_ne (fun hcanonical => ?_) e.2
  have hcredential : isRedactedCredentialHeader e.1 = true := by
    rw [isRedactedCredentialHeader, toLower_of_canonical hname hcanonical.symm]
    exact hdropped
  rw [hcredential] at hkept
  cases hkept

omit [HostSyntax] [UUIDSyntax] in
/-- The headers of a replay hold no credential. -/
theorem headerGet_replay {id contentType name : GoString} {captured header : Values}
    (hok : replayHeaders [] captured = some header)
    (hname : ∀ b ∈ canonicalMIMEHeaderKey name, b.toNat < 0x80)
    (hdropped : isRedactedCredentialHeader (canonicalMIMEHeaderKey name) = true)
    (hmarker : canonicalMIMEHeaderKey name ≠ replayHeaderName)
    (hcontent : canonicalMIMEHeaderKey name ≠ lit "Content-Type") (query : Values) :
    (⟨markedHeaders id contentType header, query⟩ : Wire).headerGet name = [] := by
  have hnone : header.lookup (canonicalMIMEHeaderKey name) = none :=
    lookup_replayHeaders hname hdropped hok
  have hmarked : (markedHeaders id contentType header).lookup (canonicalMIMEHeaderKey name) = none := by
    simp only [markedHeaders]
    split_ifs
    · rw [lookup_headerSet, if_neg, lookup_headerSet, if_neg, hnone]
      · rw [canonical_marker]
        exact hmarker
      · rw [show canonicalMIMEHeaderKey (lit "Content-Type") = lit "Content-Type" by decide]
        exact hcontent
    · rw [lookup_headerSet, if_neg, hnone]
      rw [canonical_marker]
      exact hmarker
  rw [Wire.headerGet, Values.get, hmarked]
  rfl

/-- The replay runs under the operator's identity: the request carries nothing that
`hasInboundCredential` sees, so every chain leaves it alone. -/
structure RunsAsOperator (operator : Option Auth.Identity) (requestID : GoString) (r : OutRequest) :
    Prop where
  credential : hasInboundCredential (r.received requestID).wire = false
  carried : ∀ (chain : Chain) op, operator = some op →
    identity chain (r.received requestID).identity (r.received requestID).wire =
      .carried (portalIdentityToInbound op)

omit [UUIDSyntax] in
/-- The replay of any event under `/v1/` carries a credential exactly if its path is
read as one. -/
theorem runsAsOperator_iff {id : GoString} {ev : Event} {p : Payload} {operator : Option Auth.Identity}
    {r : OutRequest} (hpath : Versioned ev.path) (hquery : (p.requestQuery.map Prod.fst).Nodup)
    (h : rebuild id ev p operator = .ok r) (requestID : GoString) :
    RunsAsOperator operator requestID r ↔
      p.requestQuery ≠ [] ∨ Values.get (parseQuery (queryPart ev.path)) (lit "api_key") = [] := by
  obtain ⟨u, header, hr⟩ := rebuilt_of_rebuild h
  obtain ⟨w, v, -, hv, -, hraw⟩ := replayURL_spec hpath hr.replayURL
  rw [hr.url] at hv
  cases hv
  have hkey : (r.received requestID).wire.headerGet (lit "X-API-Key") = [] := by
    rw [OutRequest.received, HandlerRequest.wire, hr.header]
    exact headerGet_replay hr.captured (by decide +kernel) (by rfl) (by decide +kernel) (by decide +kernel) _
  have hbearer : (r.received requestID).wire.headerGet (lit "Authorization") = [] := by
    rw [OutRequest.received, HandlerRequest.wire, hr.header]
    exact headerGet_replay hr.captured (by decide +kernel) (by rfl) (by decide +kernel) (by decide +kernel) _
  have hcredential : hasInboundCredential (r.received requestID).wire = false ↔
      Values.get (parseQuery r.url.rawQuery) (lit "api_key") = [] := by
    rw [← Bool.not_eq_true, hasInboundCredential_iff, hkey, hbearer, hasBearerScheme_nil]
    simp [OutRequest.received, HandlerRequest.wire]
  have hruns : RunsAsOperator operator requestID r ↔
      hasInboundCredential (r.received requestID).wire = false := by
    refine ⟨RunsAsOperator.credential, fun hno => ⟨hno, fun chain op hop => ?_⟩⟩
    rw [show (r.received requestID).identity = some (portalIdentityToInbound op) by
      rw [OutRequest.received, hr.identity, hop]; rfl]
    exact (identity_carried_iff chain _ _).mpr hno
  rw [hruns, hcredential, hraw]
  by_cases hnone : p.requestQuery = []
  · simp [hnone]
  · have hdropped : ((parseQuery (encodeQuery (replayQuery p.requestQuery))).lookup
        (lit "api_key")).getD [] = [] := by
      rw [lookup_replayQuery hquery, if_pos (by decide)]
    simp [hnone, Values.get, hdropped]

/-- For every recorded request and the request its replay dispatches: the replay runs
under the operator's identity if and only if a query was captured, or the decoded path
has no query part with an API key. -/
theorem replay_runs_as_operator_iff (registry : Option Registry) (opts : AuditOptions) (clock : Clock)
    (req : Request) (rawQuery : GoString) (rest : HandlerRequest) (acts : List HandlerAct)
    (p : Payload) (store : PayloadStore) (operator : Option Auth.Identity)
    (rawID id requestID : GoString) (r : OutRequest)
    (hp : (audit registry opts clock (servedRequest req rawQuery rest).audited acts).payload = some p)
    (hfinds : store.Finds id
      { audit registry opts clock (servedRequest req rawQuery rest).audited acts with id } p)
    (hreplay : auditReplay true store operator rawID = .ok (id, r)) :
    RunsAsOperator operator requestID r ↔
      (opts.captureHeaders = true ∧ parseQuery rawQuery ≠ []) ∨
        Values.get (parseQuery (queryPart req.path)) (lit "api_key") = [] := by
  obtain ⟨-, ev, p', hfinds', hpath, hrebuild⟩ := auditReplay_eq_ok hreplay
  obtain ⟨rfl, rfl⟩ := hfinds.unique hfinds'
  rw [runsAsOperator_iff (versioned_of_v1 hpath) (nodup_captured hp) hrebuild,
    (captured_of_audit hp).2]
  have hcaptured : (if opts.captureHeaders = true then
      sanitize (servedRequest req rawQuery rest).audited.query opts.redactKeys else []) ≠ [] ↔
        opts.captureHeaders = true ∧ parseQuery rawQuery ≠ [] := by
    split_ifs with hheaders
    · rw [sanitize_eq, Ne, List.map_eq_nil_iff]
      exact ⟨fun hne => ⟨hheaders, hne⟩, And.right⟩
    · exact ⟨fun hne => absurd rfl hne, fun hboth => absurd hboth.1 hheaders⟩
  rw [hcaptured]
  rfl

end

/-! ### Recorded calls of `/v1/fixed` -/

/-- Capture of everything with the default redact keys. -/
def recordingOptions : AuditOptions := ⟨true, true, 0, Configuration.defaultRedactKeys⟩

/-- The event of a call, under an id, and its payload. -/
def recordedEvent (req : Request) (rawQuery : GoString) : Event :=
  { @audit asciiCase none recordingOptions ⟨0, 0, 0⟩
      (servedRequest req rawQuery (whoamiRequest [])).audited [] with id := eventID 1 }

def recordedPayload (req : Request) (rawQuery : GoString) : Payload :=
  @payload asciiCase recordingOptions.withDefaults
    (servedRequest req rawQuery (whoamiRequest [])).audited {}

/-- Whoever replays. -/
def alice : Auth.Identity := { subject := lit "alice", authType := lit "oidc" }

/-- The replay of that event. -/
def replayRecorded (req : Request) (rawQuery : GoString) :
    Except ReplayRefusal (GoString × OutRequest) :=
  @auditReplay asciiCase noHosts canonicalUUID true
    (oneEvent (recordedEvent req rawQuery) (recordedPayload req rawQuery)) (some alice) (eventID 1)

/-- A path with an escaped blank, and a query with a key. -/
def blankRequest : Request := getRequest (lit "/v1/fixed/a%20b") (lit "/v1/fixed/a b") (by decide)

/-- A path whose last segment holds a question mark. -/
def questionRequest : Request :=
  getRequest (lit "/v1/fixed/a%3Fapi_key=k") (lit "/v1/fixed/a?api_key=k") (by decide)

/-- A path whose last segment ends in a percent sign. -/
def percentRequest : Request := getRequest (lit "/v1/fixed/100%25") (lit "/v1/fixed/100%") (by decide)

theorem blank_rebuilt :
    @Rebuilds noHosts asciiCase canonicalUUID
      (oneEvent (recordedEvent blankRequest (lit "x=1&api_key=k"))
        (recordedPayload blankRequest (lit "x=1&api_key=k"))) (some alice) (eventID 1) (eventID 1)
      (recordedEvent blankRequest (lit "x=1&api_key=k"))
      (recordedPayload blankRequest (lit "x=1&api_key=k")) :=
  (@replay_rebuilds_iff asciiCase noHosts canonicalUUID none recordingOptions ⟨0, 0, 0⟩ blankRequest
    (lit "x=1&api_key=k") (whoamiRequest []) [] _ _ (some alice) (eventID 1) (eventID 1) (by decide) rfl
    (by decide +kernel) (finds_oneEvent _ _ _)).mpr (by decide)

/-- Both calls are served, but the replay of one goes to another path, and the other
one is not replayed at all. -/
theorem escaped_paths_not_rebuilt :
    (∀ req ∈ [questionRequest, percentRequest],
      ((@Registry.serve asciiNames (Registry.new.add dataGroup) [] []).bind (·.dispatch req)) =
        some (.route ⟨lit "data", fixedRoute, splitPathSegments fixedRoute.path⟩)) ∧
    (replayRecorded questionRequest []).toOption.map (·.2.url.path) = some (lit "/v1/fixed/a") ∧
    (replayRecorded percentRequest []).toOption.map (·.2.url.path) = none := by
  refine ⟨?_, ?_, ?_⟩
  · intro req hreq
    obtain rfl | rfl := List.mem_pair.mp hreq
    · decide +kernel
    · decide +kernel
  · decide +kernel
  · decide +kernel

/-- The request with the key in its query is replayed without it, by the operator. -/
theorem key_not_replayed :
    ∃ r, replayRecorded blankRequest (lit "x=1&api_key=k") = .ok (eventID 1, r) ∧
      @RunsAsOperator asciiCase (some alice) [] r := by
  have hok : (replayRecorded blankRequest (lit "x=1&api_key=k")).toOption.map Prod.fst =
      some (eventID 1) := by decide +kernel
  obtain ⟨⟨id, r⟩, hr, hid⟩ := Option.map_eq_some_iff.mp hok
  cases hid
  have hreplay : replayRecorded blankRequest (lit "x=1&api_key=k") = .ok (eventID 1, r) :=
    ok_of_toOption hr
  refine ⟨r, hreplay, ?_⟩
  exact (@replay_runs_as_operator_iff asciiCase noHosts canonicalUUID none recordingOptions ⟨0, 0, 0⟩
    blankRequest (lit "x=1&api_key=k") (whoamiRequest []) [] _ _ (some alice) (eventID 1) (eventID 1) [] r rfl
    (finds_oneEvent _ _ _) hreplay).mpr (Or.inl ⟨rfl, by decide⟩)

/-- A key in the path is replayed as a credential. -/
theorem key_in_path_replayed :
    (replayRecorded questionRequest []).toOption.map
      (fun out => @hasInboundCredential asciiCase (out.2.received []).wire) = some true := by
  decide +kernel

end ApiTest.Portal
