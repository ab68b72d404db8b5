import ApiTest.Portal.ReplayRuns

/-! Replays of replays. Every replay is marked with a header, and the handler
refuses to replay a request that was captured with it. Redaction keeps the names of
captured headers, and so do the stores; but without the capture of headers there is
nothing to find, although the payload has the marker in a field of its own. -/

open ApiTest.Inbound

namespace ApiTest.Portal

open Text Audit Net Middleware Endpoints Transition

/-! ### Stores -/

/-- How a store writes a text: one that is ASCII it keeps. The in-memory logger keeps every
text, and JSON replaces the bytes that are not UTF-8. -/
def KeepsASCII (text : GoString → GoString) : Prop :=
  ∀ s : GoString, (∀ b ∈ s, b.toNat < 0x80) → text s = s

theorem keepsASCII_id : KeepsASCII id := fun _ _ => rfl

/-- The captured maps of a payload as a store gives them back. -/
def storedPayload (text : GoString → GoString) (p : Payload) : Payload :=
  { p with
    requestHeaders := p.requestHeaders.map fun e => (text e.1, e.2.map text)
    requestQuery := p.requestQuery.map fun e => (text e.1, e.2.map text) }

section
variable [UnicodeCase] [HostSyntax] [UUIDSyntax]

/-- The event that a replay leaves behind is not replayed: whoever asks a store that
finds it for its replay is answered with an error. -/
def ReplaysOnce (opts : AuditOptions) : Prop :=
  ∀ (chain : Chain) (registry : Option Registry) (handler : HandlerRequest → List HandlerAct)
    (clock : Clock) (requestID : GoString) (store : PayloadStore) (operator : Option Auth.Identity)
    (rawID id : GoString) (r : OutRequest) (ev : Event) (p : Payload),
    auditReplay true store operator rawID = .ok (id, r) →
    endpointMW chain registry opts handler clock (r.received requestID) = some ev →
    ev.payload = some p →
    ∀ (text : GoString → GoString) (store' : PayloadStore) (operator' : Option Auth.Identity)
      (rawID' uuid : GoString) (ev' : Event), KeepsASCII text →
      UUIDSyntax.parse rawID' = some uuid → store'.Finds uuid ev' (storedPayload text p) →
      ev'.method = ev.method → ev'.path = ev.path →
      ∃ e, auditReplay true store' operator' rawID' = .error e

/-! ### With captured headers -/

omit [HostSyntax] [UUIDSyntax] in
/-- A captured request keeps the names of its headers. -/
theorem mem_captured {registry : Option Registry} {opts : AuditOptions} {clock : Clock}
    {r : Middleware.Inbound} {acts : List HandlerAct} {p : Payload} {name : GoString}
    {vs : List GoString} (hheaders : opts.captureHeaders = true)
    (h : (audit registry opts clock r acts).payload = some p) (hname : r.header.lookup name = some vs) :
    ∃ ws, (name, ws) ∈ p.requestHeaders := by
  rw [(captured_of_audit h).1, if_pos hheaders]
  obtain ⟨before, after, hsplit, -⟩ := List.lookup_eq_some_iff.mp
    ((lookup_sanitize opts.redactKeys r.header name).trans (congrArg _ hname))
  rw [hsplit]
  exact ⟨_, List.mem_append_right _ List.mem_cons_self⟩

omit [UnicodeCase] [HostSyntax] [UUIDSyntax] in
theorem marker_ascii : ∀ b ∈ replayHeaderName, b.toNat < 0x80 := by decide +kernel

theorem replaysOnce_of_captureHeaders {opts : AuditOptions} (h : opts.captureHeaders = true) :
    ReplaysOnce opts := by
  intro chain registry handler clock requestID store operator rawID id r ev p hreplay hev hp text store'
    operator' rawID' uuid ev' htext huuid hfinds _ _
  cases hsecond : auditReplay true store' operator' rawID' with
  | error e => exact ⟨e, rfl⟩
  | ok out =>
    exfalso
    obtain ⟨id', r'⟩ := out
    obtain ⟨-, ev₀, p₀, -, -, hrebuild⟩ := auditReplay_eq_ok hreplay
    obtain ⟨hid', ev₁, p₁, hfinds₁, -, hrebuild₁⟩ := auditReplay_eq_ok hsecond
    rw [huuid] at hid'
    cases hid'
    obtain ⟨-, rfl⟩ := hfinds.unique hfinds₁
    -- the first replay was captured with its marker, the second one looks at all names
    obtain ⟨u, header, hr⟩ := rebuilt_of_rebuild hrebuild
    obtain ⟨u₁, header₁, hr₁⟩ := rebuilt_of_rebuild hrebuild₁
    have hmarked : r.header.lookup replayHeaderName = some [id] := by
      rw [hr.header, lookup_markedHeaders]
    obtain ⟨who, -, rfl⟩ := endpointMW_eq_some hev
    obtain ⟨ws, hmem⟩ := mem_captured h hp hmarked
    have hstored : (text replayHeaderName, ws.map text) ∈ (storedPayload text p).requestHeaders :=
      List.mem_map_of_mem hmem
    rw [htext _ marker_ascii] at hstored
    exact absurd (not_marker_of_replayHeaders hr₁.captured _ hstored)
      (show ¬ isReplayMarker replayHeaderName = false by decide)

/-! ### Without captured headers -/

omit [UUIDSyntax] in
/-- A plain request for `/v1/whoami` can be rebuilt. -/
theorem rebuild_whoami {ev : Event} {p : Payload} (hmethod : ev.method = lit "GET")
    (hpath : ev.path = lit "/v1/whoami") (hheaders : p.requestHeaders = [])
    (hquery : p.requestQuery = []) (id : GoString) (operator : Option Auth.Identity) :
    ∃ r, rebuild id ev p operator = .ok r ∧ r.method = lit "GET" ∧ r.url.path = lit "/v1/whoami" := by
  have hurl : replayURL ev.path p.requestQuery = some { path := lit "/v1/whoami" } := by
    rw [hpath, hquery]
    rfl
  have hstring : ({ path := lit "/v1/whoami" } : URL).string = lit "/v1/whoami" := by decide
  have hparse : parse ({ path := lit "/v1/whoami" } : URL).string =
      some { path := lit "/v1/whoami" } := by
    rw [hstring]
    rfl
  have hget : orDefault ev.method (lit "GET") = lit "GET" := by
    rw [hmethod]
    decide
  have hvalid : validMethod (orDefault ev.method (lit "GET")) = true := by
    rw [hget]
    decide
  exact ⟨_, rebuild_eq id operator hurl hvalid hparse (by rw [hheaders]; rfl), hget, rfl⟩

/-- A store with one event. -/
def oneEvent (ev : Event) (p : Payload) : PayloadStore where
  query _ := some [ev]
  getPayload := some fun _ => some (some p)

omit [UnicodeCase] [HostSyntax] [UUIDSyntax] in
theorem finds_oneEvent (id : GoString) (ev : Event) (p : Payload) : (oneEvent ev p).Finds id ev p :=
  ⟨⟨[ev], rfl, rfl⟩, _, rfl, rfl⟩

omit [HostSyntax] [UUIDSyntax] in
theorem runs_openChain (pre : Option Inbound.Identity) (w : Wire) :
    ∃ id, (Middleware.identity openChain pre w).runs = some id := by
  cases pre with
  | none => exact ⟨_, rfl⟩
  | some id =>
    unfold Middleware.identity
    dsimp only
    split_ifs
    · exact ⟨_, rfl⟩
    · exact ⟨_, rfl⟩

theorem not_replaysOnce {opts : AuditOptions} (hpayloads : opts.capturePayloads = true)
    (hheaders : opts.captureHeaders = false) : ¬ ReplaysOnce opts := by
  intro honce
  obtain ⟨raw, uuid, hid⟩ := UUIDSyntax.exists_id
  have hprefix : lit "/v1/" <+: lit "/v1/whoami" := by decide
  -- a first replay, of a call that was captured without anything
  let call : Event := { method := lit "GET", path := lit "/v1/whoami" }
  obtain ⟨r, hr, hmethod, hpath⟩ := @rebuild_whoami _ _ call {} rfl rfl rfl rfl uuid none
  have hfirst := auditReplay_of_finds hid (finds_oneEvent uuid call {}) hprefix none
  rw [hr] at hfirst
  obtain ⟨who, hwho⟩ := runs_openChain (r.received []).identity (r.received []).wire
  let served : HandlerRequest := { r.received [] with identity := who }
  have hev : endpointMW openChain none opts (fun _ => []) ⟨0, 0, 0⟩ (r.received []) =
      some (audit none opts ⟨0, 0, 0⟩ served.audited []) := by
    rw [endpointMW, hwho]
    rfl
  -- its event has no captured headers, so the second replay goes through
  obtain ⟨p, hp, -⟩ := audit_payload none opts ⟨0, 0, 0⟩ served.audited [] hpayloads
  obtain ⟨hcaptured, hquery⟩ := captured_of_audit hp
  rw [if_neg (by simp [hheaders])] at hcaptured hquery
  have hnoHeaders : (storedPayload id p).requestHeaders = [] := by rw [storedPayload, hcaptured]; rfl
  have hnoQuery : (storedPayload id p).requestQuery = [] := by rw [storedPayload, hquery]; rfl
  have hfinds := finds_oneEvent uuid (audit none opts ⟨0, 0, 0⟩ served.audited []) (storedPayload id p)
  obtain ⟨r', hr', -, -⟩ := @rebuild_whoami _ _ (audit none opts ⟨0, 0, 0⟩ served.audited []) _
    hmethod hpath hnoHeaders hnoQuery uuid none
  have heligible : lit "/v1/" <+: r.url.path := by
    rw [hpath]
    exact hprefix
  have hsecond := auditReplay_of_finds hid hfinds heligible none
  rw [hr'] at hsecond
  obtain ⟨e, he⟩ := honce _ _ _ _ _ _ _ _ _ _ _ p hfirst hev hp id _ none _ _ _ keepsASCII_id hid
    hfinds rfl rfl
  rw [he] at hsecond
  cases hsecond

/-- With the capture of payloads on, a replay is never replayed if and only if
headers are captured. -/
theorem replaysOnce_iff (opts : AuditOptions) (hpayloads : opts.capturePayloads = true) :
    ReplaysOnce opts ↔ opts.captureHeaders = true := by
  constructor
  · intro honce
    by_contra hheaders
    rw [Bool.not_eq_true] at hheaders
    exact not_replaysOnce hpayloads hheaders honce
  · exact replaysOnce_of_captureHeaders

end

/-- With headers captured, the replay of a replay is refused. -/
theorem replay_of_replay_refused :
    @ReplaysOnce asciiCase noHosts canonicalUUID ⟨true, true, 0, [lit "token"]⟩ :=
  (@replaysOnce_iff asciiCase noHosts canonicalUUID ⟨true, true, 0, [lit "token"]⟩ rfl).mpr rfl

/-- The log after a call, its replay and the replay of that, without captured
headers. -/
def replayedTwice : Option (List Logged) :=
  run (@arrive asciiCase noHosts canonicalUUID openChain none ⟨true, false, 0, []⟩) []
    [arrival (.external (whoamiRequest [])) (eventID 1), arrival (.replay none (eventID 1)) (eventID 2),
      arrival (.replay none (eventID 2)) (eventID 3)]

/-- Without them, the event of a replay is replayed in turn. -/
theorem replay_of_replay_dispatched :
    replayedTwice.map lineages = some [(.external, some []), (.replay (eventID 1), some (eventID 1)),
      (.replay (eventID 2), some (eventID 2))] := by
  decide +kernel

end ApiTest.Portal
