import ApiTest.Audit.Memory
import ApiTest.Portal.TryIt

/-! The audit replay (`portal_audit_replay.go`): a recorded request is rebuilt from
its event and payload and sent to the mux again, marked with the id of the event it
comes from. The handler refuses what already carries the marker, drops the headers
and the query parameter that hold a redacted credential, and runs the request under
the operator's identity. -/

open ApiTest.Inbound

namespace ApiTest.Portal

open Text Audit Net Middleware Multimap

/-- `uuid.Parse` followed by `String`: the canonical form of an id, which is never
empty. There are ids. -/
class UUIDSyntax where
  parse : GoString → Option GoString
  ne_nil : ∀ {raw id}, parse raw = some id → id ≠ []
  exists_id : ∃ raw id, parse raw = some id

/-- The audit logger as the handler uses it. A query or a fetch that fails is
`none`; a logger that is no `PayloadLogger` has no `getPayload`. -/
structure PayloadStore where
  query : QueryFilter → Option (List Event)
  getPayload : Option (GoString → Option (Option Payload))

/-- A logger that keeps its events with their payloads. -/
def memoryStore [UnicodeCase] (events : List Event) : PayloadStore where
  query f := some (Audit.query events f)
  getPayload := some fun id => some ((events.find? fun ev => ev.id = id).bind Event.payload)

/-- Why nothing is replayed. -/
inductive ReplayRefusal where
  | noTarget
  | badID
  | queryFailed
  | notFound (id : GoString)
  | notEligible (path : GoString)
  | noPayloadLogger
  | payloadFailed (id : GoString)
  | noPayload (id : GoString)
  | badPath
  | badRequest
  | replayOfReplay

def ReplayRefusal.status : ReplayRefusal → ℕ
  | .noTarget => 503
  | .badID => 400
  | .queryFailed => 500
  | .notFound _ => 404
  | .notEligible _ => 400
  | .noPayloadLogger => 503
  | .payloadFailed _ => 500
  | .noPayload _ => 404
  | .badPath => 500
  | .badRequest => 500
  | .replayOfReplay => 400

def replayMaxBodyBytes : ℕ := 2 ^ 20

/-- `isRedactedCredentialQuery`. -/
def isRedactedCredentialQuery (name : GoString) : Bool := equalFold name "api_key".toList

/-- `strings.EqualFold` with the marker's name. -/
def isReplayMarker (name : GoString) : Bool := equalFold name "X-Plexara-Replay-From".toList

/-- The query that is sent again. -/
def replayQuery (q : Values) : Values :=
  addedValues (q.filter fun e => !isRedactedCredentialQuery e.1)

/-- The URL of the replay: the captured path read as a URL, with the captured query
if there is one. -/
def replayURL [HostSyntax] (path : GoString) (query : Values) : Option URL :=
  (parse path).map fun u =>
    if query.length > 0 then { u with rawQuery := encodeQuery (replayQuery query) } else u

section
variable [UnicodeCase]

/-- `isRedactedCredentialHeader`. -/
def isRedactedCredentialHeader (name : GoString) : Bool :=
  [lit "authorization", lit "x-api-key", lit "cookie"].contains (toLower name)

/-- The loop over the captured headers; `none` if one of them is the marker. -/
def replayHeaders : Values → Values → Option Values
  | h, [] => some h
  | h, (k, vs) :: rest =>
    if isReplayMarker k then none
    else if isRedactedCredentialHeader k then replayHeaders h rest
    else replayHeaders (headerAddAll h k vs) rest

/-- The headers of the replay of an event with the given id. -/
def markedHeaders (id contentType : GoString) (h : Values) : Values :=
  let h := headerSet h replayHeaderName id
  if contentType ≠ [] ∧ h.get (lit "Content-Type") = [] then
    headerSet h (lit "Content-Type") contentType
  else h

variable [HostSyntax]

/-- The request that replays an event with its payload. -/
def rebuild (id : GoString) (ev : Event) (payload : Payload) (operator : Option Auth.Identity) :
    Except ReplayRefusal OutRequest := do
  let u ← orRefuse .badPath (replayURL ev.path payload.requestQuery)
  let req ← orRefuse .badRequest (newRequest ev.method u.string
    (payload.requestBody.take replayMaxBodyBytes) (operator.map portalIdentityToInbound))
  let header ← orRefuse .replayOfReplay (replayHeaders [] payload.requestHeaders)
  .ok { req with header := markedHeaders id payload.requestContentType header }

variable [UUIDSyntax]

/-- `auditReplay` up to the dispatch: the id of the replayed event and the
request. -/
def auditReplay (wired : Bool) (store : PayloadStore) (operator : Option Auth.Identity)
    (rawID : GoString) : Except ReplayRefusal (GoString × OutRequest) :=
  if !wired then .error .noTarget
  else do
    let id ← orRefuse .badID (UUIDSyntax.parse rawID)
    let events ← orRefuse .queryFailed (store.query { limit := 1, eventID := id })
    let ev ← orRefuse (.notFound id) events.head?
    if !hasPrefix ev.path (lit "/v1/") then .error (.notEligible ev.path)
    else do
      let getPayload ← orRefuse .noPayloadLogger store.getPayload
      let fetched ← orRefuse (.payloadFailed id) (getPayload id)
      let payload ← orRefuse (.noPayload id) fetched
      let r ← rebuild id ev payload operator
      .ok (id, r)

/-- The logger finds an event with its payload under an id. -/
structure PayloadStore.Finds (store : PayloadStore) (id : GoString) (ev : Event) (payload : Payload) :
    Prop where
  event : ∃ events, store.query { limit := 1, eventID := id } = some events ∧ events.head? = some ev
  payload : ∃ get, store.getPayload = some get ∧ get id = some (some payload)

omit [UnicodeCase] [HostSyntax] [UUIDSyntax] in
theorem PayloadStore.Finds.unique {store : PayloadStore} {id : GoString} {ev ev' : Event}
    {p p' : Payload} (h : store.Finds id ev p) (h' : store.Finds id ev' p') : ev = ev' ∧ p = p' := by
  obtain ⟨⟨events, hevents, hev⟩, get, hget, hp⟩ := h
  obtain ⟨⟨events', hevents', hev'⟩, get', hget', hp'⟩ := h'
  rw [hevents] at hevents'
  cases hevents'
  rw [hget] at hget'
  cases hget'
  rw [hev] at hev'
  rw [hp] at hp'
  cases hev'
  cases hp'
  exact ⟨rfl, rfl⟩

/-- Whatever is dispatched rebuilds an event under `/v1/` that the logger finds. -/
theorem auditReplay_eq_ok {wired : Bool} {store : PayloadStore} {operator : Option Auth.Identity}
    {rawID id : GoString} {r : OutRequest}
    (h : auditReplay wired store operator rawID = .ok (id, r)) :
    UUIDSyntax.parse rawID = some id ∧ ∃ ev payload, store.Finds id ev payload ∧
      lit "/v1/" <+: ev.path ∧ rebuild id ev payload operator = .ok r := by
  unfold auditReplay at h
  split_ifs at h
  simp only [bind_eq_ok, orRefuse_eq_ok] at h
  obtain ⟨id', hid, events, hevents, ev, hev, h⟩ := h
  split_ifs at h with hpath
  simp only [bind_eq_ok, orRefuse_eq_ok] at h
  obtain ⟨get, hget, fetched, hfetched, payload, hpayload, r', hr, h⟩ := h
  cases h
  refine ⟨hid, ev, payload, ⟨⟨events, hevents, hev⟩, get, hget, hpayload ▸ hfetched⟩, ?_, hr⟩
  simpa [hasPrefix] using hpath

/-- An event under `/v1/` that the logger finds is dispatched as it is rebuilt. -/
theorem auditReplay_of_finds {store : PayloadStore} {rawID id : GoString} {ev : Event}
    {payload : Payload} (hid : UUIDSyntax.parse rawID = some id) (hfinds : store.Finds id ev payload)
    (hpath : lit "/v1/" <+: ev.path) (operator : Option Auth.Identity) :
    auditReplay true store operator rawID = (rebuild id ev payload operator).map (id, ·) := by
  obtain ⟨⟨events, hevents, hev⟩, get, hget, hpayload⟩ := hfinds
  have heligible : (!hasPrefix ev.path (lit "/v1/")) = false := by simp [hasPrefix, hpath]
  simp only [auditReplay, Bool.not_true, Bool.false_eq_true, if_false, hid, hevents, hev, hget,
    hpayload, orRefuse, ok_bind, heligible]
  cases rebuild id ev payload operator <;> rfl

end

/-! ### The marker -/

theorem canonical_marker : canonicalMIMEHeaderKey replayHeaderName = replayHeaderName := by decide

/-- Whatever was captured, the request is marked with the id. -/
theorem lookup_markedHeaders (id contentType : GoString) (h : Values) :
    (markedHeaders id contentType h).lookup replayHeaderName = some [id] := by
  have hset : (headerSet h replayHeaderName id).lookup replayHeaderName = some [id] := by
    rw [lookup_headerSet, if_pos canonical_marker.symm]
  simp only [markedHeaders]
  split_ifs
  · rw [lookup_headerSet, if_neg (by decide), hset]
  · exact hset

/-- The headers go through if none of them is the marker, all but the credentials. -/
theorem replayHeaders_eq [UnicodeCase] (h captured : Values) :
    replayHeaders h captured = if captured.any (fun e => isReplayMarker e.1) then none
      else some ((captured.filter fun e => !isRedactedCredentialHeader e.1).foldl
        (fun h e => headerAddAll h e.1 e.2) h) := by
  induction captured generalizing h with
  | nil => rfl
  | cons e captured ih =>
    obtain ⟨k, vs⟩ := e
    rw [replayHeaders, List.any_cons, List.filter_cons, ih, ih]
    dsimp only
    cases hmarker : isReplayMarker k with
    | true => rfl
    | false => cases hcredential : isRedactedCredentialHeader k <;> rfl

theorem not_marker_of_replayHeaders [UnicodeCase] {captured h header : Values}
    (hok : replayHeaders h captured = some header) : ∀ e ∈ captured, isReplayMarker e.1 = false := by
  rw [replayHeaders_eq] at hok
  split_ifs at hok with hmarker
  simpa using hmarker

section
variable [UnicodeCase] [HostSyntax] {id : GoString} {ev : Event} {payload : Payload}
  {operator : Option Auth.Identity} {r : OutRequest}

/-- What a rebuilt request is made of. -/
structure Rebuilt (id : GoString) (ev : Event) (payload : Payload) (operator : Option Auth.Identity)
    (u : URL) (header : Values) (r : OutRequest) : Prop where
  replayURL : replayURL ev.path payload.requestQuery = some u
  url : parse u.string = some r.url
  method : r.method = orDefault ev.method (lit "GET")
  captured : replayHeaders [] payload.requestHeaders = some header
  header : r.header = markedHeaders id payload.requestContentType header
  body : r.body = payload.requestBody.take replayMaxBodyBytes
  identity : r.identity = operator.map portalIdentityToInbound

theorem rebuilt_of_rebuild (h : rebuild id ev payload operator = .ok r) :
    ∃ u header, Rebuilt id ev payload operator u header r := by
  simp only [rebuild, bind_eq_ok, orRefuse_eq_ok] at h
  obtain ⟨u, hu, req, hreq, header, hheader, h⟩ := h
  obtain ⟨hmethod, hurl, -, hbody, hidentity⟩ := newRequest_eq_some hreq
  cases h
  exact ⟨u, header, hu, hurl, hmethod, hheader, rfl, hbody, hidentity⟩

/-- A request is rebuilt if its path, its method and its headers allow it. -/
theorem rebuild_eq {u v : URL} {header : Values} (id : GoString) (operator : Option Auth.Identity)
    (hu : replayURL ev.path payload.requestQuery = some u)
    (hmethod : validMethod (orDefault ev.method (lit "GET")) = true) (hv : parse u.string = some v)
    (hheader : replayHeaders [] payload.requestHeaders = some header) :
    rebuild id ev payload operator = .ok {
      method := orDefault ev.method (lit "GET")
      url := v
      header := markedHeaders id payload.requestContentType header
      body := payload.requestBody.take replayMaxBodyBytes
      identity := operator.map portalIdentityToInbound } := by
  simp only [rebuild, newRequest, hu, hmethod, hv, hheader, orRefuse, ok_bind, if_true,
    Option.map_some]

/-- The request of a replay is marked with the id of the event. -/
theorem get_marker_of_rebuild (h : rebuild id ev payload operator = .ok r) :
    r.header.get replayHeaderName = id := by
  obtain ⟨u, header, hr⟩ := rebuilt_of_rebuild h
  rw [hr.header, Values.get, lookup_markedHeaders]
  rfl

end

end ApiTest.Portal
