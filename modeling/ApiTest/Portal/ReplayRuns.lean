import ApiTest.Portal.Replay
import ApiTest.Text.Hex
import ApiTest.Transition.Run

/-! Which events are replays. The lineage of an event travels in a request header:
the replay handler sets it, and the audit middleware copies it from whatever request
comes in. In a run of direct calls, Try-It requests and replays it can be trusted as
long as nobody else sends the header. The guard against replaying a replay looks for
the same header among the captured ones, so it depends on their capture. -/

open ApiTest.Inbound

namespace ApiTest.Portal

open Text Audit Net Middleware Multimap Transition Endpoints

/-! ### Runs -/

/-- Where a logged event comes from; a replay has the id of the event it replays. -/
inductive Origin where
  | external
  | tryIt
  | replay (id : GoString)
  deriving DecidableEq

structure Logged where
  event : Event
  origin : Origin

/-- A request on its way in: from outside, or from an operator through the portal. -/
inductive Source where
  | external (r : HandlerRequest)
  | tryIt (operator : Option Auth.Identity) (group route : GoString) (decoded : Option TryItRequest)
  | replay (operator : Option Auth.Identity) (rawID : GoString)

/-- An arrival with the handler the mux finds for it, if any, the clock, the request
id in the context and the id the logger gives to the event. -/
structure Arrival where
  source : Source
  handler : Option (HandlerRequest → List HandlerAct)
  clock : Clock
  requestID : GoString
  uuid : GoString

section Runs
variable [UnicodeCase] [HostSyntax] [UUIDSyntax] (chain : Chain) (registry : Option Registry)
  (opts : AuditOptions)

/-- The request that reaches the mux, and its origin. Nothing is in the context of a
request from outside. -/
def Arrival.request (log : List Logged) (a : Arrival) : Option (HandlerRequest × Origin) :=
  match a.source with
  | .external r => some ({ r with identity := none }, .external)
  | .tryIt operator group route decoded =>
    (dispatchTryIt true registry operator group route decoded).toOption.map fun r =>
      (r.received a.requestID, .tryIt)
  | .replay operator rawID =>
    (auditReplay true (memoryStore (log.map Logged.event)) operator rawID).toOption.map fun (id, r) =>
      (r.received a.requestID, .replay id)

/-- The event an arrival leaves behind, if it leaves one. -/
def Arrival.logs (log : List Logged) (a : Arrival) : Option Logged := do
  let (r, origin) ← a.request registry log
  let handler ← a.handler
  let ev ← endpointMW chain registry opts handler a.clock r
  return ⟨{ ev with id := a.uuid }, origin⟩

/-- One arrival; ids are never handed out twice. -/
def arrive (log : List Logged) (a : Arrival) : Option (List Logged) :=
  if a.uuid ∈ log.map (·.event.id) then none
  else some (log ++ (a.logs chain registry opts log).toList)

/-- An event that names another one as its source was made by a replay of that event. -/
def Lineage (log : List Logged) : Prop :=
  ∀ l ∈ log, ∀ p, l.event.payload = some p → p.replayedFrom ≠ [] →
    l.origin = .replay p.replayedFrom ∧ ∃ source ∈ log, source.event.id = p.replayedFrom

/-- Callers do not send the marker themselves, or send it empty. -/
def Unmarked (_ : List Logged) (a : Arrival) : Prop :=
  match a.source with
  | .external r => r.header.get replayHeaderName = []
  | .tryIt _ _ _ decoded => ∀ req ∈ decoded, ∀ e ∈ req.headers,
      canonicalMIMEHeaderKey e.1 = replayHeaderName → ∀ v ∈ e.2, v = []
  | .replay _ _ => True

/-! ### One arrival -/

omit [HostSyntax] [UUIDSyntax] in
/-- The lineage of a logged event is the marker of its request. -/
theorem replayedFrom_of_endpointMW {handler : HandlerRequest → List HandlerAct} {clock : Clock}
    {r : HandlerRequest} {ev : Event} {p : Payload}
    (h : endpointMW chain registry opts handler clock r = some ev) (hp : ev.payload = some p) :
    p.replayedFrom = r.header.get replayHeaderName := by
  obtain ⟨id, -, rfl⟩ := endpointMW_eq_some h
  obtain ⟨-, rfl⟩ := payload_of_audit hp
  rfl

/-- What the marker header of a Try-It request can hold, while its headers are
copied. -/
def OnlyEmpty (h : Values) : Prop := ∀ vs, h.lookup replayHeaderName = some vs → ∀ v ∈ vs, v = []

omit [UnicodeCase] [HostSyntax] [UUIDSyntax] in
theorem OnlyEmpty.get {h : Values} (hempty : OnlyEmpty h) : h.get replayHeaderName = [] := by
  unfold Values.get
  cases hvs : h.lookup replayHeaderName with
  | none => rfl
  | some vs =>
    cases vs with
    | nil => rfl
    | cons v vs => exact hempty _ hvs v List.mem_cons_self

omit [UnicodeCase] [HostSyntax] [UUIDSyntax] in
theorem OnlyEmpty.add {h : Values} (hempty : OnlyEmpty h) {key value : GoString}
    (hvalue : canonicalMIMEHeaderKey key = replayHeaderName → value = []) :
    OnlyEmpty (headerAdd h key value) := by
  intro vs hvs
  rw [lookup_headerAdd] at hvs
  split_ifs at hvs with hkey
  · cases hvs
    intro v hv
    rw [List.mem_append, List.mem_singleton] at hv
    obtain hv | rfl := hv
    · cases hold : h.lookup replayHeaderName with
      | none =>
        rw [hold] at hv
        cases hv
      | some old =>
        rw [hold] at hv
        exact hempty old hold v hv
    · exact hvalue hkey.symm
  · exact hempty vs hvs

omit [HostSyntax] [UUIDSyntax] in
theorem onlyEmpty_tryItHeaders {headers : Values}
    (h : ∀ e ∈ headers, canonicalMIMEHeaderKey e.1 = replayHeaderName → ∀ v ∈ e.2, v = []) :
    OnlyEmpty (tryItHeaders headers) := by
  unfold tryItHeaders
  have hkept : ∀ e ∈ headers.filter fun e => !disallowedTryItHeaders.contains (toLower e.1),
      canonicalMIMEHeaderKey e.1 = replayHeaderName → ∀ v ∈ e.2, v = [] :=
    fun e he => h e (List.mem_of_mem_filter he)
  generalize (headers.filter fun e => !disallowedTryItHeaders.contains (toLower e.1)) = kept at hkept
  have hstart : OnlyEmpty [] := by
    intro vs hvs
    cases hvs
  -- both loops keep what holds of the header map so far
  refine List.foldlRecOn kept _ hstart fun acc hacc e he => ?_
  refine List.foldlRecOn e.2 _ hacc fun acc' hacc' v hv => ?_
  exact hacc'.add fun hkey => hkept e he hkey v hv

omit [UUIDSyntax] in
theorem marker_of_tryIt {operator : Option Auth.Identity} {group route : GoString}
    {decoded : Option TryItRequest} {r : OutRequest}
    (hok : dispatchTryIt true registry operator group route decoded = .ok r)
    (h : ∀ req ∈ decoded, ∀ e ∈ req.headers,
      canonicalMIMEHeaderKey e.1 = replayHeaderName → ∀ v ∈ e.2, v = []) :
    r.header.get replayHeaderName = [] := by
  obtain ⟨endpoint, req, path, u, -, hreq, hr⟩ := dispatchTryIt_eq_ok hok
  have hmark : r.header.lookup replayHeaderName = (tryItHeaders req.headers).lookup replayHeaderName := by
    rw [hr.header, lookup_headerSet, if_neg (by decide)]
  rw [Values.get, hmark]
  exact (onlyEmpty_tryItHeaders (h req hreq)).get

omit [HostSyntax] [UUIDSyntax] in
/-- The event a logger finds under an id has it. -/
theorem id_of_finds {events : List Event} {id : GoString} (hid : id ≠ []) {ev : Event}
    {payload : Payload} (h : (memoryStore events).Finds id ev payload) : ev ∈ events ∧ ev.id = id := by
  obtain ⟨found, hfound, hhead⟩ := h.event
  cases hfound
  have hmem := List.mem_of_mem_head? hhead
  rw [query_eq] at hmem
  obtain ⟨hevent, hmatch⟩ := mem_matchAll.mp (List.mem_of_mem_drop (List.mem_of_mem_take hmem))
  refine ⟨hevent, ?_⟩
  simpa [matchesFilter, hid] using hmatch

/-- The marker of a request says what it replays, if callers do not send it. -/
theorem request_marker {log : List Logged} {a : Arrival} {r : HandlerRequest} {origin : Origin}
    (hunmarked : Unmarked log a) (h : a.request registry log = some (r, origin))
    (hmarker : r.header.get replayHeaderName ≠ []) :
    origin = .replay (r.header.get replayHeaderName) ∧
      ∃ source ∈ log, source.event.id = r.header.get replayHeaderName := by
  unfold Arrival.request at h
  unfold Unmarked at hunmarked
  split at h
  next r' hsource =>
    rw [hsource] at hunmarked
    cases h
    exact absurd hunmarked hmarker
  next operator group route decoded hsource =>
    rw [hsource] at hunmarked
    obtain ⟨out, hout, he⟩ := Option.map_eq_some_iff.mp h
    cases he
    exact absurd (marker_of_tryIt registry (ok_of_toOption hout) hunmarked) hmarker
  next operator rawID hsource =>
    obtain ⟨⟨id, out⟩, hout, he⟩ := Option.map_eq_some_iff.mp h
    cases he
    obtain ⟨hid, ev, payload, hfinds, -, hrebuild⟩ := auditReplay_eq_ok (ok_of_toOption hout)
    have hmark : out.header.get replayHeaderName = id := get_marker_of_rebuild hrebuild
    obtain ⟨hev, hevID⟩ := id_of_finds (UUIDSyntax.ne_nil hid) hfinds
    obtain ⟨source, hsource, rfl⟩ := List.mem_map.mp hev
    refine ⟨congrArg Origin.replay hmark.symm, source, hsource, hevID.trans hmark.symm⟩

/-- One arrival without a marker of its own keeps the lineage. -/
theorem lineage_arrive {log log' : List Logged} {a : Arrival} (hunmarked : Unmarked log a)
    (hlog : Lineage log) (h : arrive chain registry opts log a = some log') : Lineage log' := by
  unfold arrive at h
  split_ifs at h with hused
  cases h
  intro l hl p hp hfrom
  rw [List.mem_append, Option.mem_toList] at hl
  obtain hold | hnew := hl
  · obtain ⟨horigin, source, hsource, hid⟩ := hlog l hold p hp hfrom
    exact ⟨horigin, source, List.mem_append_left _ hsource, hid⟩
  · simp only [Arrival.logs, Option.bind_eq_bind, Option.bind_eq_some_iff] at hnew
    obtain ⟨⟨r, origin⟩, hr, handler, -, ev, hev, hl⟩ := hnew
    cases hl
    have hmarker := replayedFrom_of_endpointMW chain registry opts hev hp
    rw [hmarker] at hfrom ⊢
    obtain ⟨horigin, source, hsource, hid⟩ := request_marker registry hunmarked hr hfrom
    exact ⟨horigin, source, List.mem_append_left _ hsource, hid⟩

/-- In every run in which callers do not send the marker themselves, every event that
names a source was made by a replay of the event with that id. -/
theorem lineage_of_unmarked (arrivals : List Arrival) (log : List Logged)
    (h : run (arrive chain registry opts) [] arrivals = some log)
    (hunmarked : Meets (arrive chain registry opts) Unmarked [] arrivals) : Lineage log := by
  refine run_invariant_of_meets Lineage ?_ h hunmarked ?_
  · intro log a log' ha hlog hstep
    exact lineage_arrive chain registry opts ha hlog hstep
  · intro l hl
    cases hl

end Runs

/-! ### Two runs -/

/-- The canonical form of an id: groups of hex digits with hyphens between them. -/
def isCanonical (s : GoString) : Bool :=
  (s.splitOn 0x2D).map List.length = [8, 4, 4, 4, 12] && s.all fun c => c = 0x2D || Hex.isHex c

/-- An id for each byte. -/
def eventID (n : UInt8) : GoString := lit "3f2b8c1d-9a4e-4b7f-8d06-5c1e2f3a4b" ++ Hex.encode [n]

theorem isCanonical_eventID : isCanonical (eventID 0) = true := by decide +kernel

/-- The ids in canonical form. -/
@[reducible] def canonicalUUID : UUIDSyntax where
  parse s := if isCanonical s then some s else none
  ne_nil h := by
    split_ifs at h with hs
    cases h
    rintro rfl
    cases hs
  exists_id := ⟨eventID 0, eventID 0, if_pos isCanonical_eventID⟩

/-- Everybody is let in. -/
def openChain : Chain := ⟨[], true⟩

def captureAll : AuditOptions := ⟨true, true, 0, []⟩

/-- A request for `/v1/whoami`. -/
def whoamiRequest (header : Values) : HandlerRequest where
  method := lit "GET"
  path := lit "/v1/whoami"
  header := header

/-- An arrival at a handler that does nothing. -/
def arrival (source : Source) (uuid : GoString) : Arrival where
  source := source
  handler := some fun _ => []
  clock := ⟨0, 0, 0⟩
  requestID := []
  uuid := uuid

/-- The log after arrivals in the open server. -/
def logAfter (sources : List (Source × GoString)) : Option (List Logged) :=
  run (@arrive asciiCase noHosts canonicalUUID openChain none captureAll) []
    (sources.map fun (source, uuid) => arrival source uuid)

/-- A call and its replay. -/
theorem replay_has_lineage :
    ∃ log, logAfter [(.external (whoamiRequest []), eventID 1), (.replay none (eventID 1), eventID 2)] =
        some log ∧
      log.map Logged.origin = [.external, .replay (eventID 1)] ∧ Lineage log := by
  have horigins : (logAfter [(.external (whoamiRequest []), eventID 1),
      (.replay none (eventID 1), eventID 2)]).map (·.map Logged.origin) =
        some [.external, .replay (eventID 1)] := by decide +kernel
  obtain ⟨log, hlog, horigin⟩ := Option.map_eq_some_iff.mp horigins
  refine ⟨log, hlog, horigin, @lineage_of_unmarked asciiCase noHosts canonicalUUID openChain none captureAll
    _ log hlog ?_⟩
  exact ⟨rfl, fun _ _ => ⟨trivial, fun _ _ => trivial⟩⟩

/-- The lineages of a log with their origins. -/
def lineages (log : List Logged) : List (Origin × Option GoString) :=
  log.map fun l => (l.origin, l.event.payload.map Payload.replayedFrom)

/-- Only replays may have a lineage. -/
theorem not_lineage_of_mem {log : List Logged} {origin : Origin} {source : GoString}
    (h : (origin, some source) ∈ lineages log) (hsource : source ≠ [])
    (horigin : origin ≠ .replay source) : ¬ Lineage log := by
  intro hholds
  obtain ⟨l, hl, he⟩ := List.mem_map.mp h
  obtain ⟨rfl, hfrom⟩ := Prod.mk.inj he
  obtain ⟨p, hp, rfl⟩ := Option.map_eq_some_iff.mp hfrom
  exact horigin (hholds l hl p hp hsource).1

/-- A caller from outside that sends the marker is recorded as a replay of whatever
it names. -/
theorem marked_call_recorded_as_replay :
    ∃ log, logAfter [(.external (whoamiRequest [(replayHeaderName, [eventID 0])]), eventID 1)] = some log ∧
      lineages log = [(.external, some (eventID 0))] ∧ ¬ Lineage log := by
  have hlineages : (logAfter [(.external (whoamiRequest [(replayHeaderName, [eventID 0])]),
      eventID 1)]).map lineages = some [(.external, some (eventID 0))] := by decide +kernel
  obtain ⟨log, hlog, hlineage⟩ := Option.map_eq_some_iff.mp hlineages
  refine ⟨log, hlog, hlineage, @not_lineage_of_mem log .external (eventID 0) ?_ ?_ ?_⟩
  · rw [hlineage]
    exact List.mem_cons_self
  · decide
  · decide

end ApiTest.Portal
