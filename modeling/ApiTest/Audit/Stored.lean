import ApiTest.Audit.Postgres
import ApiTest.Audit.Select
import ApiTest.Multimap.Basic

/-! Reading from the Postgres store. `Query` evaluates its statement over the rows of
`audit_events` and scans them into events; `GetPayload` scans the payload row of an
event and decodes its JSON columns. What `Log` has written is read back, by it and
after any calls of `Log` that follow, except that JSON has replaced the bytes of header
and query strings that are not UTF-8. -/

namespace ApiTest.Audit.Postgres

open Text Relational Multimap

/-! ### `Query` -/

/-- The value of a column in a row; `none` is NULL. -/
def Column.stored (r : EventRow) : Column → Option Arg
  | .ts => r.ts.map fun us => .time (us * 1000)
  | .method => r.method.map .text
  | .path => r.path.map .text
  | .routeName => r.routeName.map .text
  | .userSubject => r.userSubject.map .text
  | .sessionID => r.sessionID.map .text
  | .id => r.id.map .text
  | .status => r.status.map .int
  | .success => r.success.map .bool

/-- A bound value as the database gets it: instants lose what is below a microsecond. -/
def Arg.sent : Arg → Arg
  | .time t => .time (t / 1000 * 1000)
  | val => val

section Query
variable [UnicodeCase]

/-- A comparison with NULL does not hold. -/
def Predicate.selects (r : EventRow) : Predicate → Arg → Bool
  | .compare column op, val => (column.stored r).any fun stored => op.holds stored val
  | .search, .text pattern => r.path.any (ilike · pattern) || r.errorMessage.any (ilike · pattern)
  | .search, _ => false

def Clause.selects (args : List Arg) (r : EventRow) (c : Clause) : Bool :=
  args[c.index - 1]?.any fun val => c.predicate.selects r val.sent

/-- `ORDER BY ts DESC, id ASC`; both columns are NOT NULL. -/
def EventRow.before (a b : EventRow) : Prop :=
  b.ts.getD 0 < a.ts.getD 0 ∨ (a.ts.getD 0 = b.ts.getD 0 ∧ a.id.getD [] ≤ b.id.getD [])

instance : DecidableRel EventRow.before := fun _ _ => inferInstanceAs (Decidable (_ ∨ _))

/-- The rows a statement returns. -/
def Statement.rowsOf (args : List Arg) (rows : List EventRow) : Statement → List EventRow
  | .count _ => []
  | .rows clauses limit offset =>
    ((((rows.filter fun r => clauses.all (·.selects args r)).insertionSort EventRow.before).drop
      offset.toNat).take limit.toNat)

/-- `scanEvent` of a selected row. The columns under `COALESCE` are empty for NULL, NULL
in another one is an error. -/
def scanEvent (r : EventRow) : Option Event := do
  let id ← r.id
  let ts ← r.ts
  let durationMS ← r.durationMS
  let method ← r.method
  let path ← r.path
  let status ← r.status
  let bytesIn ← r.bytesIn
  let bytesOut ← r.bytesOut
  let success ← r.success
  some {
    id, durationMS, method, path, status, bytesIn, bytesOut, success
    requestID := r.requestID.getD []
    sessionID := r.sessionID.getD []
    userSubject := r.userSubject.getD []
    userEmail := r.userEmail.getD []
    authType := r.authType.getD []
    apiKeyName := r.apiKeyName.getD []
    routeName := r.routeName.getD []
    endpointGroup := r.endpointGroup.getD []
    errorMessage := r.errorMessage.getD []
    errorCategory := r.errorCategory.getD []
    remoteAddr := r.remoteAddr.getD []
    userAgent := r.userAgent.getD []
    timestamp := ts * 1000 }

/-- `Store.Query` on a reachable database; `none` is the error of a scan. -/
def query (db : Database) (f : QueryFilter) : Option (List Event) :=
  ((selectStatement f false).1.rowsOf (selectStatement f false).2 db.events.rows).mapM scanEvent

end Query

/-! ### `GetPayload` -/

/-- A JSON column decoded into a map; NULL leaves the map nil. `JSONB` keeps the last of
the members with one name. -/
def unmarshalJSONB : Option Values → Values
  | none => []
  | some members => keepLast members

def scanPayload (r : PayloadRow) : Option Payload := do
  let requestSizeBytes ← r.requestSizeBytes
  let requestTruncated ← r.requestTruncated
  let responseSizeBytes ← r.responseSizeBytes
  let responseTruncated ← r.responseTruncated
  some {
    requestSizeBytes, requestTruncated, responseSizeBytes, responseTruncated
    requestHeaders := unmarshalJSONB r.requestHeaders
    requestQuery := unmarshalJSONB r.requestQuery
    requestContentType := r.requestContentType.getD []
    requestBody := r.requestBody.getD []
    requestRemoteAddr := r.requestRemoteAddr.getD []
    responseHeaders := unmarshalJSONB r.responseHeaders
    responseContentType := r.responseContentType.getD []
    responseBody := r.responseBody.getD []
    replayedFrom := r.replayedFrom.getD [] }

/-- `Store.GetPayload` on a reachable database: `some none` is `(nil, nil)`, `none` is the
error of a scan. -/
def getPayload (db : Database) (eventID : GoString) : Option (Option Payload) :=
  match db.payloads.rows.find? fun r => decide (payloadSchema.key r = some eventID) with
  | none => some none
  | some r => (scanPayload r).map some

/-! ### Strings that JSON keeps -/

/-- The bytes of some runes. -/
def ValidUtf8 (s : GoString) : Prop := ∃ cs : List Char, s = encodeRunes cs

theorem validUtf8_jsonText (s : GoString) : ValidUtf8 (jsonText s) :=
  ⟨_, mapRunes_eq id s⟩

theorem jsonText_of_valid {s : GoString} (h : ValidUtf8 s) : jsonText s = s := by
  obtain ⟨cs, rfl⟩ := h
  rw [jsonText, mapRunes_eq, runes_encodeRunes, List.map_id]

/-- All keys and values of a map are UTF-8. -/
def ValidMap (m : Values) : Prop := ∀ e ∈ m, ValidUtf8 e.1 ∧ ∀ v ∈ e.2, ValidUtf8 v

/-- Two maps with the same entries. -/
def SameMap (m m' : Values) : Prop := ∀ key, m.lookup key = m'.lookup key

theorem perm_sortedMembers (m : Values) : (sortedMembers m).Perm m := List.perm_insertionSort _ m

theorem unmarshal_marshal_valid {m : Values} (hkeys : (m.map Prod.fst).Nodup) (h : ValidMap m) :
    unmarshalJSONB (marshalJSONB m) = sortedMembers m := by
  have hperm := perm_sortedMembers m
  have hmap : ((sortedMembers m).map fun e => (jsonText e.1, e.2.map jsonText)) = sortedMembers m := by
    refine (List.map_congr_left fun e he => ?_).trans (List.map_id _)
    obtain ⟨hkey, hvalues⟩ := h e (hperm.mem_iff.mp he)
    have hlist : e.2.map jsonText = e.2 :=
      (List.map_congr_left fun v hv => jsonText_of_valid (hvalues v hv)).trans (List.map_id _)
    exact Prod.ext (jsonText_of_valid hkey) hlist
  unfold marshalJSONB
  split_ifs with hnil
  · rw [hnil]
    rfl
  · exact (congrArg keepLast hmap).trans (keepLast_of_nodup ((hperm.map _).nodup_iff.mpr hkeys))

theorem valid_of_mem_unmarshal_marshal {m : Values} {e : GoString × List GoString}
    (he : e ∈ unmarshalJSONB (marshalJSONB m)) : ValidUtf8 e.1 ∧ ∀ v ∈ e.2, ValidUtf8 v := by
  unfold marshalJSONB at he
  split_ifs at he with hnil
  · exact absurd he List.not_mem_nil
  · obtain ⟨⟨k, vs⟩, -, rfl⟩ := List.mem_map.mp (mem_of_mem_keepLast he)
    refine ⟨validUtf8_jsonText k, ?_⟩
    intro v hv
    obtain ⟨v', -, rfl⟩ := List.mem_map.mp hv
    exact validUtf8_jsonText v'

/-- A map comes back from its column exactly if it is UTF-8. -/
theorem sameMap_iff {m : Values} (hkeys : (m.map Prod.fst).Nodup) :
    SameMap (unmarshalJSONB (marshalJSONB m)) m ↔ ValidMap m := by
  constructor
  · intro hsame e he
    have hlookup := (hsame e.1).trans ((Dictionary.mem_iff_lookup hkeys).mp he)
    obtain ⟨before, behind, hmem, -⟩ := List.lookup_eq_some_iff.mp hlookup
    exact valid_of_mem_unmarshal_marshal (by rw [hmem]; simp)
  · intro h key
    have hperm := perm_sortedMembers m
    rw [unmarshal_marshal_valid hkeys h]
    refine Option.ext fun vs => ?_
    rw [← Dictionary.mem_iff_lookup ((hperm.map _).nodup_iff.mpr hkeys), hperm.mem_iff,
      Dictionary.mem_iff_lookup hkeys]

/-! ### What a call of `Log` leaves -/

/-- The payload row of an event, if it has one. -/
def payloadRows (now : ℤ) (id : GoString) (ev : Event) : List PayloadRow :=
  ev.payload.toList.map (payloadRow now id)

/-- A committed transaction has added the rows of the event under a new id. -/
theorem log_committed {now : ℤ} {uuid : GoString} {db : Database} {ev : Event}
    (h : (log now uuid db ev).2 = none) :
    logID uuid ev ∉ db.ids ∧
      (log now uuid db ev).1.events.rows = db.events.rows ++ [eventRow (logID uuid ev) ev] ∧
      (log now uuid db ev).1.payloads.rows =
        db.payloads.rows ++ payloadRows now (logID uuid ev) ev := by
  unfold log at h ⊢
  dsimp only at h ⊢
  cases hevent : db.insertEvent (eventRow (logID uuid ev) ev) with
  | none =>
    rw [hevent] at h
    cases h
  | some tx =>
    obtain ⟨hinsert, hpayloads⟩ := Database.insertEvent_eq_some hevent
    have hrows := Table.insert_eq_some hinsert
    have hfresh : logID uuid ev ∉ db.ids := by
      intro hmem
      obtain hnone | hmem := Database.mem_ids.mp hmem
      · cases hnone
      · exact Table.notMem_of_insert hinsert hmem
    refine ⟨hfresh, ?_⟩
    rw [hevent] at h
    cases hp : ev.payload with
    | none =>
      rw [payloadRows, hp]
      exact ⟨hrows, by rw [hpayloads]; exact (List.append_nil _).symm⟩
    | some p =>
      rw [hp] at h
      dsimp only at h ⊢
      cases hpayload : tx.insertPayload (payloadRow now (logID uuid ev) p) with
      | none =>
        rw [hpayload] at h
        cases h
      | some tx' =>
        rw [payloadRows, hp]
        dsimp only
        obtain ⟨hinsert', hevents⟩ := Database.insertPayload_eq_some hpayload
        rw [hevents, hrows, Table.insert_eq_some hinsert', hpayloads]
        exact ⟨rfl, rfl⟩

/-- The rows a database has for one event. -/
structure Holds (db : Database) (row : EventRow) (payloads : List PayloadRow) : Prop where
  event : row ∈ db.events.rows
  payload : (db.payloads.rows.filter fun r => decide (r.eventID = row.id)) = payloads

/-- The step: further calls of `Log` leave the rows of an event alone. -/
theorem Holds.log {db : Database} {row : EventRow} {payloads : List PayloadRow}
    (h : Holds db row payloads) (now : ℤ) (uuid : GoString) (ev : Event) :
    Holds (log now uuid db ev).1 row payloads := by
  obtain ⟨-, hsame⟩ | ⟨hcommit, hrows⟩ := @log_cases now uuid db ev
  · rwa [hsame]
  · obtain ⟨hfresh, -, hpayloads⟩ := log_committed hcommit
    refine ⟨by rw [hrows]; exact List.mem_append_left _ h.event, ?_⟩
    -- the new payload row has another key
    have hother : (payloadRows now (logID uuid ev) ev).filter (fun r => decide (r.eventID = row.id)) = [] := by
      rw [List.filter_eq_nil_iff]
      intro r hr hkey
      obtain ⟨p, -, rfl⟩ := List.mem_map.mp hr
      have hid : some (logID uuid ev) = eventSchema.key row := of_decide_eq_true hkey
      apply hfresh
      rw [Database.mem_ids, hid]
      exact Or.inr (List.mem_map_of_mem h.event)
    rw [hpayloads, List.filter_append, h.payload, hother, List.append_nil]

/-- Calls of `Log`, each with its clock reading and its next uuid. -/
def logAll (db : Database) (calls : List (ℤ × GoString × Event)) : Database :=
  calls.foldl (fun db call => (log call.1 call.2.1 db call.2.2).1) db

theorem Holds.logAll {db : Database} {row : EventRow} {payloads : List PayloadRow}
    (h : Holds db row payloads) (calls : List (ℤ × GoString × Event)) :
    Holds (logAll db calls) row payloads := by
  induction calls generalizing db with
  | nil => exact h
  | cons call calls ih => exact ih (h.log call.1 call.2.1 call.2.2)

theorem holds_of_committed {now : ℤ} {uuid : GoString} {db : Database} {ev : Event}
    (h : (log now uuid db ev).2 = none) :
    Holds (log now uuid db ev).1 (eventRow (logID uuid ev) ev) (payloadRows now (logID uuid ev) ev) := by
  obtain ⟨hfresh, hrows, hpayloads⟩ := log_committed h
  refine ⟨by rw [hrows]; simp, ?_⟩
  have hold : (db.payloads.rows.filter fun r => decide (r.eventID = some (logID uuid ev))) = [] := by
    rw [List.filter_eq_nil_iff]
    intro r hr hkey
    rw [decide_eq_true_eq] at hkey
    exact Database.not_mem_payloads hfresh (hkey ▸ List.mem_map_of_mem hr)
  have hnew : (payloadRows now (logID uuid ev) ev).filter
      (fun r => decide (r.eventID = some (logID uuid ev))) = payloadRows now (logID uuid ev) ev := by
    rw [List.filter_eq_self]
    intro r hr
    obtain ⟨p, -, rfl⟩ := List.mem_map.mp hr
    exact decide_eq_true rfl
  rw [hpayloads, List.filter_append]
  exact (congrArg₂ (· ++ ·) hold hnew).trans (List.nil_append _)

/-! ### Reading it back -/

/-- A query for an id selects its row. -/
theorem query_eventID [UnicodeCase] {db : Database} {row : EventRow} {id : GoString} (hid : id ≠ [])
    (hrow : row ∈ db.events.rows) (hkey : row.id = some id) :
    query db { eventID := id } = (scanEvent row).map fun ev => [ev] := by
  have hstatement : selectStatement { eventID := id } false =
      (.rows [⟨.compare .id .eq, 1⟩] 100 0, [.text id]) := by
    simp [selectStatement, conjuncts, Conjuncts.addIf, Conjuncts.add, Conjuncts.none, hid, maxQueryLimit]
  have hselects : ∀ r : EventRow, ([⟨.compare .id .eq, 1⟩] : List Clause).all (·.selects [.text id] r) =
      decide (eventSchema.key r = eventSchema.key row) := by
    intro r
    have hrowKey : eventSchema.key row = some id := hkey
    rw [hrowKey]
    cases hr : r.id with
    | none => simp [Clause.selects, Predicate.selects, Column.stored, eventSchema, hr]
    | some id' =>
      simp [Clause.selects, Predicate.selects, Column.stored, Arg.sent, Op.holds, eventSchema, hr]
  rw [query, hstatement]
  dsimp only [Statement.rowsOf]
  simp only [hselects, Table.filter_key hrow]
  cases hscan : scanEvent row <;> simp [hscan]

theorem scanEvent_eventRow (id : GoString) (ev : Event) :
    scanEvent (eventRow id ev) =
      some { ev with id := id, timestamp := ev.timestamp / 1000 * 1000, payload := none } := rfl

/-- What `GetPayload` returns for a payload. -/
def readBack (p : Payload) : Payload where
  requestHeaders := unmarshalJSONB (marshalJSONB p.requestHeaders)
  requestQuery := unmarshalJSONB (marshalJSONB p.requestQuery)
  requestContentType := p.requestContentType
  requestBody := p.requestBody
  requestSizeBytes := p.requestSizeBytes
  requestTruncated := p.requestTruncated
  requestRemoteAddr := p.requestRemoteAddr
  responseHeaders := unmarshalJSONB (marshalJSONB p.responseHeaders)
  responseContentType := p.responseContentType
  responseBody := p.responseBody
  responseSizeBytes := p.responseSizeBytes
  responseTruncated := p.responseTruncated
  replayedFrom := p.replayedFrom

theorem getD_nullIfEmpty (s : GoString) : (nullIfEmpty s).getD [] = s := by
  unfold nullIfEmpty
  split_ifs with hs
  · rw [hs]
    rfl
  · rfl

theorem scanPayload_payloadRow (now : ℤ) (id : GoString) (p : Payload) :
    scanPayload (payloadRow now id p) = some (readBack p) := by
  simp only [scanPayload, payloadRow, getD_nullIfEmpty]
  rfl

theorem getPayload_of_holds {db : Database} {now : ℤ} {id : GoString} {ev : Event}
    (h : Holds db (eventRow id ev) (payloadRows now id ev)) :
    getPayload db id = some (ev.payload.map readBack) := by
  have hfind : (db.payloads.rows.find? fun r => decide (payloadSchema.key r = some id)) =
      (payloadRows now id ev).head? := by
    rw [← List.head?_filter]
    exact congrArg List.head? h.payload
  rw [getPayload, hfind, payloadRows]
  cases ev.payload with
  | none => rfl
  | some p =>
    dsimp only [Option.toList_some, List.map_singleton, List.head?_cons, Option.map_some]
    rw [scanPayload_payloadRow]
    rfl

/-- Two payloads with the same fields; a map is its entries. -/
structure SamePayload (p q : Payload) : Prop where
  requestHeaders : SameMap p.requestHeaders q.requestHeaders
  requestQuery : SameMap p.requestQuery q.requestQuery
  responseHeaders : SameMap p.responseHeaders q.responseHeaders
  rest : { p with requestHeaders := [], requestQuery := [], responseHeaders := [] } =
    { q with requestHeaders := [], requestQuery := [], responseHeaders := [] }

/-- The three maps of a payload have distinct keys, as Go's maps do. -/
structure IsPayload (p : Payload) : Prop where
  requestHeaders : (p.requestHeaders.map Prod.fst).Nodup
  requestQuery : (p.requestQuery.map Prod.fst).Nodup
  responseHeaders : (p.responseHeaders.map Prod.fst).Nodup

/-- All strings in the three maps of a payload are UTF-8. -/
def ValidPayload (p : Payload) : Prop :=
  ValidMap p.requestHeaders ∧ ValidMap p.requestQuery ∧ ValidMap p.responseHeaders

theorem samePayload_readBack_iff {p : Payload} (h : IsPayload p) :
    SamePayload (readBack p) p ↔ ValidPayload p := by
  rw [ValidPayload, ← sameMap_iff h.requestHeaders, ← sameMap_iff h.requestQuery,
    ← sameMap_iff h.responseHeaders]
  exact ⟨fun h => ⟨h.requestHeaders, h.requestQuery, h.responseHeaders⟩,
    fun h => ⟨h.1, h.2.1, h.2.2, rfl⟩⟩

section Stored
variable [UnicodeCase] {now : ℤ} {uuid : GoString} {db : Database} {ev : Event}

/-- An event that `Log` has stored is found by its id, whatever is logged after it, and
its payload comes back exactly if the strings of its maps are UTF-8. -/
theorem stored_iff (hid : ev.id ≠ []) (hmaps : ∀ p ∈ ev.payload, IsPayload p)
    (hlog : (log now uuid db ev).2 = none) (calls : List (ℤ × GoString × Event)) :
    query (logAll (log now uuid db ev).1 calls) { eventID := ev.id } =
        some [{ ev with timestamp := ev.timestamp / 1000 * 1000, payload := none }] ∧
      ((∃ p, getPayload (logAll (log now uuid db ev).1 calls) ev.id = some p ∧
          Option.Rel SamePayload p ev.payload) ↔ ∀ p ∈ ev.payload, ValidPayload p) := by
  have hlogID : logID uuid ev = ev.id := if_neg hid
  have hholds := (holds_of_committed hlog).logAll calls
  rw [hlogID] at hholds
  refine ⟨?_, ?_⟩
  · rw [query_eventID hid hholds.event rfl, scanEvent_eventRow]
    rfl
  · rw [getPayload_of_holds hholds]
    cases hp : ev.payload with
    | none => simp
    | some p =>
      have hiff := samePayload_readBack_iff (hmaps p hp)
      simp [hiff]

end Stored

/-- An event with one request header. -/
def headerEvent (value : GoString) : Event :=
  { id := lit "e1", timestamp := 1999, method := lit "GET", path := lit "/v1/headers", status := 200
    payload := some { requestHeaders := [(lit "X-Name", [value])] } }

theorem isPayload_headerEvent (value : GoString) : ∀ p ∈ (headerEvent value).payload, IsPayload p := by
  intro p hp
  cases hp
  exact ⟨List.nodup_singleton _, List.nodup_nil, List.nodup_nil⟩

theorem utf8_header_stored :
    (log 0 [] Database.empty (headerEvent (lit "café"))).2 = none ∧
      ∃ p, getPayload (logAll (log 0 [] Database.empty (headerEvent (lit "café"))).1 []) (lit "e1") =
          some p ∧
        Option.Rel SamePayload p (headerEvent (lit "café")).payload := by
  have hlog : (log 0 [] Database.empty (headerEvent (lit "café"))).2 = none := by decide +kernel
  refine ⟨hlog, (@stored_iff asciiCase 0 [] Database.empty (headerEvent (lit "café")) (by decide)
    (isPayload_headerEvent _) hlog []).2.mpr ?_⟩
  intro p hp
  cases hp
  refine ⟨?_, fun e he => absurd he List.not_mem_nil, fun e he => absurd he List.not_mem_nil⟩
  intro e he
  rw [List.mem_singleton.mp he]
  refine ⟨⟨"X-Name".toList, rfl⟩, ?_⟩
  intro v hv
  rw [List.mem_singleton.mp hv]
  exact ⟨"café".toList, rfl⟩

/-- A header value in Latin-1: its last byte comes back as the replacement character. -/
theorem latin1_header_replaced :
    (log 0 [] Database.empty (headerEvent [0x63, 0x61, 0x66, 0xE9])).2 = none ∧
      (∃ p, getPayload (log 0 [] Database.empty (headerEvent [0x63, 0x61, 0x66, 0xE9])).1 (lit "e1") =
          some (some p) ∧
        p.requestHeaders = [(lit "X-Name", [lit "caf\uFFFD"])] ∧
        ∀ q ∈ (headerEvent [0x63, 0x61, 0x66, 0xE9]).payload, ¬ SamePayload p q) := by
  refine ⟨by decide +kernel, readBack { requestHeaders := [(lit "X-Name", [[0x63, 0x61, 0x66, 0xE9]])] },
    by decide +kernel, by decide +kernel, ?_⟩
  intro q hq hsame
  cases hq
  exact absurd (hsame.requestHeaders (lit "X-Name")) (by decide +kernel)

end ApiTest.Audit.Postgres
