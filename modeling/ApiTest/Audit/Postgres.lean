import Mathlib.Data.List.Sort
import ApiTest.Audit.Event
import ApiTest.Relational.Table

/-! The Postgres audit store (`pkg/audit/postgres`) over the two tables of
`0001_init.up.sql`. An event and its payload are written in one transaction: the
summary row first, then the payload row, whose `event_id` and `replayed_from`
reference the summary table. A violated constraint aborts the transaction and
takes the summary row with it. A database value meets all constraints of the
schema. -/

namespace ApiTest.Audit.Postgres

open Text Relational

/-! ### The schema -/

/-- A row of `audit_events`; `none` is NULL. Instants are stored in
microseconds. -/
structure EventRow where
  id : Option GoString
  ts : Option ℤ
  durationMS : Option ℤ
  requestID : Option GoString
  sessionID : Option GoString
  userSubject : Option GoString
  userEmail : Option GoString
  authType : Option GoString
  apiKeyName : Option GoString
  method : Option GoString
  path : Option GoString
  routeName : Option GoString
  endpointGroup : Option GoString
  status : Option ℤ
  bytesIn : Option ℤ
  bytesOut : Option ℤ
  success : Option Bool
  errorMessage : Option GoString
  errorCategory : Option GoString
  remoteAddr : Option GoString
  userAgent : Option GoString
  deriving DecidableEq, Repr

/-- A row of `audit_payloads`. A JSONB column holds the members of its object. -/
structure PayloadRow where
  eventID : Option GoString
  requestHeaders : Option Values
  requestQuery : Option Values
  requestContentType : Option GoString
  requestBody : Option GoString
  requestSizeBytes : Option ℤ
  requestTruncated : Option Bool
  requestRemoteAddr : Option GoString
  responseHeaders : Option Values
  responseContentType : Option GoString
  responseBody : Option GoString
  responseSizeBytes : Option ℤ
  responseTruncated : Option Bool
  replayedFrom : Option GoString
  capturedAt : Option ℤ
  deriving DecidableEq, Repr

def eventSchema : Schema EventRow GoString where
  key r := r.id
  notNull r := r.id.isSome && r.ts.isSome && r.durationMS.isSome && r.method.isSome &&
    r.path.isSome && r.status.isSome && r.bytesIn.isSome && r.bytesOut.isSome && r.success.isSome

def payloadSchema : Schema PayloadRow GoString where
  key r := r.eventID
  notNull r := r.eventID.isSome && r.requestSizeBytes.isSome && r.requestTruncated.isSome &&
    r.responseSizeBytes.isSome && r.responseTruncated.isSome && r.capturedAt.isSome

/-- The two tables. Both foreign keys of a payload lead to the events. -/
structure Database where
  events : Table eventSchema
  payloads : Table payloadSchema
  eventRef : ∀ p ∈ payloads.rows, events.References p.eventID
  replayRef : ∀ p ∈ payloads.rows, events.References p.replayedFrom

namespace Database

def empty : Database :=
  ⟨Table.empty, Table.empty, fun _ hp => absurd hp List.not_mem_nil,
    fun _ hp => absurd hp List.not_mem_nil⟩

/-- The ids of the stored events. -/
def ids (db : Database) : List GoString := db.events.rows.filterMap EventRow.id

theorem mem_ids {db : Database} {k : GoString} : k ∈ db.ids ↔ db.events.References (some k) := by
  simp [ids, Table.References, eventSchema]

/-- A payload has an event, so an unused event id is unused there too. -/
theorem not_mem_payloads {db : Database} {k : GoString} (h : k ∉ db.ids) :
    some k ∉ db.payloads.rows.map payloadSchema.key := by
  intro hmem
  obtain ⟨p, hp, hkey⟩ := List.mem_map.mp hmem
  have href := db.eventRef p hp
  rw [show p.eventID = some k from hkey] at href
  exact h (mem_ids.mpr href)

/-- `INSERT INTO audit_events`. -/
def insertEvent (db : Database) (r : EventRow) : Option Database :=
  match h : db.events.insert r with
  | none => none
  | some events =>
    some ⟨events, db.payloads, fun p hp => (db.eventRef p hp).insert h,
      fun p hp => (db.replayRef p hp).insert h⟩

/-- `INSERT INTO audit_payloads`, with its two foreign keys. -/
def insertPayload (db : Database) (r : PayloadRow) : Option Database :=
  if href : db.events.References r.eventID ∧ db.events.References r.replayedFrom then
    match h : db.payloads.insert r with
    | none => none
    | some payloads =>
      some {
        events := db.events
        payloads := payloads
        eventRef := by
          rw [Table.insert_eq_some h]
          simpa [or_imp, forall_and] using ⟨db.eventRef, href.1⟩
        replayRef := by
          rw [Table.insert_eq_some h]
          simpa [or_imp, forall_and] using ⟨db.replayRef, href.2⟩ }
  else none

theorem insertEvent_eq_some {db tx : Database} {r : EventRow} (h : db.insertEvent r = some tx) :
    db.events.insert r = some tx.events ∧ tx.payloads = db.payloads := by
  unfold insertEvent at h
  split at h
  next => cases h
  next events hinsert =>
    cases h
    exact ⟨hinsert, rfl⟩

theorem isSome_insertEvent {db : Database} {r : EventRow} (h : (db.events.insert r).isSome) :
    (db.insertEvent r).isSome := by
  unfold insertEvent
  split
  next hnone => rw [hnone] at h; exact h
  next => rfl

theorem insertPayload_eq_some {db tx : Database} {r : PayloadRow}
    (h : db.insertPayload r = some tx) :
    db.payloads.insert r = some tx.payloads ∧ tx.events = db.events := by
  unfold insertPayload at h
  split_ifs at h
  split at h
  next => cases h
  next payloads hinsert =>
    cases h
    exact ⟨hinsert, rfl⟩

/-- Beyond the table's own constraints, a payload row needs both its
references. -/
theorem isSome_insertPayload {db : Database} {r : PayloadRow} (h : (db.payloads.insert r).isSome) :
    (db.insertPayload r).isSome ↔
      db.events.References r.eventID ∧ db.events.References r.replayedFrom := by
  unfold insertPayload
  split_ifs with href
  · split
    next hnone => rw [hnone] at h; exact absurd h (by decide)
    next => exact ⟨fun _ => href, fun _ => rfl⟩
  · exact ⟨fun hsome => absurd hsome (by simp), fun hrefs => absurd hrefs href⟩

end Database

/-! ### The store -/

/-- `encoding/json` writes bytes that are not UTF-8 as the replacement
character. -/
def jsonText (s : GoString) : GoString := mapRunes id s

/-- The members of a map in the order in which `encoding/json` writes them. -/
def sortedMembers (v : Values) : Values := v.insertionSort fun a b => a.1 ≤ b.1

/-- `marshalJSONB`: an empty map is stored as NULL. -/
def marshalJSONB (v : Values) : Option Values :=
  if v = [] then none else some ((sortedMembers v).map fun (k, vs) => (jsonText k, vs.map jsonText))

/-- Text and bytes that are stored as NULL when empty. -/
def nullIfEmpty (s : GoString) : Option GoString := if s = [] then none else some s

/-- The arguments of the first statement of `Store.Log`. -/
def eventRow (id : GoString) (ev : Event) : EventRow where
  id := some id
  ts := some (ev.timestamp / 1000)
  durationMS := some ev.durationMS
  requestID := some ev.requestID
  sessionID := some ev.sessionID
  userSubject := some ev.userSubject
  userEmail := some ev.userEmail
  authType := some ev.authType
  apiKeyName := some ev.apiKeyName
  method := some ev.method
  path := some ev.path
  routeName := some ev.routeName
  endpointGroup := some ev.endpointGroup
  status := some ev.status
  bytesIn := some ev.bytesIn
  bytesOut := some ev.bytesOut
  success := some ev.success
  errorMessage := some ev.errorMessage
  errorCategory := some ev.errorCategory
  remoteAddr := some ev.remoteAddr
  userAgent := some ev.userAgent

/-- The arguments of `insertPayload`; `captured_at` takes its default. -/
def payloadRow (now : ℤ) (eventID : GoString) (p : Payload) : PayloadRow where
  eventID := some eventID
  requestHeaders := marshalJSONB p.requestHeaders
  requestQuery := marshalJSONB p.requestQuery
  requestContentType := some p.requestContentType
  requestBody := nullIfEmpty p.requestBody
  requestSizeBytes := some p.requestSizeBytes
  requestTruncated := some p.requestTruncated
  requestRemoteAddr := some p.requestRemoteAddr
  responseHeaders := marshalJSONB p.responseHeaders
  responseContentType := some p.responseContentType
  responseBody := nullIfEmpty p.responseBody
  responseSizeBytes := some p.responseSizeBytes
  responseTruncated := some p.responseTruncated
  replayedFrom := nullIfEmpty p.replayedFrom
  capturedAt := some now

/-- The statement a transaction failed on. -/
inductive LogError where
  | insertEvent
  | insertPayload
  deriving DecidableEq, Repr

/-- The id under which `Store.Log` writes an event: its own, or `uuid`, the next
value of `uuid.NewString`. -/
def logID (uuid : GoString) (ev : Event) : GoString := if ev.id = [] then uuid else ev.id

/-- `Store.Log` on a reachable database. A failed statement rolls back to the
database before. -/
def log (now : ℤ) (uuid : GoString) (db : Database) (ev : Event) : Database × Option LogError :=
  let id := logID uuid ev
  match db.insertEvent (eventRow id ev) with
  | none => (db, some .insertEvent)
  | some tx =>
    match ev.payload with
    | none => (tx, none)
    | some p =>
      match tx.insertPayload (payloadRow now id p) with
      | none => (db, some .insertPayload)
      | some tx => (tx, none)

section Log
variable {now : ℤ} {uuid : GoString} {db : Database} {ev : Event}

/-- A transaction fails and leaves the database as it was, or commits and has
added one summary row. -/
theorem log_cases :
    (log now uuid db ev).2 ≠ none ∧ (log now uuid db ev).1 = db ∨
      (log now uuid db ev).2 = none ∧ (log now uuid db ev).1.events.rows =
        db.events.rows ++ [eventRow (logID uuid ev) ev] := by
  unfold log
  dsimp only
  cases hevent : db.insertEvent (eventRow (logID uuid ev) ev) with
  | none => exact Or.inl ⟨by simp, rfl⟩
  | some tx =>
    have hrows := Table.insert_eq_some (Database.insertEvent_eq_some hevent).1
    cases hp : ev.payload with
    | none => exact Or.inr ⟨rfl, hrows⟩
    | some p =>
      dsimp only
      cases hpayload : tx.insertPayload (payloadRow now (logID uuid ev) p) with
      | none => exact Or.inl ⟨by simp, rfl⟩
      | some tx' => exact Or.inr ⟨rfl, by rw [(Database.insertPayload_eq_some hpayload).2, hrows]⟩

/-- Under an unused id the summary row is inserted. -/
theorem exists_insertEvent (h : logID uuid ev ∉ db.ids) :
    ∃ tx, db.insertEvent (eventRow (logID uuid ev) ev) = some tx := by
  apply Option.isSome_iff_exists.mp
  apply Database.isSome_insertEvent
  apply Table.isSome_insert
  · rfl
  · exact Option.some_ne_none _
  · intro hmem
    exact h (Database.mem_ids.mpr (Or.inr hmem))

/-- Once the summary row is in, an unused id passes every constraint of the
payload row but the reference to the replayed event. -/
theorem isSome_insertPayload_iff {tx : Database} {id : GoString} (now : ℤ) (p : Payload)
    (hpayloads : id ∉ db.ids) (htx : tx.payloads = db.payloads) (hid : id ∈ tx.ids) :
    (tx.insertPayload (payloadRow now id p)).isSome ↔
      p.replayedFrom = [] ∨ p.replayedFrom ∈ tx.ids := by
  have hinsert : (tx.payloads.insert (payloadRow now id p)).isSome := by
    apply Table.isSome_insert
    · rfl
    · exact Option.some_ne_none _
    · rw [htx]
      exact Database.not_mem_payloads hpayloads
  rw [Database.isSome_insertPayload hinsert]
  have hevent : tx.events.References (payloadRow now id p).eventID := Database.mem_ids.mp hid
  simp only [hevent, true_and]
  by_cases hempty : p.replayedFrom = []
  · simp [payloadRow, nullIfEmpty, hempty, Table.References]
  · simp only [payloadRow, nullIfEmpty, hempty, if_false, false_or]
    exact Database.mem_ids.symm

/-- Under an unused id a transaction with a payload commits if and only if the
payload's replay marker is absent or names an event: a stored one, or the one
being written. -/
theorem log_commits_iff (now : ℤ) {p : Payload} (hid : logID uuid ev ∉ db.ids)
    (hp : ev.payload = some p) :
    (log now uuid db ev).2 = none ↔
      p.replayedFrom = [] ∨ p.replayedFrom ∈ db.ids ∨ p.replayedFrom = logID uuid ev := by
  obtain ⟨tx, htx⟩ := exists_insertEvent hid
  obtain ⟨hinsert, hpayloads⟩ := Database.insertEvent_eq_some htx
  have hids : tx.ids = db.ids ++ [logID uuid ev] := by
    rw [Database.ids, Table.insert_eq_some hinsert, List.filterMap_append]
    rfl
  have hiff := isSome_insertPayload_iff now p hid hpayloads (by simp [hids])
  rw [hids, List.mem_append, List.mem_singleton] at hiff
  rw [← hiff]
  unfold log
  dsimp only
  rw [htx, hp]
  dsimp only
  cases tx.insertPayload (payloadRow now (logID uuid ev) p) <;> simp

end Log

end ApiTest.Audit.Postgres
