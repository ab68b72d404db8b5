import ApiTest.Audit.Postgres
import ApiTest.Middleware.Audit
import ApiTest.Transition.Run

/-! From a request to its audit row. The middleware copies the replay marker
from a header any client may send, and the store writes it into a column that
references the stored events. A marker that names no event therefore aborts the
transaction, and the request leaves no row at all; every other request leaves
exactly one. -/

namespace ApiTest.Middleware

open Text Audit Endpoints Transition

/-- The transaction has committed and exactly one summary row has the id. -/
def Recorded (out : Postgres.Database × Option Postgres.LogError) (id : GoString) : Prop :=
  out.2 = none ∧ (out.1.events.rows.countP fun row => row.id = some id) = 1

/-- The replay marker of a request is absent, or names a stored event or the
event that is about to be written under `uuid`. -/
def MarkerResolves (db : Postgres.Database) (uuid : GoString) (r : Inbound) : Prop :=
  r.header.get replayHeaderName = [] ∨ r.header.get replayHeaderName ∈ db.ids ∨
    r.header.get replayHeaderName = uuid

/-- Under a fresh id the summary row that is added is the only one with that
id. -/
theorem countP_id {db : Postgres.Database} {uuid : GoString} (hfresh : uuid ∉ db.ids)
    {row : Postgres.EventRow} (hrow : row.id = some uuid) :
    ((db.events.rows ++ [row]).countP fun row => row.id = some uuid) = 1 := by
  have hold : (db.events.rows.countP fun row => row.id = some uuid) = 0 := by
    rw [List.countP_eq_zero]
    intro old hold hid
    exact hfresh (List.mem_filterMap.mpr ⟨old, hold, by simpa using hid⟩)
  rw [List.countP_append, hold]
  simp [hrow]

section Row
variable [UnicodeCase]

section
variable (registry : Option Registry) (opts : AuditOptions) (hcapture : opts.capturePayloads = true)
  (clock : Clock) (r : Inbound) (acts : List HandlerAct) (now : ℤ) (uuid : GoString)
  (db : Postgres.Database)

theorem logID_audit : Postgres.logID uuid (audit registry opts clock r acts) = uuid := by
  simp [Postgres.logID]

include hcapture

/-- The transaction for a request commits if and only if the replay marker
resolves. -/
theorem log_audit_iff (hfresh : uuid ∉ db.ids) :
    (Postgres.log now uuid db (audit registry opts clock r acts)).2 = none ↔
      MarkerResolves db uuid r := by
  have hid := logID_audit registry opts clock r acts uuid
  obtain ⟨p, hp, hmarker⟩ := audit_payload registry opts clock r acts hcapture
  have hiff := Postgres.log_commits_iff now (hid.symm ▸ hfresh) hp
  rw [hmarker, hid] at hiff
  exact hiff

/-- A transaction that commits adds the row of its event. -/
theorem rows_log_audit (hfresh : uuid ∉ db.ids) (hmarker : MarkerResolves db uuid r) :
    (Postgres.log now uuid db (audit registry opts clock r acts)).1.events.rows =
      db.events.rows ++ [Postgres.eventRow uuid (audit registry opts clock r acts)] := by
  have hcommit := (log_audit_iff registry opts hcapture clock r acts now uuid db hfresh).mpr hmarker
  rcases Postgres.log_cases with hfail | ⟨-, hrows⟩
  · exact absurd hcommit hfail.1
  · rw [hrows, logID_audit]

end

/-- With capture on, a request is recorded if and only if its replay marker
resolves. -/
theorem audit_recorded_iff (registry : Option Registry) (opts : AuditOptions)
    (hcapture : opts.capturePayloads = true) (clock : Clock) (r : Inbound)
    (acts : List HandlerAct) (now : ℤ) (uuid : GoString) (db : Postgres.Database)
    (hfresh : uuid ∉ db.ids) :
    Recorded (Postgres.log now uuid db (audit registry opts clock r acts)) uuid ↔
      MarkerResolves db uuid r := by
  have hiff := log_audit_iff registry opts hcapture clock r acts now uuid db hfresh
  constructor
  · exact fun h => hiff.mp h.1
  · intro hmarker
    refine ⟨hiff.mpr hmarker, ?_⟩
    rw [rows_log_audit registry opts hcapture clock r acts now uuid db hfresh hmarker]
    exact countP_id hfresh rfl

end Row

/-- `GET /v1/whoami` with a replay marker. -/
def marked (marker : GoString) : Inbound where
  method := lit "GET"
  path := lit "/v1/whoami"
  query := []
  header := [(replayHeaderName, [marker])]
  remoteAddr := lit "192.0.2.1:4711"
  hasBody := true
  requestID := lit "r"
  identity := none

def capturing : AuditOptions := ⟨true, true, 0, []⟩

theorem audit_recorded_unmarked :
    @Recorded (Postgres.log 0 (lit "u") .empty
      (@audit asciiCase none capturing ⟨0, 0, 0⟩ (marked []) [.write (lit "ok") 2])) (lit "u") :=
  (@audit_recorded_iff asciiCase none capturing rfl ⟨0, 0, 0⟩ (marked []) [.write (lit "ok") 2] 0
    (lit "u") .empty (by decide)).mpr (Or.inl rfl)

/-- A marker that names no event: the payload row is refused, and the summary
row goes with it. -/
theorem unknown_marker_loses_row :
    (Postgres.log 0 (lit "u") .empty
      (@audit asciiCase none capturing ⟨0, 0, 0⟩ (marked (lit "x")) [.write (lit "ok") 2])).2 =
        some .insertPayload ∧
    ¬ Recorded (Postgres.log 0 (lit "u") .empty
      (@audit asciiCase none capturing ⟨0, 0, 0⟩ (marked (lit "x")) [.write (lit "ok") 2]))
        (lit "u") := by
  have hfail : (Postgres.log 0 (lit "u") .empty
      (@audit asciiCase none capturing ⟨0, 0, 0⟩ (marked (lit "x")) [.write (lit "ok") 2])).2 =
        some .insertPayload := by decide
  refine ⟨hfail, ?_⟩
  intro hrec
  rw [hrec.1] at hfail
  cases hfail

/-! ### Runs -/

/-- A request on its way to the store, with the id and the database clock its
transaction meets. -/
structure Visit where
  uuid : GoString
  now : ℤ
  clock : Clock
  request : Inbound
  acts : List HandlerAct

section Runs
variable [UnicodeCase] (registry : Option Registry) (opts : AuditOptions)

/-- The transaction of one request; ids are never handed out twice. -/
def step (db : Postgres.Database) (v : Visit) : Option Postgres.Database :=
  if v.uuid ∈ db.ids then none
  else some (Postgres.log v.now v.uuid db (audit registry opts v.clock v.request v.acts)).1

/-- In a run whose requests all have markers that resolve, no request is
missing from the events and none is there twice. -/
theorem ids_of_run (hcapture : opts.capturePayloads = true) {db db' : Postgres.Database}
    {visits : List Visit} (h : run (step registry opts) db visits = some db')
    (hmeets : Meets (step registry opts) (fun db v => MarkerResolves db v.uuid v.request) db visits) :
    db'.ids = db.ids ++ visits.map Visit.uuid := by
  induction visits generalizing db with
  | nil =>
    cases h
    simp
  | cons v visits ih =>
    obtain ⟨next, hstep, hrest⟩ := run_cons.mp h
    have hids : next.ids = db.ids ++ [v.uuid] := by
      unfold step at hstep
      split_ifs at hstep with hfresh
      cases hstep
      rw [Postgres.Database.ids, rows_log_audit registry opts hcapture v.clock v.request v.acts v.now
        v.uuid db hfresh hmeets.1, List.filterMap_append]
      rfl
    rw [ih hrest (hmeets.2 next hstep), hids, List.map_cons, List.append_assoc,
      List.singleton_append]

end Runs

end ApiTest.Middleware
