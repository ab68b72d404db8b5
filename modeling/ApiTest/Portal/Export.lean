import ApiTest.Audit.Memory
import ApiTest.Paging.Offset
import ApiTest.Portal.QueryFilter
import ApiTest.Transition.Run

/-! The NDJSON export `auditExportNDJSON`: offset pages over the rows that match a
filter whose upper time bound is pinned at the start, while other goroutines
make events visible between the pages. An event carries the stamp of the start
of its request, so one that becomes visible during the export may be stamped
before the pinned bound and sort in front of rows that are already written. -/

namespace ApiTest.Portal.Export

open Text Audit Paging

def auditExportLimit : ℕ := 100000

/-- One line of the response body. -/
inductive Line where
  | event (ev : Event)
  | exportError (msg : GoString)
  | exportTruncated (limit : ℕ)
  deriving DecidableEq, Repr

/-- How the handler returns. -/
inductive Outcome where
  | cancelled
  | failed
  | complete
  | truncated
  deriving DecidableEq, Repr

/-- The handler and the store; `outcome` is `none` while the page loop runs. -/
structure Job where
  log : List Event
  filter : QueryFilter
  written : ℕ := 0
  lines : List Line := []
  outcome : Option Outcome := none
  deriving DecidableEq, Repr

/-- The upper bound is pinned when it is absent or after the clock; the clock is
read once for the comparison and once for the value. -/
def pinTo (f : QueryFilter) (now now' : Time) : QueryFilter :=
  if f.toTime = 0 ∨ now < f.toTime then { f with toTime := now' } else f

/-- The handler before its first page, on the parsed filter. -/
def start (log : List Event) (f : QueryFilter) (now now' : Time) : Job where
  log := log
  filter := pinTo { f with limit := maxQueryLimit, offset := 0 } now now'

/-- `auditExportNDJSON` before its first page. -/
def auditExportNDJSON (parseTime : GoString → Option Time) (q : Values) (now now' : Time)
    (log : List Event) : Job := start log (parseQueryFilter parseTime q) now now'

@[simp] theorem start_log (log : List Event) (f : QueryFilter) (now now' : Time) :
    (start log f now now').log = log := rfl

@[simp] theorem start_written (log : List Event) (f : QueryFilter) (now now' : Time) :
    (start log f now now').written = 0 := rfl

@[simp] theorem start_outcome (log : List Event) (f : QueryFilter) (now now' : Time) :
    (start log f now now').outcome = none := rfl

/-- The loop over one page, from the number of events written before: the lines,
the new number, and whether the cap was reached. -/
def encodeEvents : List Event → ℕ → List Line × ℕ × Bool
  | [], n => ([], n, false)
  | ev :: events, n =>
    if auditExportLimit ≤ n + 1 then
      ([.event ev, .exportTruncated auditExportLimit], n + 1, true)
    else
      let (lines, m, cut) := encodeEvents events (n + 1)
      (.event ev :: lines, m, cut)

/-- The events among the lines. -/
def events (lines : List Line) : List Event :=
  lines.filterMap fun
    | .event ev => some ev
    | _ => none

@[simp] theorem events_append (ls ms : List Line) : events (ls ++ ms) = events ls ++ events ms :=
  List.filterMap_append

@[simp] theorem events_map (es : List Event) : events (es.map .event) = es := by
  simp [events, List.filterMap_map]

theorem encodeEvents_eq (es : List Event) {n : ℕ} (hn : n < auditExportLimit) :
    encodeEvents es n =
      if auditExportLimit ≤ n + es.length then
        ((es.take (auditExportLimit - n)).map .event ++ [.exportTruncated auditExportLimit],
          auditExportLimit, true)
      else (es.map .event, n + es.length, false) := by
  induction es generalizing n with
  | nil => simp [encodeEvents, hn]
  | cons ev es ih =>
    rw [encodeEvents]
    by_cases hcap : auditExportLimit ≤ n + 1
    · have heq : auditExportLimit = n + 1 := by omega
      rw [if_pos hcap, if_pos (by simp only [List.length_cons]; omega), heq, Nat.add_sub_cancel_left]
      rfl
    · rw [if_neg hcap, ih (by omega), List.length_cons, Nat.add_right_comm n 1, Nat.add_assoc]
      split_ifs
      · rw [show auditExportLimit - n = auditExportLimit - (n + 1) + 1 by omega]
        rfl
      · rfl

/-- The events the job has written. -/
def Job.exported (s : Job) : List Event := events s.lines

/-- The state of the page loop between two pages: the offset is the number of
events written. -/
structure Running (f : QueryFilter) (s : Job) : Prop where
  filter_eq : s.filter = { f with limit := maxQueryLimit, offset := s.written }
  written_lt : s.written < auditExportLimit
  length_eq : s.exported.length = s.written

theorem clampOffset_of_running {f : QueryFilter} {s : Job} (h : Running f s) :
    clampOffset s.filter = s.written := by
  rw [h.filter_eq]
  show (if (s.written : ℤ) < 0 then 0 else (s.written : ℤ)).toNat = s.written
  rw [if_neg (by omega), Int.toNat_natCast]

/-! ### The handler -/

variable [UnicodeCase]

/-- One iteration of the page loop whose query succeeds. -/
def Job.page (s : Job) : Job :=
  if s.written < auditExportLimit then
    let events := query s.log s.filter
    if events = [] then { s with outcome := some .complete }
    else
      let (lines, n, cut) := encodeEvents events s.written
      let s := { s with lines := s.lines ++ lines, written := n }
      if cut then { s with outcome := some .truncated }
      else
        let s := { s with filter := { s.filter with offset := s.filter.offset + events.length } }
        if (events.length : ℤ) < s.filter.limit then { s with outcome := some .complete } else s
  else { s with outcome := some .complete }

inductive Act where
  | append (ev : Event)
  | cancel
  | fail (msg : GoString)
  | page
  deriving DecidableEq, Repr

/-- One atomic step. Events may become visible at any time. -/
def step (s : Job) : Act → Option Job
  | .append ev => if ev.id ∉ s.log.map Event.id then some { s with log := s.log ++ [ev] } else none
  | .cancel => if s.outcome = none then some { s with outcome := some .cancelled } else none
  | .fail msg =>
    if s.outcome = none then
      some { s with lines := s.lines ++ [.exportError msg], outcome := some .failed }
    else none
  | .page => if s.outcome = none then some s.page else none

/-- The rows that match the filter, whatever its offset. -/
def Job.rows (s : Job) : List Event := matchAll s.log s.filter

/-! ### One page -/

variable {f : QueryFilter} {s t : Job}

theorem query_of_running (h : Running f s) :
    query s.log s.filter = (s.rows.drop s.written).take maxQueryLimit := by
  rw [query_eq, Job.rows, h.filter_eq]
  rfl

theorem page_of_empty (h : Running f s) (hempty : query s.log s.filter = []) :
    s.page = { s with outcome := some .complete } := by
  simp [Job.page, h.written_lt, hempty]

theorem page_of_cap (h : Running f s) (hempty : query s.log s.filter ≠ [])
    (hcap : auditExportLimit ≤ s.written + (query s.log s.filter).length) :
    s.page = { s with
      lines := s.lines ++ (((query s.log s.filter).take (auditExportLimit - s.written)).map .event ++
        [.exportTruncated auditExportLimit])
      written := auditExportLimit
      outcome := some .truncated } := by
  simp [Job.page, h.written_lt, hempty, encodeEvents_eq _ h.written_lt, hcap]

theorem page_of_rest (h : Running f s) (hout : s.outcome = none)
    (hempty : query s.log s.filter ≠ [])
    (hcap : s.written + (query s.log s.filter).length < auditExportLimit) :
    s.page = { s with
      lines := s.lines ++ (query s.log s.filter).map .event
      written := s.written + (query s.log s.filter).length
      filter := { s.filter with offset := s.filter.offset + (query s.log s.filter).length }
      outcome := if (query s.log s.filter).length < maxQueryLimit then some .complete else none } := by
  have hlimit : s.filter.limit = maxQueryLimit := by rw [h.filter_eq]
  simp only [Job.page, h.written_lt, if_true, hempty, if_false, encodeEvents_eq _ h.written_lt,
    not_le.mpr hcap, hlimit, Int.ofNat_lt, Bool.false_eq_true]
  split_ifs
  · rfl
  · rw [hout]

/-- A page writes the next `m` rows. It is the last one when it reaches the end
of the rows or the cap, and otherwise it is a full page. -/
theorem page_cases (h : Running f s) (hout : s.outcome = none) :
    ∃ m, s.page.exported = s.exported ++ (s.rows.drop s.written).take m ∧ s.page.log = s.log ∧
      s.page.rows = s.rows ∧
      (s.page.outcome = some .complete ∧ s.rows.length ≤ s.written + m ∨
        s.page.outcome = some .truncated ∧ s.written + m = auditExportLimit ∧
          s.written + m ≤ s.rows.length ∨
        s.page.outcome = none ∧ s.page.written = s.written + m ∧ m = maxQueryLimit ∧
          s.written + m ≤ s.rows.length ∧ Running f s.page) := by
  have hquery := query_of_running h
  have hlen : (query s.log s.filter).length = min maxQueryLimit (s.rows.length - s.written) := by
    rw [hquery, List.length_take, List.length_drop]
  have hpos : 0 < maxQueryLimit := by decide
  by_cases hempty : query s.log s.filter = []
  · rw [page_of_empty h hempty]
    rw [hempty, List.length_nil] at hlen
    exact ⟨0, by simp [Job.exported], rfl, rfl, .inl ⟨rfl, by omega⟩⟩
  by_cases hcap : auditExportLimit ≤ s.written + (query s.log s.filter).length
  · rw [page_of_cap h hempty hcap]
    refine ⟨auditExportLimit - s.written, ?_, rfl, rfl, .inr (.inl ⟨rfl, ?_, ?_⟩)⟩
    · simp only [Job.exported, events_append, events_map, hquery, List.take_take]
      rw [min_eq_left (by omega)]
      exact congrArg _ (List.append_nil _)
    · exact Nat.add_sub_cancel' h.written_lt.le
    · have := h.written_lt
      omega
  · have hpage := page_of_rest h hout hempty (not_le.mp hcap)
    have hexp : s.page.exported = s.exported ++ (s.rows.drop s.written).take maxQueryLimit := by
      rw [hpage, Job.exported, events_append, events_map, hquery]
      rfl
    have hnext : ∀ n : ℕ, ({ s.filter with offset := s.filter.offset + n } : QueryFilter) =
        { f with limit := maxQueryLimit, offset := (s.written + n : ℕ) } := by
      intro n
      rw [h.filter_eq, Int.natCast_add]
    refine ⟨maxQueryLimit, hexp, by rw [hpage], by rw [hpage]; rfl, ?_⟩
    by_cases hshort : (query s.log s.filter).length < maxQueryLimit
    · refine .inl ⟨?_, by omega⟩
      rw [hpage, if_pos hshort]
    · have hfull : (query s.log s.filter).length = maxQueryLimit := by omega
      refine .inr (.inr ⟨?_, ?_, rfl, by omega, ?_, ?_, ?_⟩)
      · rw [hpage, if_neg hshort]
      · rw [hpage, hfull]
      · rw [hpage]
        exact hnext _
      · rw [hpage]
        exact not_le.mp hcap
      · rw [hexp, List.length_append, h.length_eq, ← hquery, hpage]

/-! ### Runs -/

theorem step_append {ev : Event} (h : step s (.append ev) = some t) :
    ev.id ∉ s.log.map Event.id ∧ t = { s with log := s.log ++ [ev] } := by
  simp only [step, Option.ite_none_right_eq_some] at h
  exact ⟨h.1, (Option.some.inj h.2).symm⟩

theorem step_append_of_fresh {ev : Event} (h : ev.id ∉ s.log.map Event.id) :
    step s (.append ev) = some { s with log := s.log ++ [ev] } := by
  rw [step, if_pos h]

theorem step_page (h : step s .page = some t) : s.outcome = none ∧ t = s.page := by
  simp only [step, Option.ite_none_right_eq_some] at h
  exact ⟨h.1, (Option.some.inj h.2).symm⟩

theorem step_page_of_running (h : s.outcome = none) : step s .page = some s.page := by
  rw [step, if_pos h]

/-- Cancelling and a failing query end the job without another event. -/
theorem step_abort {a : Act} (ha : a = .cancel ∨ ∃ msg, a = .fail msg) (h : step s a = some t) :
    t.exported = s.exported ∧ t.log = s.log ∧ t.rows = s.rows ∧ t.outcome ≠ none ∧
      t.outcome ≠ some .complete ∧ t.outcome ≠ some .truncated := by
  rcases ha with rfl | ⟨msg, rfl⟩
  · simp only [step, Option.ite_none_right_eq_some] at h
    rw [← Option.some.inj h.2]
    exact ⟨rfl, rfl, rfl, by simp⟩
  · simp only [step, Option.ite_none_right_eq_some] at h
    rw [← Option.some.inj h.2]
    refine ⟨?_, rfl, rfl, by simp⟩
    rw [Job.exported, events_append]
    exact List.append_nil _

/-- An event that becomes visible enters the rows at its place, if it matches. -/
theorem rows_append {ev : Event} (hu : UniqueIDs (s.log ++ [ev])) :
    ({ s with log := s.log ++ [ev] } : Job).rows =
      if matchesFilter ev s.filter then s.rows.orderedInsert rowLe ev else s.rows := by
  split_ifs with hm
  · exact matchAll_append_of_matches hu hm
  · exact matchAll_append_of_not_matches (by simpa using hm)

theorem mem_rows_append {ev e : Event} (h : e ∈ s.rows) :
    e ∈ ({ s with log := s.log ++ [ev] } : Job).rows := by
  obtain ⟨hmem, hmatch⟩ := mem_matchAll.mp h
  exact mem_matchAll.mpr ⟨List.mem_append_left _ hmem, hmatch⟩

/-- What holds in every run: the rows keep what was visible at the start. -/
structure Inv (f : QueryFilter) (log : List Event) (s : Job) : Prop where
  uniqueIDs : UniqueIDs s.log
  visible : ∀ ev ∈ matchAll log f, ev ∈ s.rows
  running : s.outcome = none → Running f s

theorem inv_start (log : List Event) (f : QueryFilter) (now now' : Time) (hu : UniqueIDs log) :
    Inv (start log f now now').filter log (start log f now now') := by
  refine ⟨hu, fun ev hev => hev, fun _ => ⟨?_, show 0 < auditExportLimit by decide, rfl⟩⟩
  unfold start pinTo
  split_ifs <;> rfl

theorem step_inv {f : QueryFilter} {log : List Event} (s : Job) (a : Act) (t : Job)
    (h : Inv f log s) (hstep : step s a = some t) : Inv f log t := by
  cases a with
  | append ev =>
    obtain ⟨hfresh, rfl⟩ := step_append hstep
    refine ⟨h.uniqueIDs.concat hfresh, fun e he => mem_rows_append (h.visible e he), fun hout => ?_⟩
    exact ⟨(h.running hout).filter_eq, (h.running hout).written_lt, (h.running hout).length_eq⟩
  | page =>
    obtain ⟨hout, rfl⟩ := step_page hstep
    obtain ⟨m, -, hlog, hrows, hcases⟩ := page_cases (h.running hout) hout
    refine ⟨hlog ▸ h.uniqueIDs, hrows ▸ h.visible, fun hnext => ?_⟩
    rcases hcases with ⟨hc, -⟩ | ⟨hc, -⟩ | ⟨-, -, -, -, hrun⟩
    · simp [hc] at hnext
    · simp [hc] at hnext
    · exact hrun
  | cancel =>
    obtain ⟨-, hlog, hrows, hne, -⟩ := step_abort (.inl rfl) hstep
    exact ⟨hlog ▸ h.uniqueIDs, hrows ▸ h.visible, fun hnext => absurd hnext hne⟩
  | fail msg =>
    obtain ⟨-, hlog, hrows, hne, -⟩ := step_abort (.inr ⟨msg, rfl⟩) hstep
    exact ⟨hlog ▸ h.uniqueIDs, hrows ▸ h.visible, fun hnext => absurd hnext hne⟩

end ApiTest.Portal.Export
