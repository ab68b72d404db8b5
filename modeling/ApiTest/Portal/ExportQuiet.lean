import ApiTest.Portal.ExportRuns

/-! The export of a store that nobody writes to. The pages add up to the front of the
matching rows and the loop comes to an end, by an empty page, a short page or the cap.
At the cap the handler does not look whether there is more: it reports a truncated
export also when the last row it wrote was the last there is. -/

namespace ApiTest.Portal.Export

open Text Audit Paging

/-- The lines of the whole export of some rows. -/
def exportLines (rows : List Event) : List Line :=
  (rows.take auditExportLimit).map .event ++
    if auditExportLimit ≤ rows.length then [.exportTruncated auditExportLimit] else []

/-- The body is the first rows up to the cap, and it reports a truncation if and only
if there are more. -/
def Exact (rows : List Event) (lines : List Line) : Prop :=
  events lines = rows.take auditExportLimit ∧
    ((∃ limit, .exportTruncated limit ∈ lines) ↔ auditExportLimit < rows.length)

theorem exact_exportLines_iff (rows : List Event) :
    Exact rows (exportLines rows) ↔ rows.length ≠ auditExportLimit := by
  have hevents : events (exportLines rows) = rows.take auditExportLimit := by
    rw [exportLines, events_append, events_map]
    split_ifs <;> exact List.append_nil _
  have htruncated : (∃ limit, Line.exportTruncated limit ∈ exportLines rows) ↔
      auditExportLimit ≤ rows.length := by
    have hnot : ∀ limit, Line.exportTruncated limit ∉ (rows.take auditExportLimit).map Line.event := by
      simp only [List.mem_map, reduceCtorEq, and_false, exists_false, not_false_eq_true, implies_true]
    unfold exportLines
    split_ifs with hcap
    · exact ⟨fun _ => hcap, fun _ => ⟨_, List.mem_append_right _ List.mem_cons_self⟩⟩
    · rw [List.append_nil]
      exact ⟨fun ⟨limit, hmem⟩ => absurd hmem (hnot limit), fun hle => absurd hle hcap⟩
  rw [Exact, htruncated]
  simp only [hevents, true_and]
  omega

/-! ### The page loop -/

variable [UnicodeCase] {f : QueryFilter} {s : Job}

/-- Between two pages: what is written are the first rows. -/
structure Quiet (rows : List Event) (f : QueryFilter) (s : Job) : Prop where
  running : Running f s
  outcome : s.outcome = none
  rows_eq : s.rows = rows
  lines_eq : s.lines = (rows.take s.written).map .event
  le : s.written ≤ rows.length

variable {rows : List Event}

theorem Quiet.query_eq (h : Quiet rows f s) :
    query s.log s.filter = (rows.drop s.written).take maxQueryLimit := by
  rw [query_of_running h.running, h.rows_eq]

/-- A page ends the export with all its lines, or there is more to write. -/
theorem Quiet.page (h : Quiet rows f s) :
    (s.page.outcome ≠ none ∧ s.page.lines = exportLines rows) ∨
      (Quiet rows f s.page ∧ s.written < s.page.written) := by
  have hquery := h.query_eq
  have hlen : (query s.log s.filter).length = min maxQueryLimit (rows.length - s.written) := by
    rw [hquery, List.length_take, List.length_drop]
  have hlt := h.running.written_lt
  have hpos : 0 < maxQueryLimit := by decide
  by_cases hempty : query s.log s.filter = []
  · left
    rw [hempty, List.length_nil] at hlen
    have hall : rows.length = s.written := by
      have := h.le
      omega
    rw [page_of_empty h.running hempty]
    refine ⟨by simp, ?_⟩
    rw [exportLines, if_neg (by omega), List.append_nil, List.take_of_length_le (by omega)]
    exact h.lines_eq.trans (by rw [← hall, List.take_length])
  by_cases hcap : auditExportLimit ≤ s.written + (query s.log s.filter).length
  · left
    rw [page_of_cap h.running hempty hcap]
    refine ⟨by simp, ?_⟩
    have htake : rows.take auditExportLimit =
        rows.take s.written ++ (rows.drop s.written).take (auditExportLimit - s.written) := by
      rw [← List.take_add, Nat.add_sub_cancel' hlt.le]
    dsimp only
    rw [exportLines, if_pos (by omega), htake, List.map_append, h.lines_eq, hquery, List.take_take,
      min_eq_left (by omega), List.append_assoc]
  · rw [not_le] at hcap
    have hpage := page_of_rest h.running h.outcome hempty hcap
    have hprefix : query s.log s.filter = (rows.drop s.written).take (query s.log s.filter).length :=
      List.prefix_iff_eq_take.mp (hquery ▸ List.take_prefix _ _)
    have hlines : s.page.lines =
        (rows.take (s.written + (query s.log s.filter).length)).map .event := by
      rw [hpage, List.take_add, ← hprefix, List.map_append, ← h.lines_eq]
    by_cases hshort : (query s.log s.filter).length < maxQueryLimit
    · left
      have hall : s.written + (query s.log s.filter).length = rows.length := by
        have := h.le
        omega
      refine ⟨by simp [hpage, hshort], ?_⟩
      rw [hlines, hall, exportLines, if_neg (by omega), List.append_nil, List.take_length,
        List.take_of_length_le (by omega)]
    · right
      have hnone : s.page.outcome = none := by simp [hpage, hshort]
      have hwritten : s.page.written = s.written + (query s.log s.filter).length := by rw [hpage]
      obtain ⟨m, -, -, hrows, hcases⟩ := page_cases h.running h.outcome
      rw [hnone] at hcases
      obtain ⟨⟨⟩, -⟩ | ⟨⟨⟩, -⟩ | ⟨-, -, -, -, hrun⟩ := hcases
      refine ⟨⟨hrun, hnone, hrows.trans h.rows_eq, ?_, ?_⟩, by omega⟩
      · rw [hlines, hwritten]
      · rw [hwritten]
        omega

/-- The loop comes to its end. -/
theorem Quiet.runs (h : Quiet rows f s) :
    ∃ n t, Transition.run step s (List.replicate n .page) = some t ∧ t.outcome ≠ none ∧
      t.lines = exportLines rows := by
  -- each full page brings the number of written events closer to the cap
  induction hroom : auditExportLimit - s.written using Nat.strong_induction_on generalizing s with
  | _ room ih =>
    have hstep := step_page_of_running h.outcome
    obtain ⟨hout, hlines⟩ | ⟨hnext, hmore⟩ := h.page
    · exact ⟨1, s.page, Transition.run_cons.mpr ⟨_, hstep, rfl⟩, hout, hlines⟩
    · have hlt := h.running.written_lt
      obtain ⟨n, t, hrun, hout, hlines⟩ := ih _ (by omega) hnext rfl
      exact ⟨n + 1, t, Transition.run_cons.mpr ⟨_, hstep, hrun⟩, hout, hlines⟩

/-- The events an export is about: they match the filter with its pinned upper
bound. -/
def exportedRows (parseTime : GoString → Option Time) (q : Values) (now now' : Time)
    (log : List Event) : List Event :=
  matchAll log (pinTo (parseQueryFilter parseTime q) now now')

theorem quiet_start (parseTime : GoString → Option Time) (q : Values) (now now' : Time)
    (log : List Event) :
    Quiet (exportedRows parseTime q now now' log)
      (auditExportNDJSON parseTime q now now' log).filter
      (auditExportNDJSON parseTime q now now' log) := by
  refine ⟨⟨?_, show 0 < auditExportLimit by decide, rfl⟩, rfl, ?_, rfl, Nat.zero_le _⟩
  · unfold auditExportNDJSON start pinTo
    split_ifs <;> rfl
  · unfold exportedRows Job.rows auditExportNDJSON start pinTo
    dsimp only
    split_ifs <;> rfl

/-- On a quiescent store every export comes to its end. Its body is exact if and only
if the number of matching events is not the cap itself. -/
theorem export_exact_iff (parseTime : GoString → Option Time) (q : Values) (now now' : Time)
    (log : List Event) :
    ∃ n t, Transition.run step (auditExportNDJSON parseTime q now now' log)
        (List.replicate n .page) = some t ∧ t.outcome ≠ none ∧
      (Exact (exportedRows parseTime q now now' log) t.lines ↔
        (exportedRows parseTime q now now' log).length ≠ auditExportLimit) := by
  obtain ⟨n, t, hrun, hout, hlines⟩ := (quiet_start parseTime q now now' log).runs
  exact ⟨n, t, hrun, hout, hlines ▸ exact_exportLines_iff _⟩

/-- As many events as the cap: all of them are written, and a truncation is
reported. -/
theorem cap_reported :
    ∃ n t, Transition.run step (auditExportNDJSON (fun _ => none) [] 200000 200000 (burst 100000))
        (List.replicate n .page) = some t ∧
      t.outcome ≠ none ∧ t.exported = (burst 100000).reverse ∧ t.exported.length = 100000 ∧
      .exportTruncated auditExportLimit ∈ t.lines := by
  have hparse : parseQueryFilter (fun _ => none) [] = {} := by decide
  have hrows : exportedRows (fun _ => none) [] 200000 200000 (burst 100000) = (burst 100000).reverse := by
    have hstart : (start (burst 100000) {} 200000 200000).rows = (burst 100000).reverse :=
      rows_start_burst (by decide)
    rw [Job.rows, start_filter, start_log] at hstart
    rw [exportedRows, hparse]
    exact hstart
  obtain ⟨n, t, hrun, hout, hlines⟩ := (quiet_start (fun _ => none) [] 200000 200000 (burst 100000)).runs
  have hlength : (burst 100000).reverse.length = auditExportLimit := by simp [burst, auditExportLimit]
  rw [hrows, exportLines, if_pos hlength.ge, List.take_of_length_le hlength.le] at hlines
  have hexported : t.exported = (burst 100000).reverse := by
    rw [Job.exported, hlines, events_append, events_map]
    exact List.append_nil _
  exact ⟨n, t, hrun, hout, hexported, by rw [hexported, hlength]; rfl, by simp [hlines]⟩

omit [UnicodeCase] in
theorem full_export_truncated :
    ∃ n t, Transition.run (@step asciiCase)
        (auditExportNDJSON (fun _ => none) [] 200000 200000 (burst 100000))
        (List.replicate n .page) = some t ∧
      t.outcome ≠ none ∧ t.exported = (burst 100000).reverse ∧ t.exported.length = 100000 ∧
      .exportTruncated auditExportLimit ∈ t.lines :=
  @cap_reported asciiCase

end ApiTest.Portal.Export
