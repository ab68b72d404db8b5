import ApiTest.Portal.Export

/-! Whether an export is stable under writes. The offset is stable as long as
nothing enters the rows in front of it. Pinning the upper time bound keeps out
the requests that start later, but not the ones that were being handled. -/

namespace ApiTest.Portal.Export

open Text Audit Paging

section Runs
variable [UnicodeCase] {f : QueryFilter} {s t : Job}

/-! ### Events behind the offset -/

/-- An event that becomes visible while the loop runs sorts behind the rows that
the offset has passed, or does not match. -/
def BehindOffset (s : Job) : Act → Prop
  | .append ev => s.outcome = none → matchesFilter ev s.filter = true →
      ∀ row ∈ s.rows.take (clampOffset s.filter), ¬ rowLe ev row
  | _ => True

/-- While everything enters behind the offset, the lines are the first rows. -/
structure Clean (log : List Event) (f : QueryFilter) (s : Job) : Prop where
  inv : Inv f log s
  sub : ∀ ev ∈ s.exported, ev ∈ s.rows
  nodup : UniqueIDs s.exported
  running : s.outcome = none → s.exported = s.rows.take s.written
  complete : s.outcome = some .complete → ∀ ev ∈ matchAll log f, ev ∈ s.exported
  truncated : s.outcome = some .truncated → s.exported.length = auditExportLimit

theorem clean_start (log : List Event) (f : QueryFilter) (now now' : Time) (hu : UniqueIDs log) :
    Clean log (start log f now now').filter (start log f now now') where
  inv := inv_start log f now now' hu
  sub := by simp [start, Job.exported, events]
  nodup := List.nodup_nil
  running := fun _ => rfl
  complete := by simp [start]
  truncated := by simp [start]

theorem Clean.written_le {log : List Event} (h : Clean log f s) (hout : s.outcome = none) :
    s.written ≤ s.rows.length := by
  have hlen := (h.inv.running hout).length_eq
  rw [h.running hout, List.length_take] at hlen
  omega

theorem Clean.append {log : List Event} {ev : Event} (h : Clean log f s)
    (hg : BehindOffset s (.append ev)) (hstep : step s (.append ev) = some t) : Clean log f t := by
  have hinv := step_inv s _ t h.inv hstep
  obtain ⟨hfresh, rfl⟩ := step_append hstep
  refine ⟨hinv, fun e he => mem_rows_append (h.sub e he), h.nodup, fun hout => ?_, h.complete,
    h.truncated⟩
  have hrun := h.running hout
  rw [rows_append (h.inv.uniqueIDs.concat hfresh)]
  split_ifs with hm
  · have hbehind := hg hout hm
    rw [clampOffset_of_running (h.inv.running hout)] at hbehind
    rw [take_orderedInsert (h.written_le hout) hbehind]
    exact hrun
  · exact hrun

theorem Clean.page {log : List Event} (h : Clean log f s) (hstep : step s .page = some t) :
    Clean log f t := by
  have hinv := step_inv s _ t h.inv hstep
  obtain ⟨hout, rfl⟩ := step_page hstep
  obtain ⟨m, hexp, -, hrows, hcases⟩ := page_cases (h.inv.running hout) hout
  have htake : s.page.exported = s.rows.take (s.written + m) := by
    rw [hexp, h.running hout, List.take_add]
  have hsub : ∀ ev ∈ s.page.exported, ev ∈ s.page.rows := by
    rw [htake, hrows]
    exact fun ev hev => List.mem_of_mem_take hev
  have hnodup : UniqueIDs s.page.exported := by
    rw [htake]
    exact (matchAll_uniqueIDs h.inv.uniqueIDs _).sublist (List.take_sublist _ _)
  rcases hcases with ⟨hc, hend⟩ | ⟨hc, hlimit, hle⟩ | ⟨hc, hwritten, -⟩
  · refine ⟨hinv, hsub, hnodup, by simp [hc], fun _ => ?_, by simp [hc]⟩
    rw [htake, List.take_of_length_le hend]
    exact h.inv.visible
  · refine ⟨hinv, hsub, hnodup, by simp [hc], by simp [hc], fun _ => ?_⟩
    rw [htake, List.length_take, min_eq_left hle, hlimit]
  · refine ⟨hinv, hsub, hnodup, fun _ => ?_, by simp [hc], by simp [hc]⟩
    rw [htake, hrows, hwritten]

theorem Clean.abort {log : List Event} {a : Act} (h : Clean log f s)
    (ha : a = .cancel ∨ ∃ msg, a = .fail msg) (hstep : step s a = some t) : Clean log f t := by
  obtain ⟨hexp, -, hrows, hnone, hcomplete, htruncated⟩ := step_abort ha hstep
  exact ⟨step_inv s a t h.inv hstep, by rw [hexp, hrows]; exact h.sub, hexp ▸ h.nodup,
    fun hout => absurd hout hnone, fun hout => absurd hout hcomplete,
    fun hout => absurd hout htruncated⟩

theorem step_clean {log : List Event} (s : Job) (a : Act) (t : Job) (hg : BehindOffset s a)
    (h : Clean log f s) (hstep : step s a = some t) : Clean log f t := by
  cases a with
  | append ev => exact h.append hg hstep
  | page => exact h.page hstep
  | cancel => exact h.abort (.inl rfl) hstep
  | fail msg => exact h.abort (.inr ⟨msg, rfl⟩) hstep

/-- No ID is written twice, and a job that has come to its end, with no more
matching events than the cap, has written every matching event that was visible
at the start. -/
def Stable (log : List Event) (f : QueryFilter) (s : Job) : Prop :=
  (s.exported.map Event.id).Nodup ∧
    (s.outcome = some .complete ∨ s.outcome = some .truncated →
      s.rows.length ≤ auditExportLimit → ∀ ev ∈ matchAll log f, ev ∈ s.exported)

theorem Clean.stable {log : List Event} (h : Clean log f s) : Stable log f s := by
  refine ⟨h.nodup, ?_⟩
  rintro (hc | ht) hcap ev hev
  · exact h.complete hc ev hev
  · -- as many different rows as there are
    have hsub : s.exported.Subperm s.rows := List.subperm_of_subset h.nodup.of_map h.sub
    have hperm : s.exported.Perm s.rows := hsub.perm_of_length_le (by rw [h.truncated ht]; exact hcap)
    exact hperm.mem_iff.mpr (h.inv.visible ev hev)

/-! ### An event in front of the offset -/

/-- An event that is still to come is written, unless the job stops early. -/
def Covered (n : ℕ) (ev : Event) (s : Job) : Prop :=
  n ≤ s.exported.length ∧ (ev ∈ s.exported.drop n ∨
    (s.outcome = none ∧ ev ∈ s.rows.drop s.written) ∨
    (s.outcome ≠ none ∧ s.outcome ≠ some .complete))

theorem step_covered {log : List Event} {n : ℕ} {ev : Event} (s : Job) (a : Act) (t : Job)
    (hs : Inv f log s) (h : Covered n ev s) (hstep : step s a = some t) : Covered n ev t := by
  cases a with
  | append e =>
    obtain ⟨hfresh, rfl⟩ := step_append hstep
    refine ⟨h.1, ?_⟩
    rcases h.2 with hold | ⟨hout, hdrop⟩ | hstop
    · exact .inl hold
    · refine .inr (.inl ⟨hout, ?_⟩)
      rw [rows_append (hs.uniqueIDs.concat hfresh)]
      split_ifs
      · exact mem_drop_orderedInsert hdrop
      · exact hdrop
    · exact .inr (.inr hstop)
  | page =>
    obtain ⟨hout, rfl⟩ := step_page hstep
    obtain ⟨m, hexp, -, hrows, hcases⟩ := page_cases (hs.running hout) hout
    have hn : n ≤ s.page.exported.length := by
      rw [hexp, List.length_append]
      exact h.1.trans (Nat.le_add_right _ _)
    refine ⟨hn, ?_⟩
    rw [hexp, List.drop_append_of_le_length h.1]
    rcases h.2 with hold | ⟨-, hdrop⟩ | hstop
    · exact .inl (List.mem_append_left _ hold)
    · rw [← List.take_append_drop m (s.rows.drop s.written), List.drop_drop] at hdrop
      rcases List.mem_append.mp hdrop with htake | hrest
      · exact .inl (List.mem_append_right _ htake)
      · rcases hcases with ⟨-, hend⟩ | ⟨hc, -⟩ | ⟨hc, hwritten, -⟩
        · rw [List.drop_eq_nil_of_le hend] at hrest
          exact absurd hrest List.not_mem_nil
        · exact .inr (.inr (by rw [hc]; simp))
        · exact .inr (.inl ⟨hc, by rw [hrows, hwritten]; exact hrest⟩)
    · exact absurd hout hstop.1
  | cancel =>
    obtain ⟨hexp, -, -, hnone, hcomplete, -⟩ := step_abort (.inl rfl) hstep
    exact ⟨hexp ▸ h.1, .inr (.inr ⟨hnone, hcomplete⟩)⟩
  | fail msg =>
    obtain ⟨hexp, -, -, hnone, hcomplete, -⟩ := step_abort (.inr ⟨msg, rfl⟩) hstep
    exact ⟨hexp ▸ h.1, .inr (.inr ⟨hnone, hcomplete⟩)⟩

theorem step_exported {log : List Event} {a : Act} (hs : Inv f log s) (hstep : step s a = some t) :
    s.exported <+: t.exported := by
  cases a with
  | append e =>
    obtain ⟨-, rfl⟩ := step_append hstep
    exact List.prefix_rfl
  | page =>
    obtain ⟨hout, rfl⟩ := step_page hstep
    obtain ⟨m, hexp, -⟩ := page_cases (hs.running hout) hout
    exact hexp ▸ List.prefix_append _ _
  | cancel => exact (step_abort (.inl rfl) hstep).1 ▸ List.prefix_rfl
  | fail msg => exact (step_abort (.inr ⟨msg, rfl⟩) hstep).1 ▸ List.prefix_rfl

/-- An event in front of the offset makes a job that completes repeat an ID. -/
theorem not_nodup_of_front {log : List Event} {ev : Event} {acts : List Act}
    (hs : Clean log f s) (hg : ¬ BehindOffset s (.append ev))
    (hrun : Transition.run step s (.append ev :: acts) = some t)
    (hcomplete : t.outcome = some .complete) : ¬ (t.exported.map Event.id).Nodup := by
  simp only [BehindOffset, not_forall, not_not] at hg
  obtain ⟨hout, hmatch, row, hrow, hfront⟩ := hg
  rw [clampOffset_of_running (hs.inv.running hout)] at hrow
  obtain ⟨s', happend, hrest⟩ := Transition.run_cons.mp hrun
  have hinv : Inv f log s' := step_inv s _ s' hs.inv happend
  obtain ⟨hfresh, rfl⟩ := step_append happend
  -- a row that is already written moves behind the offset
  obtain ⟨c, hc, hdrop⟩ := exists_mem_drop_orderedInsert (hs.written_le hout) hrow hfront
  have hcov : Covered s.exported.length c ({ s with log := s.log ++ [ev] } : Job) := by
    refine ⟨le_rfl, .inr (.inl ⟨hout, ?_⟩)⟩
    rw [rows_append (hs.inv.uniqueIDs.concat hfresh), if_pos hmatch]
    exact hdrop
  obtain ⟨-, ⟨-, hlate⟩, hpre⟩ := Transition.run_invariant
    (fun u => Inv f log u ∧ Covered s.exported.length c u ∧ s.exported <+: u.exported)
    (fun u a v hu hstep => ⟨step_inv u a v hu.1 hstep, step_covered u a v hu.1 hu.2.1 hstep,
      hu.2.2.trans (step_exported hu.1 hstep)⟩) hrest ⟨hinv, hcov, List.prefix_rfl⟩
  have hagain : c ∈ t.exported.drop s.exported.length := by
    rcases hlate with hlate | ⟨hnone, -⟩ | ⟨-, hne⟩
    · exact hlate
    · rw [hcomplete] at hnone
      cases hnone
    · exact absurd hcomplete hne
  obtain ⟨rest, hsplit⟩ := hpre
  intro hnodup
  rw [← hsplit, List.drop_left] at hagain
  rw [← hsplit, List.map_append, List.nodup_append] at hnodup
  rw [← hs.running hout] at hc
  exact hnodup.2.2 _ (List.mem_map_of_mem hc) _ (List.mem_map_of_mem hagain) rfl

/-- An export is stable when every event that becomes visible while it runs
sorts behind the offset, and one that has come to the end of its rows is stable
only then. -/
theorem export_stable_iff (log : List Event) (f : QueryFilter) (now now' : Time)
    (acts : List Act) (t : Job) (hu : UniqueIDs log)
    (hrun : Transition.run step (start log f now now') acts = some t) :
    (Transition.Meets step BehindOffset (start log f now now') acts →
      Stable log (start log f now now').filter t) ∧
    (t.outcome = some .complete → Stable log (start log f now now').filter t →
      Transition.Meets step BehindOffset (start log f now now') acts) := by
  have hclean := clean_start log f now now' hu
  constructor
  · intro hmeets
    exact (Transition.run_invariant_of_meets _ step_clean hrun hmeets hclean).stable
  · intro hcomplete hstable
    by_contra hnot
    obtain ⟨xs, a, ys, m, -, hxs, hmeets, hrest, hbad⟩ := Transition.exists_of_not_meets hrun hnot
    have hm := Transition.run_invariant_of_meets _ step_clean hxs hmeets hclean
    cases a with
    | append ev => exact not_nodup_of_front hm hbad hrest hcomplete hstable.1
    | page => exact hbad trivial
    | cancel => exact hbad trivial
    | fail msg => exact hbad trivial

end Runs

/-- An event that becomes visible before the only page. -/
def beforePage : List Act := [.append { id := lit "b", timestamp := 4 }, .page]

theorem export_stable_beforePage :
    ∃ t, Transition.run (@step asciiCase) (start [{ id := lit "a", timestamp := 5 }] {} 9 9)
        beforePage = some t ∧ t.exported.map Event.id = [lit "a", lit "b"] ∧
      @Stable asciiCase [{ id := lit "a", timestamp := 5 }]
        (start [{ id := lit "a", timestamp := 5 }] {} 9 9).filter t := by
  refine ⟨_, rfl, by decide, (@export_stable_iff asciiCase _ {} 9 9 beforePage _
    (by decide) rfl).1 ⟨fun _ _ row hrow => ?_, fun _ _ => ⟨trivial, fun _ _ => trivial⟩⟩⟩
  exact absurd hrow List.not_mem_nil

/-! ### A request that outlives a page -/

theorem start_filter (log : List Event) (now : Time) :
    (start log {} now now).filter = { toTime := now, limit := maxQueryLimit } := by
  simp [start, pinTo]

theorem rows_start_burst [UnicodeCase] {m : ℕ} {now : Time} (hnow : (m : ℤ) + 1 ≤ now) :
    (start (burst m) {} now now).rows = (burst m).reverse := by
  rw [Job.rows, start_filter, start_log, matchAll, List.filter_eq_self.mpr, sorted_burst]
  intro ev hev
  have hle := (one_lt_of_mem_burst hev).2.trans hnow
  simp [matchesFilter, hle]

/-- A request stamped before the pinned bound, visible after the first page. -/
def slowEvent : Event := { id := lit "b", timestamp := 1500 }

theorem slowEvent_fresh (m : ℕ) : slowEvent.id ∉ (burst m).map Event.id := by
  intro hmem
  obtain ⟨ev, hev, hid⟩ := List.mem_map.mp hmem
  obtain ⟨i, -, rfl⟩ := List.mem_map.mp hev
  have hb : (0x62 : UInt8) ∈ List.replicate i 0x61 := by
    rw [show List.replicate i 0x61 = lit "b" from hid]
    decide
  exact absurd (List.eq_of_mem_replicate hb) (by decide)

/-- The job after its first page, which is full. -/
theorem first_page [UnicodeCase] :
    (start (burst 1000) {} 2000 2000).page.outcome = none ∧
      (start (burst 1000) {} 2000 2000).page.log = burst 1000 ∧
      (start (burst 1000) {} 2000 2000).page.written = 1000 ∧
      (start (burst 1000) {} 2000 2000).page.rows = (burst 1000).reverse := by
  have hrun := (inv_start (burst 1000) {} 2000 2000 (burst_uniqueIDs 1000)).running rfl
  have hrows : (start (burst 1000) {} 2000 2000).rows = (burst 1000).reverse :=
    rows_start_burst (by decide)
  have hlog := start_log (burst 1000) {} 2000 2000
  have hwritten := start_written (burst 1000) {} 2000 2000
  have hout := start_outcome (burst 1000) {} 2000 2000
  generalize start (burst 1000) {} 2000 2000 = s at *
  have hlen : (burst 1000).reverse.length = maxQueryLimit := by simp [burst, maxQueryLimit]
  have hquery : query s.log s.filter = (burst 1000).reverse := by
    rw [query_of_running hrun, hrows, hwritten, List.drop_zero, List.take_of_length_le hlen.le]
  have hpage := page_of_rest hrun hout
    (by rw [hquery]; exact List.ne_nil_of_length_pos (by rw [hlen]; decide))
    (by rw [hquery, hlen, hwritten]; decide)
  rw [hquery, hlen, if_neg (lt_irrefl _)] at hpage
  rw [hpage]
  exact ⟨rfl, hlog, by rw [hwritten]; rfl, hrows⟩

/-- The second page repeats the last row of the first one. -/
theorem second_page [UnicodeCase] {f : QueryFilter} {s : Job} (h : Clean (burst 1000) f s)
    (hout : s.outcome = none) (hlog : s.log = burst 1000) (hwritten : s.written = 1000)
    (hrows : s.rows = (burst 1000).reverse) (hmatch : matchesFilter slowEvent s.filter = true) :
    ∃ t, Transition.run step s [.append slowEvent, .page] = some t ∧
      t.outcome = some .complete ∧ ¬ (t.exported.map Event.id).Nodup := by
  have hfresh : slowEvent.id ∉ s.log.map Event.id := hlog ▸ slowEvent_fresh 1000
  have happend := step_append_of_fresh hfresh
  have hinv := step_inv s _ _ h.inv happend
  -- one row is left behind the offset, so the page is the last one
  have hlen : ({ s with log := s.log ++ [slowEvent] } : Job).rows.length = 1001 := by
    rw [rows_append (h.inv.uniqueIDs.concat hfresh), if_pos hmatch, List.orderedInsert_length,
      hrows]
    simp [burst]
  have hcomplete : ({ s with log := s.log ++ [slowEvent] } : Job).page.outcome =
      some .complete := by
    obtain ⟨m, -, -, -, hcases⟩ := page_cases (hinv.running hout) hout
    rw [hlen] at hcases
    obtain ⟨hc, -⟩ | ⟨-, hcap, hle⟩ | ⟨-, -, hfull, hle, -⟩ := hcases
    · exact hc
    · rw [hcap] at hle
      exact absurd hle (by decide)
    · have hlast : s.written + maxQueryLimit ≤ 1001 := hfull ▸ hle
      rw [hwritten] at hlast
      exact absurd hlast (by decide)
  have hrest := Transition.run_cons.mpr ⟨_, happend, Transition.run_cons.mpr
    ⟨_, step_page_of_running hout, Transition.run_nil⟩⟩
  refine ⟨_, hrest, hcomplete, not_nodup_of_front h (fun hbehind => ?_) hrest hcomplete⟩
  have hfront := hbehind hout hmatch
  rw [clampOffset_of_running (h.inv.running hout), hwritten, hrows] at hfront
  obtain ⟨row, hrow⟩ : ∃ row, row ∈ (burst 1000).reverse.take 1000 :=
    List.exists_mem_of_length_pos (by simp [burst])
  have hle := (one_lt_of_mem_burst (List.mem_reverse.mp (List.mem_of_mem_take hrow))).2
  exact hfront row hrow (.inl (lt_of_le_of_lt hle (by decide)))

theorem repeats_row [UnicodeCase] :
    ∃ t, Transition.run step (start (burst 1000) {} 2000 2000)
        [.page, .append slowEvent, .page] = some t ∧ t.outcome = some .complete ∧
      ¬ Stable (burst 1000) (start (burst 1000) {} 2000 2000).filter t := by
  obtain ⟨hout, hlog, hwritten, hrows⟩ := first_page
  have hstep := step_page_of_running (start_outcome (burst 1000) {} 2000 2000)
  have hclean := (clean_start (burst 1000) {} 2000 2000 (burst_uniqueIDs 1000)).page hstep
  have hmatch : matchesFilter slowEvent (start (burst 1000) {} 2000 2000).page.filter = true := by
    rw [(hclean.inv.running hout).filter_eq, start_filter]
    simp [matchesFilter, slowEvent]
  obtain ⟨t, hrest, hcomplete, hdup⟩ := second_page hclean hout hlog hwritten hrows hmatch
  exact ⟨t, Transition.run_cons.mpr ⟨_, hstep, hrest⟩, hcomplete, fun hstable => hdup hstable.1⟩

theorem slow_request_repeats_row :
    ∃ t, Transition.run (@step asciiCase) (start (burst 1000) {} 2000 2000)
        [.page, .append slowEvent, .page] = some t ∧ t.outcome = some .complete ∧
      ¬ @Stable asciiCase (burst 1000) (start (burst 1000) {} 2000 2000).filter t :=
  @repeats_row asciiCase

end ApiTest.Portal.Export
