import ApiTest.Portal.Stream

/-! What one poll tick delivers. On a store that does not change, the page loop
ends at the first page that is short or adds nothing, and otherwise at the page
cap. Only the cap loses events without a saturated frame; the first theorem says
for which windows that happens. A failing query ends the loop as well, and the
high-water mark moves past the window all the same. -/

namespace ApiTest.Portal.Tail

open Text Audit Paging

variable {store : List Event} {lastSeen now : Time}

/-- The state of a tick before page `k`. -/
def pollAt (store : List Event) (lastSeen now : Time) (k : ℕ) : Poll :=
  pollAfter now (cursorAt store lastSeen now k) (emitted store lastSeen now k)

/-- Page `k` is full and adds an event, so that the loop goes on. -/
def Continues (store : List Event) (lastSeen now : Time) (k : ℕ) : Prop :=
  maxQueryLimit ≤ (pageAt store lastSeen now k).length ∧ added store lastSeen now k ≠ []

theorem pollPage_of_continues (hu : UniqueIDs store) {k : ℕ}
    (h : Continues store lastSeen now k) :
    pollPage lastSeen (pollAt store lastSeen now k)
        (windowQuery store (pageFilter lastSeen (pollAt store lastSeen now k).cursor)) =
      .again (pollAt store lastSeen now (k + 1)) := by
  have hpage := pollPage_eq hu lastSeen now k
  dsimp only at hpage
  rw [if_neg (not_lt.mpr h.1), if_neg h.2] at hpage
  exact hpage

/-- The loop passes every page that continues. -/
theorem pollPages_of_continues (hu : UniqueIDs store) (answer : ℕ → QueryFilter → Answer)
    (j fuel : ℕ) (h : ∀ i < j, Continues store lastSeen now i)
    (hanswer : ∀ i < j, answer i = windowQuery store) :
    pollPages answer lastSeen (j + fuel) 0 { now := now, cursor := now } =
      pollPages answer lastSeen fuel j (pollAt store lastSeen now j) := by
  induction j generalizing fuel with
  | zero =>
    rw [Nat.zero_add]
    rfl
  | succ j ih =>
    rw [show j + 1 + fuel = j + (fuel + 1) by omega,
      ih (fuel + 1) (fun i hi => h i (by omega)) (fun i hi => hanswer i (by omega)), pollPages,
      hanswer j (by omega), pollPage_of_continues hu (h j (by omega))]

/-- The state in which the loop leaves at a page that does not continue. -/
theorem pollPage_of_stop (hu : UniqueIDs store) {k : ℕ}
    (h : ¬ Continues store lastSeen now k) :
    ∃ p, pollPage lastSeen (pollAt store lastSeen now k)
        (windowQuery store (pageFilter lastSeen (pollAt store lastSeen now k).cursor)) = .leave p ∧
      ((pageAt store lastSeen now k).length < maxQueryLimit ∧
          p.out = (emitted store lastSeen now (k + 1)).map .audit ∨
        p.out = (emitted store lastSeen now (k + 1)).map .audit ++
          [.saturated (emitted store lastSeen now (k + 1)).length]) := by
  have hpage := pollPage_eq hu lastSeen now k
  dsimp only at hpage
  by_cases hshort : (pageAt store lastSeen now k).length < maxQueryLimit
  · rw [if_pos hshort] at hpage
    exact ⟨_, hpage, .inl ⟨hshort, rfl⟩⟩
  · have hadded : added store lastSeen now k = [] := by
      by_contra hne
      exact h ⟨not_lt.mp hshort, hne⟩
    rw [if_neg hshort, if_pos hadded] at hpage
    exact ⟨_, hpage, .inr (by simp [pollAfter])⟩

/-- A page that does not fill up is the last of the window. -/
theorem emitted_of_short {k : ℕ} (h : (pageAt store lastSeen now k).length < maxQueryLimit) :
    emitted store lastSeen now (k + 1) = (window store lastSeen now).filter (isNew lastSeen) := by
  rw [pageAt, page_eq (window_descending store lastSeen now), List.length_take,
    List.length_drop] at h
  rw [emitted, List.take_of_length_le]
  rw [coveredAt, covered]
  unfold cursorAt at h
  omega

/-! ### The page cap -/

/-- Every event stamped after `lastSeen` and up to `now` is on the stream, or a
saturated frame is. -/
def Reported (store : List Event) (lastSeen now : Time) (frames : List Frame) : Prop :=
  (∀ ev ∈ store, lastSeen < ev.timestamp → ev.timestamp ≤ now → Frame.audit ev ∈ frames) ∨
    ∃ n, Frame.saturated n ∈ frames

/-- The walk through the window gets by within the page cap: behind its last
page there is nothing newer than the high-water mark, or one of the earlier pages
is full of a single timestamp. -/
def WalkEnds (store : List Event) (lastSeen now : Time) : Prop :=
  (∀ ev ∈ beyond Event.timestamp maxQueryLimit (window store lastSeen now)
      (cursorAt store lastSeen now (auditStreamMaxPagesPerTick - 1)), ev.timestamp ≤ lastSeen) ∨
    ∃ k < auditStreamMaxPagesPerTick - 1,
      TiedPage Event.timestamp maxQueryLimit (pageAt store lastSeen now k)

theorem beyond_cursorAt (k : ℕ) :
    beyond Event.timestamp maxQueryLimit (window store lastSeen now)
        (cursorAt store lastSeen now k) =
      (window store lastSeen now).drop (coveredAt store lastSeen now (k + 1)) :=
  beyond_eq (window_descending store lastSeen now)

/-- The page after a tied page adds nothing. -/
theorem added_of_tied {k : ℕ}
    (h : TiedPage Event.timestamp maxQueryLimit (pageAt store lastSeen now k)) :
    added store lastSeen now (k + 1) = [] := by
  have hsame := newer_nextCursor_of_tied (window_descending store lastSeen now) h
  have hcov : coveredAt store lastSeen now (k + 2) = coveredAt store lastSeen now (k + 1) :=
    congrArg (· + maxQueryLimit) hsame
  simp [added, hcov]

/-- The loop runs into the cap. -/
theorem tickFrames_of_continues (hu : UniqueIDs store) (answer : ℕ → QueryFilter → Answer)
    (h : ∀ i < auditStreamMaxPagesPerTick, Continues store lastSeen now i)
    (hanswer : ∀ i < auditStreamMaxPagesPerTick, answer i = windowQuery store) :
    tickFrames answer lastSeen now =
      (pollAt store lastSeen now auditStreamMaxPagesPerTick).frames := by
  have hloop := pollPages_of_continues hu answer auditStreamMaxPagesPerTick 0 h hanswer
  rw [Nat.add_zero] at hloop
  rw [tickFrames, hloop, pollPages]

theorem exists_first_stop {m : ℕ} {P : ℕ → Prop} (h : ¬ ∀ i < m, P i) :
    ∃ j < m, (∀ i < j, P i) ∧ ¬ P j := by
  classical
  push Not at h
  obtain ⟨i, hi, hP⟩ := h
  have hex : ∃ i, ¬ P i := ⟨i, hP⟩
  exact ⟨Nat.find hex, (Nat.find_min' hex hP).trans_lt hi,
    fun k hk => not_not.mp (Nat.find_min hex hk), Nat.find_spec hex⟩

/-- The loop leaves at the first page that does not continue. -/
theorem tickFrames_of_stop (hu : UniqueIDs store) (answer : ℕ → QueryFilter → Answer) {j : ℕ}
    (hj : j < auditStreamMaxPagesPerTick) (hbefore : ∀ i < j, Continues store lastSeen now i)
    (hstop : ¬ Continues store lastSeen now j) (hanswer : ∀ i ≤ j, answer i = windowQuery store) :
    ∃ p : Poll, tickFrames answer lastSeen now = p.frames ∧
      ((pageAt store lastSeen now j).length < maxQueryLimit ∧
          p.out = (emitted store lastSeen now (j + 1)).map .audit ∨
        p.out = (emitted store lastSeen now (j + 1)).map .audit ++
          [.saturated (emitted store lastSeen now (j + 1)).length]) := by
  obtain ⟨p, hp, hout⟩ := pollPage_of_stop hu hstop
  refine ⟨p, ?_, hout⟩
  have hloop := pollPages_of_continues hu answer j (auditStreamMaxPagesPerTick - j - 1 + 1)
    hbefore (fun i hi => hanswer i hi.le)
  rw [show j + (auditStreamMaxPagesPerTick - j - 1 + 1) = auditStreamMaxPagesPerTick by omega]
    at hloop
  rw [tickFrames, hloop, pollPages, hanswer j le_rfl, hp]

theorem mem_emitted_of_not_mem_drop {ev : Event} {k : ℕ} (hev : ev ∈ store)
    (hnew : lastSeen < ev.timestamp) (hle : ev.timestamp ≤ now)
    (h : ev ∉ (window store lastSeen now).drop (coveredAt store lastSeen now k)) :
    ev ∈ emitted store lastSeen now k := by
  have hmem : ev ∈ window store lastSeen now := mem_window.mpr ⟨hev, hnew.le, hle⟩
  rw [← List.take_append_drop (coveredAt store lastSeen now k) (window store lastSeen now)] at hmem
  rcases List.mem_append.mp hmem with htake | hdrop
  · exact List.mem_filter.mpr ⟨htake, by simpa [isNew] using hnew⟩
  · exact absurd hdrop h

theorem reported_of_walkEnds (hu : UniqueIDs store) (h : WalkEnds store lastSeen now) :
    Reported store lastSeen now (tickFrames (fun _ => windowQuery store) lastSeen now) := by
  by_cases hall : ∀ i < auditStreamMaxPagesPerTick, Continues store lastSeen now i
  · rw [tickFrames_of_continues hu _ hall (fun _ _ => rfl)]
    rcases h with hreach | ⟨k, hk, htied⟩
    · refine .inl fun ev hev hnew hle => (mem_frames (by simp)).mpr ?_
      refine List.mem_map_of_mem (mem_emitted_of_not_mem_drop hev hnew hle fun hdrop => ?_)
      rw [beyond_cursorAt] at hreach
      exact absurd (hreach ev hdrop) (not_le.mpr hnew)
    · exact absurd (added_of_tied htied) (hall (k + 1) (by omega)).2
  · obtain ⟨j, hj, hbefore, hstop⟩ := exists_first_stop hall
    obtain ⟨p, hframes, hout⟩ := tickFrames_of_stop hu _ hj hbefore hstop (fun _ _ => rfl)
    rw [hframes]
    rcases hout with ⟨hshort, hout⟩ | hout
    · refine .inl fun ev hev hnew hle => (mem_frames (by simp)).mpr ?_
      rw [hout, emitted_of_short hshort]
      refine List.mem_map_of_mem (List.mem_filter.mpr ⟨mem_window.mpr ⟨hev, hnew.le, hle⟩, ?_⟩)
      simpa [isNew] using hnew
    · refine .inr ⟨(emitted store lastSeen now (j + 1)).length, (mem_frames (by simp)).mpr ?_⟩
      rw [hout]
      simp

/-- A window whose walk does not end makes the loop run into its cap: every page
is full and adds an event. -/
theorem continues_of_not_walkEnds (h : ¬ WalkEnds store lastSeen now) :
    ∀ i < auditStreamMaxPagesPerTick, Continues store lastSeen now i := by
  simp only [WalkEnds, not_or, not_forall, not_le, not_exists, not_and] at h
  obtain ⟨⟨ev, hev, hnew⟩, huntied⟩ := h
  rw [beyond_cursorAt] at hev
  obtain ⟨m, hm, rfl⟩ := List.mem_iff_getElem.mp hev
  rw [List.getElem_drop] at hnew
  rw [List.length_drop] at hm
  have hs := window_descending store lastSeen now
  intro i hi
  have hreach : coveredAt store lastSeen now (i + 1) ≤
      coveredAt store lastSeen now (auditStreamMaxPagesPerTick - 1 + 1) := covered_mono (by omega)
  have hgrow : coveredAt store lastSeen now i < coveredAt store lastSeen now (i + 1) :=
    covered_lt_succ hs (by decide) (covered_le_succ.trans (hreach.trans (by omega)))
      fun j hj => huntied j (by omega)
  refine ⟨(length_page_of_covered_le hs (hreach.trans (by omega))).ge, ?_⟩
  -- the first row that page `i` adds is at least as new as the lost event
  have hin : coveredAt store lastSeen now i < (window store lastSeen now).length := by omega
  have hrow : (window store lastSeen now)[coveredAt store lastSeen now i] ∈
      added store lastSeen now i := by
    refine List.mem_filter.mpr ⟨?_, ?_⟩
    · rw [List.mem_take_iff_getElem]
      exact ⟨0, by simp only [List.length_drop]; omega, by simp⟩
    · have hle := List.pairwise_iff_getElem.mp hs _ _ hin (by omega)
        (hgrow.trans_le (hreach.trans (Nat.le_add_right _ m)))
      simpa [isNew] using hnew.trans_le hle
  exact List.ne_nil_of_mem hrow

/-- What lies behind the pages is not written. -/
theorem not_mem_emitted_of_mem_drop (hu : UniqueIDs store) {ev : Event} {k : ℕ}
    (h : ev ∈ (window store lastSeen now).drop (coveredAt store lastSeen now k)) :
    ev ∉ emitted store lastSeen now k := fun hmem =>
  List.disjoint_take_drop (window_uniqueIDs hu lastSeen now).of_map le_rfl
    (List.mem_filter.mp hmem).1 h

/-- At the cap the rest of the window is lost without a saturated frame. -/
theorem not_reported_of_not_walkEnds (hu : UniqueIDs store) (h : ¬ WalkEnds store lastSeen now) :
    ¬ Reported store lastSeen now (tickFrames (fun _ => windowQuery store) lastSeen now) := by
  rw [tickFrames_of_continues hu _ (continues_of_not_walkEnds h) (fun _ _ => rfl)]
  simp only [WalkEnds, not_or, not_forall, not_le] at h
  obtain ⟨⟨ev, hev, hnew⟩, -⟩ := h
  rw [beyond_cursorAt] at hev
  rintro (hall | ⟨n, hn⟩)
  · have hmem := mem_window.mp (List.mem_of_mem_drop hev)
    have hout := (mem_frames (by simp)).mp (hall ev hmem.1 hnew hmem.2.2)
    obtain ⟨e, he, heq⟩ := List.mem_map.mp hout
    cases heq
    exact not_mem_emitted_of_mem_drop hu hev he
  · have hout := (mem_frames (by simp)).mp hn
    simp [pollAt, pollAfter] at hout

/-- One poll tick on a fixed store with unique IDs emits every event stamped
after the high-water mark and up to its clock reading, or a saturated frame, if
and only if the walk through its window ends within the page cap. The in-memory
logger is such a store, once the high-water mark is after Go's zero time. -/
theorem tick_reported_iff [UnicodeCase] (store : List Event) (lastSeen now : Time)
    (hu : UniqueIDs store) :
    (Reported store lastSeen now (tickFrames (fun _ => windowQuery store) lastSeen now) ↔
      WalkEnds store lastSeen now) ∧
    (0 < lastSeen → lastSeen ≤ now →
      (Reported store lastSeen now (tickFrames (fun _ f => .ok (query store f)) lastSeen now) ↔
        WalkEnds store lastSeen now)) := by
  have hiff : Reported store lastSeen now (tickFrames (fun _ => windowQuery store) lastSeen now) ↔
      WalkEnds store lastSeen now :=
    ⟨fun hr => by_contra fun hw => not_reported_of_not_walkEnds hu hw hr, reported_of_walkEnds hu⟩
  refine ⟨hiff, fun hlast hnow => ?_⟩
  rw [tickFrames_query hlast hnow]
  exact hiff

theorem tick_reported_burst : UniqueIDs (burst 3) ∧
    Reported (burst 3) 1 4 (tickFrames (fun _ => windowQuery (burst 3)) 1 4) ∧
    Reported (burst 3) 1 4 (tickFrames (fun _ f => .ok (@query asciiCase (burst 3) f)) 1 4) :=
  have hends : WalkEnds (burst 3) 1 4 := .inl (by decide)
  have htick := @tick_reported_iff asciiCase (burst 3) 1 4 (burst_uniqueIDs 3)
  ⟨burst_uniqueIDs 3, htick.1.mpr hends, (htick.2 (by decide) (by decide)).mpr hends⟩

/-- Ten pages that overlap in one row reach 9991 rows down. -/
theorem tick_loses_burst : UniqueIDs (burst 9992) ∧
    ¬ Reported (burst 9992) 1 9993
      (tickFrames (fun _ => windowQuery (burst 9992)) 1 9993) := by
  refine ⟨burst_uniqueIDs _, not_reported_of_not_walkEnds (burst_uniqueIDs _) ?_⟩
  have hwin : window (burst 9992) 1 9993 = (burst 9992).reverse := window_burst 9992
  have hlen : (burst 9992).reverse.length = 9992 := by simp [burst]
  have hstrict := burst_strict 9992
  have hnewer : newer Event.timestamp (burst 9992).reverse
      (cursorAt (burst 9992) 1 9993 9) = 9 * 999 := by
    rw [cursorAt, hwin]
    refine newer_cursor_of_strict hstrict (fun e he => ?_) (by omega)
    rw [← hwin] at he
    exact window_le he
  rintro (hreach | ⟨k, -, htied⟩)
  · rw [show auditStreamMaxPagesPerTick - 1 = 9 from rfl,
      beyond_eq (window_descending _ _ _), hwin] at hreach
    have hrest : 0 < ((burst 9992).reverse.drop (newer Event.timestamp (burst 9992).reverse
        (cursorAt (burst 9992) 1 9993 9) + maxQueryLimit)).length := by
      rw [List.length_drop, hnewer, hlen]
      decide
    obtain ⟨ev, hev⟩ := List.exists_mem_of_length_pos hrest
    have hnew := one_lt_of_mem_burst (List.mem_reverse.mp (List.mem_of_mem_drop hev))
    exact absurd (hreach ev hev) (not_le.mpr hnew.1)
  · rw [pageAt, hwin] at htied
    exact not_tiedPage_of_strict hstrict (by decide) htied

end ApiTest.Portal.Tail
