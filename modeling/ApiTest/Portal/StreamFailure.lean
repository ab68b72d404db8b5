import ApiTest.Portal.StreamTick

/-! A poll tick whose query fails. The error branch leaves the page loop and runs
into the same assignment `lastSeen = now` as the successful exits, so what the
tick had not written by then is behind the high-water mark of every later tick. -/

namespace ApiTest.Portal.Tail

open Text Audit Paging

variable {store : List Event} {lastSeen now : Time} {k : ℕ} {msg : GoString}

/-- One poll tick: its clock reading, the store it queries, and the page on which
`Query` fails, with the text of the error. -/
structure Attempt where
  now : Time
  store : List Event
  failure : Option (ℕ × GoString) := none
  deriving DecidableEq, Repr

/-- The answers of an attempt. -/
def Attempt.answer (a : Attempt) (k : ℕ) (f : QueryFilter) : Answer :=
  match a.failure with
  | none => windowQuery a.store f
  | some (j, msg) => if k = j then .error msg else windowQuery a.store f

/-- The frames of one attempt. -/
def Attempt.frames (a : Attempt) (lastSeen : Time) : List Frame :=
  tickFrames a.answer lastSeen a.now

/-- The attempts one after the other. -/
def attempts (s : Stream) (as : List Attempt) : Stream :=
  as.foldl (fun s a => tick a.answer a.now s) s

/-- The attempts come later than `a`: the clock does not run backwards, and the
store keeps its events and stays without a duplicate ID. -/
def Later : Attempt → List Attempt → Prop
  | _, [] => True
  | a, b :: as => a.now ≤ b.now ∧ a.store ⊆ b.store ∧ UniqueIDs b.store ∧ Later b as

/-- Every event of the window of `a` that `a` has not written is written by the
time a later attempt succeeds and emits no saturated frame. -/
def LosesNothing (lastSeen : Time) (a : Attempt) : Prop :=
  ∀ ev ∈ a.store, lastSeen < ev.timestamp → ev.timestamp ≤ a.now →
    Frame.audit ev ∉ a.frames lastSeen →
    ∀ later last, Later a (later ++ [last]) → last.failure = none →
      (∀ n, Frame.saturated n ∉ last.frames (attempts ⟨lastSeen, []⟩ (a :: later)).lastSeen) →
      Frame.audit ev ∈ (attempts ⟨lastSeen, []⟩ (a :: (later ++ [last]))).out

/-! ### The failing tick -/

theorem answer_of_ne {a : Attempt} (ha : a.failure = some (k, msg)) {i : ℕ} (hi : i ≠ k) :
    a.answer i = windowQuery a.store := by
  funext f
  simp [Attempt.answer, ha, hi]

theorem answer_self {a : Attempt} (ha : a.failure = some (k, msg)) (f : QueryFilter) :
    a.answer k f = .error msg := by
  simp [Attempt.answer, ha]

/-- An error frame shows that every page before the failing one continued. -/
theorem continues_of_error {a : Attempt} (hu : UniqueIDs a.store)
    (ha : a.failure = some (k, msg)) (herr : Frame.error msg ∈ a.frames lastSeen) :
    k < auditStreamMaxPagesPerTick ∧ ∀ i < k, Continues a.store lastSeen a.now i := by
  by_cases hall : ∀ i < min k auditStreamMaxPagesPerTick, Continues a.store lastSeen a.now i
  · by_cases hk : k < auditStreamMaxPagesPerTick
    · exact ⟨hk, fun i hi => hall i (by omega)⟩
    · rw [Attempt.frames, tickFrames_of_continues hu a.answer (fun i hi => hall i (by omega))
        (fun i hi => answer_of_ne ha (by omega)), mem_frames (by simp)] at herr
      simp [pollAt, pollAfter] at herr
  · obtain ⟨j, hj, hbefore, hstop⟩ := exists_first_stop hall
    obtain ⟨p, hframes, hout⟩ := tickFrames_of_stop hu a.answer (by omega) hbefore hstop
      (fun i hi => answer_of_ne ha (by omega))
    rw [Attempt.frames, hframes, mem_frames (by simp)] at herr
    rcases hout with ⟨-, hout⟩ | hout <;> simp [hout] at herr

/-- The failing tick has written the events of the pages before the failing one. -/
theorem mem_frames_of_failure {a : Attempt} (hu : UniqueIDs a.store)
    (ha : a.failure = some (k, msg)) (herr : Frame.error msg ∈ a.frames lastSeen) (ev : Event) :
    Frame.audit ev ∈ a.frames lastSeen ↔ ev ∈ emitted a.store lastSeen a.now k := by
  obtain ⟨hk, hall⟩ := continues_of_error hu ha herr
  have hloop := pollPages_of_continues hu a.answer k (auditStreamMaxPagesPerTick - k - 1 + 1) hall
    (fun i hi => answer_of_ne ha (by omega))
  rw [show k + (auditStreamMaxPagesPerTick - k - 1 + 1) = auditStreamMaxPagesPerTick by omega,
    pollPages, answer_self ha] at hloop
  rw [Attempt.frames, tickFrames, hloop, mem_frames (by simp)]
  simp [pollPage, pollAt, pollAfter]

/-! ### The ticks after it -/

/-- An event at or before the high-water mark is not written any more. -/
theorem not_mem_out_of_later {ev : Event} {a : Attempt} {as : List Attempt} {s : Stream}
    (hlater : Later a as) (hs : s.lastSeen = a.now) (hev : ev.timestamp ≤ a.now)
    (hout : Frame.audit ev ∉ s.out) : Frame.audit ev ∉ (attempts s as).out := by
  induction as generalizing a s with
  | nil => exact hout
  | cons b as ih =>
    refine ih hlater.2.2.2 (s := tick b.answer b.now s) rfl (hev.trans hlater.1) ?_
    intro hmem
    rcases List.mem_append.mp hmem with hmem | hmem
    · exact hout hmem
    · have hnew := lt_of_mem_tickFrames hmem
      rw [hs] at hnew
      exact absurd hev (not_le.mpr hnew)

/-- There is an instant from which on the store has no event. -/
theorem exists_quiet (store : List Event) (now : Time) :
    ∃ t, now ≤ t ∧ window store t t = [] := by
  have hbound : ∃ t, now ≤ t ∧ ∀ ev ∈ store, ev.timestamp < t := by
    induction store with
    | nil => exact ⟨now, le_rfl, by simp⟩
    | cons e es ih =>
      obtain ⟨t, ht, hes⟩ := ih
      refine ⟨max t (e.timestamp + 1), ht.trans (le_max_left _ _), ?_⟩
      rw [List.forall_mem_cons]
      exact ⟨(Int.lt_succ _).trans_le (le_max_right _ _),
        fun ev hev => (hes ev hev).trans_le (le_max_left _ _)⟩
  obtain ⟨t, ht, hall⟩ := hbound
  refine ⟨t, ht, List.eq_nil_iff_forall_not_mem.mpr fun ev hev => ?_⟩
  obtain ⟨hmem, hlow, -⟩ := mem_window.mp hev
  exact absurd (hall ev hmem) (not_lt.mpr hlow)

theorem tickFrames_of_quiet {t : Time} (h : window store t t = []) :
    tickFrames (fun _ => windowQuery store) t t = [] := by
  have hanswer : windowQuery store (pageFilter t t) = .ok [] := by
    rw [windowQuery_pageFilter, h, List.take_nil]
  rw [tickFrames, show auditStreamMaxPagesPerTick = 9 + 1 from rfl, pollPages, hanswer]
  rfl

/-- A tick that leaves an event of its window unwritten loses it. -/
theorem not_losesNothing {a : Attempt} (hu : UniqueIDs a.store) {ev : Event} (hev : ev ∈ a.store)
    (hnew : lastSeen < ev.timestamp) (hle : ev.timestamp ≤ a.now)
    (hout : Frame.audit ev ∉ a.frames lastSeen) : ¬ LosesNothing lastSeen a := by
  intro hloses
  obtain ⟨t, ht, hquiet⟩ := exists_quiet a.store a.now
  -- one tick moves the high-water mark to a quiet instant, the next one succeeds there
  have hlater : Later a ([⟨t, a.store, none⟩] ++ [⟨t, a.store, none⟩]) :=
    ⟨ht, List.Subset.refl _, hu, le_rfl, List.Subset.refl _, hu, trivial⟩
  have hfirst : Frame.audit ev ∉ (tick a.answer a.now ⟨lastSeen, []⟩).out := hout
  refine not_mem_out_of_later hlater rfl hle hfirst (hloses ev hev hnew hle hout _ _ hlater rfl ?_)
  intro n hn
  have hframes : Frame.saturated n ∈ tickFrames (fun _ => windowQuery a.store) t t := hn
  rw [tickFrames_of_quiet hquiet] at hframes
  exact absurd hframes List.not_mem_nil

/-- A tick that fails on page `k` loses nothing if and only if the pages before
it have covered every event newer than the high-water mark. -/
theorem failed_tick_losesNothing_iff (lastSeen : Time) (a : Attempt) (hu : UniqueIDs a.store)
    (ha : a.failure = some (k, msg)) (herr : Frame.error msg ∈ a.frames lastSeen) :
    LosesNothing lastSeen a ↔
      ∀ ev ∈ (window a.store lastSeen a.now).drop (coveredAt a.store lastSeen a.now k),
        ev.timestamp ≤ lastSeen := by
  constructor
  · intro hloses ev hev
    by_contra hnew
    rw [not_le] at hnew
    obtain ⟨hmem, -, hle⟩ := mem_window.mp (List.mem_of_mem_drop hev)
    refine not_losesNothing hu hmem hnew hle ?_ hloses
    rw [mem_frames_of_failure hu ha herr]
    exact not_mem_emitted_of_mem_drop hu hev
  · intro hcov ev hev hnew hle hout
    refine absurd ((mem_frames_of_failure hu ha herr ev).mpr ?_) hout
    refine mem_emitted_of_not_mem_drop hev hnew hle fun hdrop => ?_
    exact absurd (hcov ev hdrop) (not_le.mpr hnew)

/-- An attempt at the clock reading `10` whose first query fails. -/
def failing (store : List Event) : Attempt := ⟨10, store, some (0, lit "boom")⟩

theorem failed_tick_losesNothing_old :
    Frame.error (lit "boom") ∈ (failing [{ id := lit "a", timestamp := 2 }]).frames 2 ∧
      LosesNothing 2 (failing [{ id := lit "a", timestamp := 2 }]) :=
  ⟨by decide, (failed_tick_losesNothing_iff 2 (failing [{ id := lit "a", timestamp := 2 }])
    (by decide) rfl (by decide)).mpr (by decide)⟩

theorem failed_tick_loses_event :
    Frame.error (lit "boom") ∈ (failing [{ id := lit "a", timestamp := 5 }]).frames 2 ∧
      ¬ LosesNothing 2 (failing [{ id := lit "a", timestamp := 5 }]) := by
  have hmem : ({ id := lit "a", timestamp := 5 } : Event) ∈
      (failing [{ id := lit "a", timestamp := 5 }]).store := by decide
  refine ⟨by decide, not_losesNothing (by decide) hmem ?_ ?_ ?_⟩ <;> decide

end ApiTest.Portal.Tail
