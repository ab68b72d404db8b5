import ApiTest.Audit.Memory
import ApiTest.Paging.Cursor

/-! The live tail `auditStream`: the frames it writes and one poll tick. A tick
reads the clock once, then pages down from there to the high-water mark of the
tick before. `Query` is a function of the page number and the filter, so that an
answer may fail or may see a store that has grown since the page before. The
second half gives the exact state of a tick on a store that does not change: at
page `k` it has written the new events of the prefix of the window that the
first `k` pages cover, in order, and nothing else. -/

namespace ApiTest.Portal.Tail

open Text Audit Paging

def auditStreamMaxPagesPerTick : ℕ := 10

/-- What the handler writes to the client. -/
inductive Frame where
  | streamOpen
  | heartbeat
  | audit (ev : Event)
  | error (msg : GoString)
  | saturated (emittedThisTick : ℕ)
  | flush
  deriving DecidableEq, Repr

/-- The result of `Query`: the rows or the text of its error. -/
abbrev Answer := Except GoString (List Event)

/-- The rows of an answer, none if it is an error. -/
def rows : Answer → List Event
  | .ok events => events
  | .error _ => []

/-- The events among the frames. -/
def audits (frames : List Frame) : List Event :=
  frames.filterMap fun
    | .audit ev => some ev
    | _ => none

@[simp] theorem audits_nil : audits [] = [] := rfl

@[simp] theorem audits_append (fs gs : List Frame) : audits (fs ++ gs) = audits fs ++ audits gs :=
  List.filterMap_append

@[simp] theorem audits_map (es : List Event) : audits (es.map .audit) = es := by
  simp [audits, List.filterMap_map]

@[simp] theorem mem_audits {frames : List Frame} {ev : Event} :
    ev ∈ audits frames ↔ Frame.audit ev ∈ frames := by
  rw [audits, List.mem_filterMap]
  constructor
  · rintro ⟨frame, hmem, hev⟩
    cases frame <;> cases hev
    exact hmem
  · exact fun h => ⟨.audit ev, h, rfl⟩

/-- The locals of one poll tick, with the frames it has written. -/
structure Poll where
  now : Time
  cursor : Time
  seen : List GoString := []
  emittedAny : Bool := false
  out : List Frame := []
  deriving DecidableEq, Repr

/-- The loop body over one page; the number is `freshThisPage`. -/
def scanEvent (lastSeen : Time) : Poll × ℕ → Event → Poll × ℕ
  | (p, fresh), ev =>
    if ¬ lastSeen < ev.timestamp then (p, fresh)
    else if ev.id ∈ p.seen then (p, fresh)
    else
      ({ p with seen := p.seen ++ [ev.id], emittedAny := true, out := p.out ++ [.audit ev] },
        fresh + 1)

/-- How an iteration of the page loop ends. -/
inductive Exit where
  | again (p : Poll)
  | leave (p : Poll)
  deriving DecidableEq, Repr

/-- One iteration of the page loop. -/
def pollPage (lastSeen : Time) (p : Poll) : Answer → Exit
  | .error msg => .leave { p with out := p.out ++ [.error msg, .flush] }
  | .ok events =>
    let (p, fresh) := events.foldl (scanEvent lastSeen) (p, 0)
    if events.length < maxQueryLimit then .leave p
    else if fresh = 0 then .leave { p with out := p.out ++ [.saturated p.seen.length] }
    else .again { p with cursor := (events.getLast?.map Event.timestamp).getD p.cursor }

/-- The filter of one page query. -/
def pageFilter (lastSeen cursor : Time) : QueryFilter :=
  { fromTime := lastSeen, toTime := cursor, limit := maxQueryLimit }

/-- The page loop with `fuel` pages left, the next of which has number `k`. -/
def pollPages (answer : ℕ → QueryFilter → Answer) (lastSeen : Time) : ℕ → ℕ → Poll → Poll
  | 0, _, p => p
  | fuel + 1, k, p =>
    match pollPage lastSeen p (answer k (pageFilter lastSeen p.cursor)) with
    | .leave p => p
    | .again p => pollPages answer lastSeen fuel (k + 1) p

/-- The state an iteration ends in. -/
def Exit.poll : Exit → Poll
  | .again p => p
  | .leave p => p

/-- What every iteration preserves, the page loop preserves. -/
theorem pollPages_invariant (inv : Poll → Prop) (answer : ℕ → QueryFilter → Answer)
    (lastSeen : Time)
    (hpage : ∀ k p, inv p → inv (pollPage lastSeen p (answer k (pageFilter lastSeen p.cursor))).poll)
    (fuel k : ℕ) {p : Poll} (hp : inv p) : inv (pollPages answer lastSeen fuel k p) := by
  induction fuel generalizing k p with
  | zero => exact hp
  | succ fuel ih =>
    have hnext := hpage k p hp
    rw [pollPages]
    cases hexit : pollPage lastSeen p (answer k (pageFilter lastSeen p.cursor)) with
    | leave q => rw [hexit] at hnext; exact hnext
    | again q => rw [hexit] at hnext; exact ih (k + 1) hnext

/-- The flush after the page loop. -/
def Poll.frames (p : Poll) : List Frame := p.out ++ if p.emittedAny then [.flush] else []

/-- The frames of one tick. -/
def tickFrames (answer : ℕ → QueryFilter → Answer) (lastSeen now : Time) : List Frame :=
  (pollPages answer lastSeen auditStreamMaxPagesPerTick 0 { now := now, cursor := now }).frames

theorem mem_frames {p : Poll} {frame : Frame} (hf : frame ≠ .flush) :
    frame ∈ p.frames ↔ frame ∈ p.out := by
  unfold Poll.frames
  split_ifs <;> simp [hf]

/-- The handler between two ticks. -/
structure Stream where
  lastSeen : Time
  out : List Frame
  deriving DecidableEq, Repr

/-- The handler after its first flush, at the clock reading `now`. -/
def openStream (now : Time) : Stream := ⟨now, [.streamOpen, .flush]⟩

/-- One poll tick; the high-water mark moves to the clock reading. -/
def tick (answer : ℕ → QueryFilter → Answer) (now : Time) (s : Stream) : Stream :=
  ⟨now, s.out ++ tickFrames answer s.lastSeen now⟩

/-- `Query` on a time window: the matching events in row order, cut to the
limit. -/
def windowQuery (store : List Event) (f : QueryFilter) : Answer :=
  .ok ((window store f.fromTime f.toTime).take f.limit.toNat)

theorem windowQuery_pageFilter (store : List Event) (lastSeen cursor : Time) :
    windowQuery store (pageFilter lastSeen cursor) =
      .ok ((window store lastSeen cursor).take maxQueryLimit) := rfl

/-! ### Scanning a page -/

/-- The events a tick may write. -/
def isNew (lastSeen : Time) (ev : Event) : Bool := lastSeen < ev.timestamp

/-- The state of a tick that has written the events `es`. -/
def pollAfter (now cursor : Time) (es : List Event) : Poll where
  now := now
  cursor := cursor
  seen := es.map Event.id
  emittedAny := !es.isEmpty
  out := es.map .audit

variable {store : List Event} {lastSeen now c : Time}

/-- Write the events `es`. -/
def Poll.emit (p : Poll) (es : List Event) : Poll :=
  { p with
    seen := p.seen ++ es.map Event.id
    emittedAny := p.emittedAny || !es.isEmpty
    out := p.out ++ es.map .audit }

@[simp] theorem Poll.emit_nil (p : Poll) : p.emit [] = p := by simp [Poll.emit]

theorem Poll.emit_append (p : Poll) (es es' : List Event) :
    (p.emit es).emit es' = p.emit (es ++ es') := by
  cases es <;> simp [Poll.emit]

theorem emit_pollAfter (es es' : List Event) :
    (pollAfter now c es).emit es' = pollAfter now c (es ++ es') := by
  cases es <;> simp [Poll.emit, pollAfter]

/-- The body skips events that are old or seen. -/
theorem scanEvent_skip {ev : Event} {p : Poll} {fresh : ℕ}
    (h : lastSeen < ev.timestamp → ev.id ∈ p.seen) :
    scanEvent lastSeen (p, fresh) ev = (p, fresh) := by
  by_cases hnew : lastSeen < ev.timestamp
  · rw [scanEvent, if_neg (not_not.mpr hnew), if_pos (h hnew)]
  · rw [scanEvent, if_pos hnew]

/-- The body writes an event that is new and not seen. -/
theorem scanEvent_emit {ev : Event} {p : Poll} {fresh : ℕ} (hnew : lastSeen < ev.timestamp)
    (hseen : ev.id ∉ p.seen) : scanEvent lastSeen (p, fresh) ev = (p.emit [ev], fresh + 1) := by
  rw [scanEvent, if_neg (not_not.mpr hnew), if_neg hseen]
  simp [Poll.emit]

theorem scan_old {events : List Event} {p : Poll} {fresh : ℕ}
    (h : ∀ ev ∈ events, isNew lastSeen ev = true → ev.id ∈ p.seen) :
    events.foldl (scanEvent lastSeen) (p, fresh) = (p, fresh) := by
  induction events with
  | nil => rfl
  | cons ev events ih =>
    have hold : lastSeen < ev.timestamp → ev.id ∈ p.seen :=
      fun hnew => h ev List.mem_cons_self (by simpa [isNew] using hnew)
    rw [List.foldl_cons, scanEvent_skip hold]
    exact ih fun e he => h e (List.mem_cons_of_mem _ he)

theorem scan_new {es events : List Event} {fresh : ℕ} (h : UniqueIDs (es ++ events)) :
    events.foldl (scanEvent lastSeen) (pollAfter now c es, fresh) =
      (pollAfter now c (es ++ events.filter (isNew lastSeen)),
        fresh + (events.filter (isNew lastSeen)).length) := by
  induction events generalizing es fresh with
  | nil => simp
  | cons ev events ih =>
    rw [List.foldl_cons]
    by_cases hnew : lastSeen < ev.timestamp
    · have hfresh : ev.id ∉ (pollAfter now c es).seen := by
        have hdisj := h
        rw [UniqueIDs, List.map_append, List.nodup_append] at hdisj
        intro hmem
        exact hdisj.2.2 _ hmem _ (List.mem_map_of_mem List.mem_cons_self) rfl
      rw [scanEvent_emit hnew hfresh, emit_pollAfter, ih (by simpa using h)]
      simp [isNew, hnew]
      omega
    · have hsub : UniqueIDs (es ++ events) :=
        h.sublist (List.Sublist.append_left (List.sublist_cons_self _ _) _)
      rw [scanEvent_skip (fun hlt => absurd hlt hnew), ih hsub]
      simp [isNew, hnew]

/-- What a scan writes on any page: some of its new events, none of them seen
before and none of them twice. -/
theorem scan_spec (lastSeen : Time) (events : List Event) (p : Poll) (fresh : ℕ) :
    ∃ es : List Event, events.foldl (scanEvent lastSeen) (p, fresh) =
        (p.emit es, fresh + es.length) ∧
      es.Sublist events ∧ (∀ ev ∈ es, lastSeen < ev.timestamp ∧ ev.id ∉ p.seen) ∧
      (es.map Event.id).Nodup := by
  induction events generalizing p fresh with
  | nil => exact ⟨[], by simp, List.Sublist.slnil, by simp, by simp⟩
  | cons ev events ih =>
    rw [List.foldl_cons]
    by_cases hskip : lastSeen < ev.timestamp → ev.id ∈ p.seen
    · obtain ⟨es, heq, hsub, hes, hnd⟩ := ih p fresh
      exact ⟨es, by rw [scanEvent_skip hskip, heq], hsub.cons ev, hes, hnd⟩
    · rw [Classical.not_imp] at hskip
      obtain ⟨es, heq, hsub, hes, hnd⟩ := ih (p.emit [ev]) (fresh + 1)
      have hnew : ∀ e ∈ es, lastSeen < e.timestamp ∧ e.id ∉ p.seen ∧ e.id ≠ ev.id := by
        intro e he
        simpa [Poll.emit, not_or] using hes e he
      refine ⟨ev :: es, ?_, hsub.cons_cons ev, ?_, ?_⟩
      · rw [scanEvent_emit hskip.1 hskip.2, heq, Poll.emit_append, List.length_cons,
          Nat.add_right_comm]
        rfl
      · intro e he
        rcases List.mem_cons.mp he with rfl | he
        · exact hskip
        · exact ⟨(hnew e he).1, (hnew e he).2.1⟩
      · rw [List.map_cons, List.nodup_cons]
        refine ⟨fun hmem => ?_, hnd⟩
        obtain ⟨e, he, hid⟩ := List.mem_map.mp hmem
        exact (hnew e he).2.2 hid

/-- What an iteration can do: it writes events of the page that are new and not
seen before, and keeps the cursor or moves it to a row of the page. -/
structure PageStep (lastSeen : Time) (p : Poll) (answer : Answer) (q : Poll)
    (es : List Event) : Prop where
  mem : ∀ ev ∈ es, ev ∈ rows answer ∧ lastSeen < ev.timestamp ∧ ev.id ∉ p.seen
  nodup : UniqueIDs es
  now_eq : q.now = p.now
  cursor : q.cursor = p.cursor ∨ ∃ ev ∈ rows answer, q.cursor = ev.timestamp
  seen_eq : q.seen = p.seen ++ es.map Event.id
  audits_eq : audits q.out = audits p.out ++ es

theorem pollPage_spec (lastSeen : Time) (p : Poll) (answer : Answer) :
    ∃ es, PageStep lastSeen p answer (pollPage lastSeen p answer).poll es := by
  cases answer with
  | error msg =>
    exact ⟨[], by simp, List.nodup_nil, rfl, .inl rfl, by simp [pollPage, Exit.poll],
      by simp [pollPage, Exit.poll]; rfl⟩
  | ok events =>
    obtain ⟨es, heq, hsub, hes, hnd⟩ := scan_spec lastSeen events p 0
    have hmem : ∀ ev ∈ es, ev ∈ rows (.ok events) ∧ lastSeen < ev.timestamp ∧ ev.id ∉ p.seen :=
      fun ev hev => ⟨hsub.subset hev, hes ev hev⟩
    refine ⟨es, ?_⟩
    simp only [pollPage, heq]
    split_ifs
    · exact ⟨hmem, hnd, rfl, .inl rfl, rfl, by simp [Exit.poll, Poll.emit]⟩
    · exact ⟨hmem, hnd, rfl, .inl rfl, rfl, by simp [Exit.poll, Poll.emit]; rfl⟩
    · refine ⟨hmem, hnd, rfl, ?_, rfl, by simp [Exit.poll, Poll.emit]⟩
      cases hlast : events.getLast? with
      | none => exact .inl rfl
      | some last => exact .inr ⟨last, List.mem_of_getLast? hlast, rfl⟩

/-- A tick writes no event at or before the high-water mark, whatever the
answers are. -/
theorem lt_of_mem_tickFrames {answer : ℕ → QueryFilter → Answer} {ev : Event}
    (h : Frame.audit ev ∈ tickFrames answer lastSeen now) : lastSeen < ev.timestamp := by
  have hloop := pollPages_invariant
    (fun p => ∀ ev ∈ audits p.out, lastSeen < ev.timestamp) answer lastSeen ?_
    auditStreamMaxPagesPerTick 0 (p := { now := now, cursor := now }) (by simp)
  · rw [tickFrames, mem_frames (by simp), ← mem_audits] at h
    exact hloop ev h
  · intro k p hp ev hev
    obtain ⟨es, hpage⟩ := pollPage_spec lastSeen p (answer k (pageFilter lastSeen p.cursor))
    rw [hpage.audits_eq] at hev
    rcases List.mem_append.mp hev with hev | hev
    · exact hp ev hev
    · exact (hpage.mem ev hev).2.1

/-- Over the in-memory logger a tick sees the time window, once the high-water
mark is after Go's zero time. -/
theorem pollPages_query [UnicodeCase] (hlast : 0 < lastSeen) (fuel k : ℕ) (p : Poll)
    (hp : lastSeen ≤ p.cursor) :
    pollPages (fun _ f => .ok (query store f)) lastSeen fuel k p =
      pollPages (fun _ => windowQuery store) lastSeen fuel k p := by
  induction fuel generalizing k p with
  | zero => rfl
  | succ fuel ih =>
    have hanswer : Except.ok (query store (pageFilter lastSeen p.cursor)) =
        windowQuery store (pageFilter lastSeen p.cursor) := by
      rw [windowQuery_pageFilter, pageFilter,
        query_window store hlast.ne' (hlast.trans_le hp).ne']
    rw [pollPages, pollPages, hanswer]
    cases hpage : pollPage lastSeen p (windowQuery store (pageFilter lastSeen p.cursor)) with
    | leave q => rfl
    | again q =>
      refine ih (k + 1) q ?_
      obtain ⟨es, hspec⟩ := pollPage_spec lastSeen p
        (windowQuery store (pageFilter lastSeen p.cursor))
      rw [hpage] at hspec
      rcases hspec.cursor with hq | ⟨ev, hev, hq⟩
      · exact hp.trans_eq hq.symm
      · exact (mem_window.mp (List.mem_of_mem_take hev)).2.1.trans_eq hq.symm

theorem tickFrames_query [UnicodeCase] (hlast : 0 < lastSeen) (hnow : lastSeen ≤ now) :
    tickFrames (fun _ f => .ok (query store f)) lastSeen now =
      tickFrames (fun _ => windowQuery store) lastSeen now :=
  congrArg Poll.frames (pollPages_query hlast _ 0 _ hnow)

/-- A first page with fewer rows than the limit is the whole window. -/
theorem pollPage_short (hu : UniqueIDs store) (lastSeen now : Time)
    (hshort : (window store lastSeen now).length < maxQueryLimit) :
    pollPage lastSeen { now := now, cursor := now } (windowQuery store (pageFilter lastSeen now)) =
      .leave (pollAfter now now ((window store lastSeen now).filter (isNew lastSeen))) := by
  have hscan : (window store lastSeen now).foldl (scanEvent lastSeen) (pollAfter now now [], 0) =
      (pollAfter now now ([] ++ (window store lastSeen now).filter (isNew lastSeen)),
        0 + ((window store lastSeen now).filter (isNew lastSeen)).length) :=
    scan_new (window_uniqueIDs hu lastSeen now)
  rw [windowQuery_pageFilter, List.take_of_length_le hshort.le,
    show ({ now := now, cursor := now } : Poll) = pollAfter now now [] from rfl, pollPage, hscan]
  exact if_pos hshort

/-! ### One tick on a store that does not change -/

/-- How many rows of the window the pages before page `k` cover. -/
def coveredAt (store : List Event) (lastSeen now : Time) (k : ℕ) : ℕ :=
  covered Event.timestamp maxQueryLimit (window store lastSeen now) now k

/-- The events a tick has written before page `k`. -/
def emitted (store : List Event) (lastSeen now : Time) (k : ℕ) : List Event :=
  ((window store lastSeen now).take (coveredAt store lastSeen now k)).filter (isNew lastSeen)

/-- The events page `k` adds. -/
def added (store : List Event) (lastSeen now : Time) (k : ℕ) : List Event :=
  (((window store lastSeen now).drop (coveredAt store lastSeen now k)).take
    (coveredAt store lastSeen now (k + 1) - coveredAt store lastSeen now k)).filter
      (isNew lastSeen)

/-- The cursor of page `k`. -/
def cursorAt (store : List Event) (lastSeen now : Time) (k : ℕ) : Time :=
  Paging.cursor Event.timestamp maxQueryLimit (window store lastSeen now) now k

/-- The rows of page `k`. -/
def pageAt (store : List Event) (lastSeen now : Time) (k : ℕ) : List Event :=
  Paging.page Event.timestamp maxQueryLimit (window store lastSeen now)
    (cursorAt store lastSeen now k)

theorem emitted_succ (k : ℕ) : emitted store lastSeen now (k + 1) =
    emitted store lastSeen now k ++ added store lastSeen now k := by
  rw [emitted, coveredAt, take_covered_succ, List.filter_append]
  rfl

theorem window_le {ev : Event} (h : ev ∈ window store lastSeen now) : ev.timestamp ≤ now :=
  (mem_window.mp h).2.2

/-- The answer to the query of page `k` is page `k` of the window. -/
theorem answer_eq (hu : UniqueIDs store) (k : ℕ) :
    windowQuery store (pageFilter lastSeen (cursorAt store lastSeen now k)) =
      .ok (pageAt store lastSeen now k) := by
  have hle : cursorAt store lastSeen now k ≤ now := cursor_le
  rw [windowQuery_pageFilter, pageAt, Paging.page, upTo, filter_window hu hle]

/-- Scanning page `k` writes what the page adds. -/
theorem scan_page (hu : UniqueIDs store) (k : ℕ) :
    (pageAt store lastSeen now k).foldl (scanEvent lastSeen)
        (pollAfter now (cursorAt store lastSeen now k) (emitted store lastSeen now k), 0) =
      (pollAfter now (cursorAt store lastSeen now k) (emitted store lastSeen now (k + 1)),
        (added store lastSeen now k).length) := by
  obtain ⟨old, hsplit, hold⟩ := page_split (n := maxQueryLimit) (k := k)
    (window_descending store lastSeen now) (fun e he => window_le he)
  change pageAt store lastSeen now k = old ++
    ((window store lastSeen now).drop (coveredAt store lastSeen now k)).take
      (coveredAt store lastSeen now (k + 1) - coveredAt store lastSeen now k) at hsplit
  have hskip : old.foldl (scanEvent lastSeen)
      (pollAfter now (cursorAt store lastSeen now k) (emitted store lastSeen now k), 0) =
      (pollAfter now (cursorAt store lastSeen now k) (emitted store lastSeen now k), 0) :=
    scan_old fun ev hev hnew => List.mem_map_of_mem (List.mem_filter.mpr ⟨hold ev hev, hnew⟩)
  -- the written events and the rest of the window are disjoint parts of it
  have hids : ∀ m, UniqueIDs (emitted store lastSeen now k ++
      ((window store lastSeen now).drop (coveredAt store lastSeen now k)).take m) := by
    intro m
    have hall := window_uniqueIDs hu lastSeen now
    rw [← List.take_append_drop (coveredAt store lastSeen now k) (window store lastSeen now)]
      at hall
    exact hall.sublist (List.filter_sublist.append (List.take_sublist _ _))
  rw [hsplit, List.foldl_append, hskip, scan_new (hids _), emitted_succ, Nat.zero_add]
  rfl

/-- One iteration at page `k`: a short page ends the loop, a full page that adds
nothing ends it with a saturated frame, any other page leads to page `k + 1`. -/
theorem pollPage_eq (hu : UniqueIDs store) (lastSeen now : Time) (k : ℕ) :
    pollPage lastSeen
        (pollAfter now (cursorAt store lastSeen now k) (emitted store lastSeen now k))
        (windowQuery store (pageFilter lastSeen (cursorAt store lastSeen now k))) =
      let p := pollAfter now (cursorAt store lastSeen now k) (emitted store lastSeen now (k + 1))
      if (pageAt store lastSeen now k).length < maxQueryLimit then .leave p
      else if added store lastSeen now k = [] then
        .leave { p with out := p.out ++ [.saturated p.seen.length] }
      else .again (pollAfter now (cursorAt store lastSeen now (k + 1))
        (emitted store lastSeen now (k + 1))) := by
  rw [answer_eq hu]
  simp only [pollPage, scan_page hu, List.length_eq_zero_iff]
  rfl

end ApiTest.Portal.Tail
