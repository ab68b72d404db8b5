import ApiTest.Audit.Memory
import ApiTest.Multimap.Basic
import ApiTest.Paging.Follow
import ApiTest.Portal.QueryFilter
import ApiTest.Text.Decimal

/-! The audit list `auditEvents`, read page by page. The handler takes the limit from
the query string or sets it to 50, the store cuts it down to its own bound, and the
response reports the limit before the cut. A client that moves on by the reported
limit steps over what the store has cut off. -/

namespace ApiTest.Portal

open Text Audit Paging

/-- What the handler asks of an `audit.Logger`; `Count` returns a number beside its
error. -/
structure EventSource where
  query : QueryFilter → Except GoString (List Event)
  count : QueryFilter → ℕ × Option GoString

/-- The body of the response. -/
structure EventsPage where
  events : List Event
  total : ℕ
  limit : ℤ
  offset : ℤ
  deriving DecidableEq, Repr

section Handler
variable (parseTime : GoString → Option Time)

/-- The filter the handler queries with: a page of 50 by default. -/
def eventsFilter (q : Values) : QueryFilter :=
  let f := parseQueryFilter parseTime q
  if f.limit = 0 then { f with limit := 50 } else f

/-- `auditEvents`; the error is that of a response with status 500. The error of
`Count` is dropped. -/
def auditEvents (store : EventSource) (q : Values) : Except GoString EventsPage :=
  let f := eventsFilter parseTime q
  match store.query f with
  | .error e => .error e
  | .ok events => .ok ⟨events, (store.count f).1, f.limit, f.offset⟩

/-- The same query string with another offset. -/
def atOffset (q : Values) (n : ℕ) : Values :=
  (lit "offset", [itoa n]) :: q.filter fun e => e.1 ≠ lit "offset"

/-- The next offset of a client: the last one and the reported limit, until that
reaches the reported total. -/
def nextOffset (offset : ℕ) : Except GoString EventsPage → Option ℕ
  | .error _ => none
  | .ok page =>
    let n := offset + page.limit
    if n < page.total then some n.toNat else none

/-- The responses to a client that reads all pages. -/
def readPages (store : EventSource) (q : Values) (fuel : ℕ) :
    Option (List (Except GoString EventsPage)) :=
  follow (fun n => auditEvents parseTime store (atOffset q n)) nextOffset fuel 0

/-! ### The filter of a page -/

theorem get_atOffset (q : Values) (n : ℕ) (key : GoString) :
    (atOffset q n).get key = if key = lit "offset" then itoa n else q.get key := by
  unfold Values.get atOffset
  by_cases hkey : key = lit "offset"
  · simp [hkey]
  · rw [List.lookup_cons, beq_false_of_ne hkey]
    simp only [hkey, if_false, Multimap.lookup_filter_key (fun k => decide (k ≠ lit "offset")),
      ne_eq, not_false_eq_true, decide_true, if_true]

theorem positiveParam_nonneg (q : Values) (key : GoString) : 0 ≤ positiveParam q key := by
  unfold positiveParam
  dsimp only
  split_ifs with h
  · exact h.le
  · exact le_rfl

theorem parseQueryFilter_atOffset (q : Values) {n : ℕ} (hn : n < 2 ^ 63) :
    parseQueryFilter parseTime (atOffset q n) = { parseQueryFilter parseTime q with offset := n } := by
  have hkey : ∀ key, key ≠ lit "offset" → (atOffset q n).get key = q.get key := by
    intro key hkey
    rw [get_atOffset, if_neg hkey]
  have hoffset : positiveParam (atOffset q n) (lit "offset") = n := by
    rw [positiveParam, get_atOffset, if_pos rfl, atoi_itoa ⟨by omega, by exact_mod_cast hn⟩]
    dsimp only
    split_ifs <;> omega
  simp only [parseQueryFilter, timeParam, statusParam, successParam, hoffset]
  simp only [positiveParam]
  rw [hkey (lit "from") (by decide), hkey (lit "to") (by decide), hkey (lit "method") (by decide),
    hkey (lit "path") (by decide), hkey (lit "route_name") (by decide), hkey (lit "user") (by decide),
    hkey (lit "session") (by decide), hkey (lit "q") (by decide), hkey (lit "status") (by decide),
    hkey (lit "success") (by decide), hkey (lit "limit") (by decide)]

theorem eventsFilter_atOffset (q : Values) {n : ℕ} (hn : n < 2 ^ 63) :
    eventsFilter parseTime (atOffset q n) = { eventsFilter parseTime q with offset := n } := by
  unfold eventsFilter
  rw [parseQueryFilter_atOffset parseTime q hn]
  dsimp only
  split_ifs <;> rfl

theorem eventsFilter_limit_pos (q : Values) : 0 < (eventsFilter parseTime q).limit := by
  have hnonneg : 0 ≤ (parseQueryFilter parseTime q).limit := positiveParam_nonneg q (lit "limit")
  unfold eventsFilter
  dsimp only
  split_ifs with hzero
  · show (0 : ℤ) < 50
    decide
  · omega

/-- The limit the response reports. -/
def reportedLimit (q : Values) : ℕ := (eventsFilter parseTime q).limit.toNat

theorem natCast_reportedLimit (q : Values) :
    (reportedLimit parseTime q : ℤ) = (eventsFilter parseTime q).limit :=
  Int.toNat_of_nonneg (eventsFilter_limit_pos parseTime q).le

theorem reportedLimit_pos (q : Values) : 0 < reportedLimit parseTime q := by
  have hpos := eventsFilter_limit_pos parseTime q
  rw [← natCast_reportedLimit] at hpos
  exact_mod_cast hpos

/-- The store bounds the limit. -/
theorem clampLimit_eventsFilter (q : Values) :
    clampLimit (eventsFilter parseTime q) = min (reportedLimit parseTime q) maxQueryLimit := by
  have hpos := eventsFilter_limit_pos parseTime q
  unfold clampLimit reportedLimit
  dsimp only
  rw [if_neg (not_le.mpr hpos)]
  split_ifs with hmax
  · rw [Int.toNat_natCast, min_eq_right (by omega)]
  · rw [min_eq_left (by omega)]

end Handler

/-! ### The pages of a quiescent store -/

section Pages
variable [UnicodeCase]

/-- The in-memory logger, which never fails. -/
def memorySource (log : List Event) : EventSource where
  query f := .ok (query log f)
  count f := (count log f, none)

/-- The pages hold every matching event once, in the order of the rows, and each of
them reports how many that are. -/
def Tiles (log : List Event) (f : QueryFilter) (pages : List EventsPage) : Prop :=
  (pages.flatMap EventsPage.events).Perm (log.filter (matchesFilter · f)) ∧
    (pages.flatMap EventsPage.events).Pairwise rowLe ∧
    ∀ page ∈ pages, page.total = (pages.flatMap EventsPage.events).length

variable (parseTime : GoString → Option Time) (q : Values) {log : List Event}

/-- The rows a client is to read. -/
def listedRows (log : List Event) : List Event := matchAll log (parseQueryFilter parseTime q)

/-- The page at an offset. -/
def pageAt (log : List Event) (n : ℕ) : EventsPage where
  events := slice (listedRows parseTime q log) n (min (reportedLimit parseTime q) maxQueryLimit)
  total := (listedRows parseTime q log).length
  limit := (eventsFilter parseTime q).limit
  offset := n

@[simp] theorem pageAt_total (log : List Event) (n : ℕ) :
    (pageAt parseTime q log n).total = (listedRows parseTime q log).length := rfl

@[simp] theorem pageAt_limit (log : List Event) (n : ℕ) :
    (pageAt parseTime q log n).limit = (eventsFilter parseTime q).limit := rfl

theorem matchAll_eventsFilter (log : List Event) (n : ℤ) :
    matchAll log { eventsFilter parseTime q with offset := n } = listedRows parseTime q log := by
  unfold eventsFilter
  dsimp only
  split_ifs <;> rfl

theorem auditEvents_atOffset {n : ℕ} (hn : n < 2 ^ 63) :
    auditEvents parseTime (memorySource log) (atOffset q n) = .ok (pageAt parseTime q log n) := by
  have hoffset : clampOffset { eventsFilter parseTime q with offset := n } = n := by
    rw [clampOffset, if_neg (by dsimp only; omega), Int.toNat_natCast]
  have hlimit : clampLimit { eventsFilter parseTime q with offset := n } =
      min (reportedLimit parseTime q) maxQueryLimit := clampLimit_eventsFilter parseTime q
  simp only [auditEvents, eventsFilter_atOffset parseTime q hn, memorySource, query_eq, count,
    hoffset, hlimit, matchAll_eventsFilter]
  rfl

theorem length_listedRows_le (log : List Event) : (listedRows parseTime q log).length ≤ log.length := by
  rw [listedRows, matchAll, length_sorted]
  exact List.length_filter_le _ _

/-- The client asks for the page behind this one exactly if there is one. -/
theorem nextOffset_pageAt (i : ℕ) :
    nextOffset (i * reportedLimit parseTime q)
        (.ok (pageAt parseTime q log (i * reportedLimit parseTime q))) =
      if i < lastIndex (listedRows parseTime q log).length (reportedLimit parseTime q) then
        some ((i + 1) * reportedLimit parseTime q) else none := by
  simp only [nextOffset, pageAt, ← natCast_reportedLimit, lt_lastIndex_iff (reportedLimit_pos parseTime q),
    Nat.succ_mul]
  norm_cast

/-- A client gets the pages at the multiples of the reported limit, and comes to an
end. -/
theorem readPages_eq (hlog : log.length < 2 ^ 63) {n fuel : ℕ}
    (hn : n = lastIndex (listedRows parseTime q log).length (reportedLimit parseTime q))
    (hfuel : n < fuel) :
    readPages parseTime (memorySource log) q fuel =
      some (((List.range (n + 1)).map fun i =>
        pageAt parseTime q log (i * reportedLimit parseTime q)).map .ok) := by
  -- every offset the client asks for is in the range of `Atoi`
  have hserve : ∀ i ≤ n, auditEvents parseTime (memorySource log)
      (atOffset q (i * reportedLimit parseTime q)) =
        .ok (pageAt parseTime q log (i * reportedLimit parseTime q)) := by
    intro i hi
    apply auditEvents_atOffset
    have hle := length_listedRows_le parseTime q log
    cases i with
    | zero => omega
    | succ i =>
      rw [hn, Nat.succ_le_iff, lt_lastIndex_iff (reportedLimit_pos parseTime q)] at hi
      omega
  have hnext : ∀ i < n, nextOffset (i * reportedLimit parseTime q) (auditEvents parseTime
      (memorySource log) (atOffset q (i * reportedLimit parseTime q))) =
        some ((i + 1) * reportedLimit parseTime q) := by
    intro i hi
    rw [hserve i hi.le, nextOffset_pageAt, if_pos (hn ▸ hi)]
  have hlast : nextOffset (n * reportedLimit parseTime q) (auditEvents parseTime
      (memorySource log) (atOffset q (n * reportedLimit parseTime q))) = none := by
    rw [hserve n le_rfl, nextOffset_pageAt, if_neg (hn ▸ lt_irrefl n)]
  have hfollow := follow_eq (fun n => auditEvents parseTime (memorySource log) (atOffset q n)) nextOffset
    (fun i => i * reportedLimit parseTime q) hnext hlast hfuel
  rw [Nat.zero_mul] at hfollow
  rw [readPages, hfollow, List.map_map]
  refine congrArg some (List.map_congr_left fun i hi => ?_)
  exact hserve i (Nat.lt_succ_iff.mp (List.mem_range.mp hi))

theorem events_pages (n : ℕ) :
    ((List.range n).map fun i => pageAt parseTime q log (i * reportedLimit parseTime q)).flatMap
        EventsPage.events =
      (List.range n).flatMap fun i => slice (listedRows parseTime q log)
        (i * reportedLimit parseTime q) (min (reportedLimit parseTime q) maxQueryLimit) := by
  rw [List.flatMap_map]
  rfl

theorem tiles_of_events {pages : List EventsPage}
    (hevents : pages.flatMap EventsPage.events = listedRows parseTime q log)
    (htotal : ∀ page ∈ pages, page.total = (listedRows parseTime q log).length) :
    Tiles log (parseQueryFilter parseTime q) pages := by
  refine ⟨?_, ?_, ?_⟩
  · rw [hevents]
    exact sorted_perm _
  · rw [hevents]
    exact sorted_pairwise _
  · rw [hevents]
    exact htotal

theorem length_of_tiles {pages : List EventsPage}
    (h : Tiles log (parseQueryFilter parseTime q) pages) :
    (pages.flatMap EventsPage.events).length = (listedRows parseTime q log).length := by
  rw [h.1.length_eq, listedRows, matchAll, length_sorted]

/-- A client that reads the list page by page comes to an end. The pages tile the
matching events if and only if the reported limit is one the store honours, or one
full page of the store holds everything. -/
theorem readPages_tile_iff (hlog : log.length < 2 ^ 63) :
    ∃ pages : List EventsPage,
      (∃ enough, ∀ fuel, enough ≤ fuel →
        readPages parseTime (memorySource log) q fuel = some (pages.map .ok)) ∧
      (Tiles log (parseQueryFilter parseTime q) pages ↔
        (eventsFilter parseTime q).limit ≤ maxQueryLimit ∨
          count log (parseQueryFilter parseTime q) ≤ maxQueryLimit) := by
  have hk := reportedLimit_pos parseTime q
  have hcount : count log (parseQueryFilter parseTime q) = (listedRows parseTime q log).length := rfl
  rw [hcount, ← natCast_reportedLimit, Int.ofNat_le]
  refine ⟨_, ⟨_, fun fuel hfuel => readPages_eq parseTime q hlog rfl hfuel⟩, ?_⟩
  constructor
  · intro htiles
    have hlength := length_of_tiles parseTime q htiles
    rw [events_pages] at hlength
    by_contra hcond
    rw [not_or, not_le, not_le] at hcond
    rw [min_eq_right hcond.1.le] at hlength
    exact (length_flatMap_slice_lt hcond.1 hcond.2 _).ne hlength
  · intro hcond
    apply tiles_of_events
    · rw [events_pages]
      by_cases hlimit : reportedLimit parseTime q ≤ maxQueryLimit
      · rw [min_eq_left hlimit, flatMap_slice, List.take_of_length_le (total_le_pages hk)]
      · -- one page is enough
        have hsmall := hcond.resolve_left hlimit
        have hindex : lastIndex (listedRows parseTime q log).length (reportedLimit parseTime q) = 0 := by
          rw [lastIndex, Nat.div_eq_of_lt (by omega)]
        rw [hindex, min_eq_right (by omega)]
        simp [slice, hsmall]
    · intro page hpage
      obtain ⟨i, -, rfl⟩ := List.mem_map.mp hpage
      rfl

end Pages

/-- A query string with a limit and nothing else. -/
def limitQuery (limit : GoString) : Values := [(lit "limit", [limit])]

theorem two_per_page_tile :
    (burst 5).length < 2 ^ 63 ∧
      ∃ pages : List EventsPage,
        (∃ enough, ∀ fuel, enough ≤ fuel → @readPages (fun _ => none) (@memorySource asciiCase (burst 5))
          (limitQuery (lit "2")) fuel = some (pages.map .ok)) ∧
        @Tiles asciiCase (burst 5) (parseQueryFilter (fun _ => none) (limitQuery (lit "2"))) pages := by
  have hlog : (burst 5).length < 2 ^ 63 := by decide
  obtain ⟨pages, hread, htiles⟩ :=
    @readPages_tile_iff asciiCase (fun _ => none) (limitQuery (lit "2")) (burst 5) hlog
  exact ⟨hlog, pages, hread, htiles.mpr (Or.inl (by decide))⟩

theorem listedRows_burst [UnicodeCase] {limit : GoString} {n : ℤ} (m : ℕ)
    (hparse : parseQueryFilter (fun _ => none) (limitQuery limit) = { limit := n }) :
    listedRows (fun _ => none) (limitQuery limit) (burst m) = (burst m).reverse := by
  have hall : (burst m).filter (matchesFilter · { limit := n }) = burst m := by
    rw [List.filter_eq_self]
    intro ev _
    simp [matchesFilter]
  rw [listedRows, hparse, matchAll, hall, sorted_burst]

/-- One event more than a page of the store holds, and a limit that admits it: the
response reports all of them and leaves one out. -/
theorem skips_event [UnicodeCase] {fuel : ℕ} (hfuel : 0 < fuel) :
    ∃ page : EventsPage,
      readPages (fun _ => none) (memorySource (burst 1001)) (limitQuery (lit "1001")) fuel =
        some [.ok page] ∧
      page.total = 1001 ∧ page.limit = 1001 ∧ page.events.length = 1000 ∧
      ¬ Tiles (burst 1001) (parseQueryFilter (fun _ => none) (limitQuery (lit "1001"))) [page] := by
  have hparse : parseQueryFilter (fun _ => none) (limitQuery (lit "1001")) = { limit := 1001 } := by
    decide
  have hlimit : reportedLimit (fun _ => none) (limitQuery (lit "1001")) = 1001 := by decide
  have hlength : (burst 1001).length = 1001 := by simp [burst]
  have hrows : (listedRows (fun _ => none) (limitQuery (lit "1001")) (burst 1001)).length = 1001 := by
    rw [listedRows_burst 1001 hparse, List.length_reverse, hlength]
  have hread := readPages_eq (fun _ => none) (limitQuery (lit "1001")) (by rw [hlength]; decide)
    (by rw [hrows, hlimit]; decide) hfuel
  have hreported : (eventsFilter (fun _ => none) (limitQuery (lit "1001"))).limit = 1001 := by decide
  have hevents : (pageAt (fun _ => none) (limitQuery (lit "1001")) (burst 1001) 0).events.length =
      1000 := by
    rw [pageAt, slice, List.length_take, List.drop_zero, hrows, hlimit]
    decide
  refine ⟨pageAt (fun _ => none) (limitQuery (lit "1001")) (burst 1001) 0, ?_,
    (pageAt_total _ _ _ _).trans hrows, (pageAt_limit _ _ _ _).trans hreported, hevents, ?_⟩
  · rw [hread]
    simp
  · intro htiles
    have hlen := length_of_tiles _ _ htiles
    rw [List.flatMap_singleton, hevents, hrows] at hlen
    exact absurd hlen (by decide)

theorem large_limit_skips_event :
    ∃ page : EventsPage,
      @readPages (fun _ => none) (@memorySource asciiCase (burst 1001)) (limitQuery (lit "1001")) 1 =
        some [.ok page] ∧
      page.total = 1001 ∧ page.limit = 1001 ∧ page.events.length = 1000 ∧
      ¬ @Tiles asciiCase (burst 1001)
        (parseQueryFilter (fun _ => none) (limitQuery (lit "1001"))) [page] :=
  @skips_event asciiCase 1 Nat.one_pos

end ApiTest.Portal
