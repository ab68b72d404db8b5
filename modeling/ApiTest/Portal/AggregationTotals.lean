import ApiTest.Portal.Aggregations

/-! What the aggregation endpoints count. Every event that `Query` returns is
counted once in the stats, in one group and, inside the half-open window, in one
bucket. `Query` returns at most `maxQueryLimit` rows though, and `timeWindow`
asks for no more than one page. -/

namespace ApiTest.Portal

open Text Audit Tally

/-! ### Tallies of any list of events -/

/-- What some events add up to. -/
def tallyOf (events : List Event) : Aggregate :=
  ⟨events.length, events.countP (!·.success), (events.map Event.durationMS).sum⟩

theorem foldl_add (events : List Event) : events.foldl Aggregate.add {} = tallyOf events := by
  induction events using List.reverseRecOn with
  | nil => rfl
  | append_singleton events ev ih =>
    rw [List.foldl_concat, ih]
    cases hs : ev.success <;> simp [tallyOf, Aggregate.add, hs]

theorem statsLoop_eq (events : List Event) :
    statsLoop events = (events.length, events.countP (!·.success), events.map Event.durationMS) := by
  have hfold : ∀ (n e : ℕ) (ds : List ℤ), events.foldl (fun acc ev =>
      (acc.1 + 1, if ev.success then acc.2.1 else acc.2.1 + 1, acc.2.2 ++ [ev.durationMS])) (n, e, ds) =
      (n + events.length, e + events.countP (!·.success), ds ++ events.map Event.durationMS) := by
    induction events with
    | nil => intro n e ds; simp
    | cons ev events ih =>
      intro n e ds
      rw [List.foldl_cons, ih, List.countP_cons, List.length_cons, List.map_cons]
      cases hs : ev.success <;> simp [Nat.add_assoc, Nat.add_comm 1]
  refine (hfold 0 0 []).trans ?_
  simp

/-- The window of a query that succeeds. -/
theorem queryWindow_ok {query : QueryFilter → Except GoString (List Event)}
    {parseTime : GoString → Option Time} {q : Values} {now : Time} {events : List Event}
    (h : query (timeWindow parseTime q now).1 = .ok events) :
    queryWindow query parseTime q now = .ok events := by
  rw [queryWindow, h]
  rfl

theorem bucketSeconds_pos (q : Values) : 0 < bucketSeconds q := by
  unfold bucketSeconds
  dsimp only
  split_ifs <;> omega

theorem timeSub_le_timeSub {a b c : ℤ} (h : a ≤ b) : timeSub a c ≤ timeSub b c := by
  unfold timeSub
  omega

theorem timeSub_nonneg {a b : ℤ} (h : b ≤ a) : 0 ≤ timeSub a b := by
  unfold timeSub
  omega

/-- An event of the half-open window falls into one of the buckets. -/
theorem bucketOf_eq {bucket from' to' : ℤ} (hb : 0 < bucket) (ev : Event) :
    bucketOf bucket from' to' ev =
      if from' ≤ ev.timestamp ∧ ev.timestamp < to' then
        some ((timeSub ev.timestamp from').tdiv (bucket * second)).toNat else none := by
  by_cases hin : from' ≤ ev.timestamp ∧ ev.timestamp < to'
  · have hpos : 0 < bucket * second := Int.mul_pos hb (by decide)
    have hd := timeSub_nonneg hin.1
    have hle : timeSub ev.timestamp from' ≤ timeSub to' from' := timeSub_le_timeSub hin.2.le
    have hidx : 0 ≤ (timeSub ev.timestamp from').tdiv (bucket * second) :=
      Int.tdiv_nonneg hd hpos.le
    have hlast : (timeSub ev.timestamp from').tdiv (bucket * second) ≤
        (timeSub to' from').tdiv (bucket * second) := by
      rw [Int.tdiv_eq_ediv_of_nonneg hd, Int.tdiv_eq_ediv_of_nonneg (hd.trans hle)]
      exact Int.ediv_le_ediv hpos hle
    have htotal : (timeSub ev.timestamp from').tdiv (bucket * second) <
        totalBuckets bucket from' to' := by
      unfold totalBuckets
      dsimp only
      split_ifs <;> omega
    have hskip : ¬ (ev.timestamp < from' ∨ ¬ ev.timestamp < to') := by
      rw [not_or, not_not]
      exact ⟨not_lt.mpr hin.1, hin.2⟩
    rw [bucketOf, if_neg hskip, if_pos hin]
    exact if_neg (not_or.mpr ⟨not_lt.mpr hidx, not_le.mpr htotal⟩)
  · have hskip : ev.timestamp < from' ∨ ¬ ev.timestamp < to' := by
      rw [← not_le, ← not_and_or]
      exact hin
    rw [bucketOf, if_pos hskip, if_neg hin]

theorem bucketOf_lt {bucket from' to' : ℤ} {ev : Event} {i : ℕ}
    (h : bucketOf bucket from' to' ev = some i) : i < (totalBuckets bucket from' to').toNat := by
  simp only [bucketOf] at h
  split_ifs at h
  cases h
  omega

theorem sum_buckets {bucket from' to' : ℤ} (hb : 0 < bucket) (events : List Event) :
    ((fill Aggregate.add (bucketOf bucket from' to') events
      (List.replicate (totalBuckets bucket from' to').toNat {})).map Aggregate.count).sum =
      events.countP fun ev => from' ≤ ev.timestamp && ev.timestamp < to' := by
  rw [sum_fill Aggregate.count (fun _ _ => rfl) (fun ev _ i hi => by simpa using bucketOf_lt hi)]
  have hzero : ((List.replicate (totalBuckets bucket from' to').toNat ({} : Aggregate)).map
      Aggregate.count).sum = 0 := by simp
  rw [hzero, Nat.zero_add]
  apply List.countP_congr
  intro ev _
  rw [bucketOf_eq hb]
  split_ifs with hin <;> simpa using hin

theorem breakdownGroups_perm (key : Event → GoString) (events : List Event) :
    (breakdownGroups key events).Perm ((groups Aggregate.add {} key events).map fun (k, agg) =>
      ⟨k, agg.count, agg.errors, agg.avgDurationMS⟩) := List.perm_insertionSort _ _

theorem sum_breakdownGroups (key : Event → GoString) (events : List Event) :
    ((breakdownGroups key events).map GroupOut.count).sum = events.length := by
  rw [((breakdownGroups_perm key events).map _).sum_eq, List.map_map]
  exact sum_groups Aggregate.count (fun _ _ => rfl) rfl events

theorem length_breakdownGroups (key : Event → GoString) (events : List Event) :
    (breakdownGroups key events).length = (events.map key).dedup.length := by
  have hkeys := (keys_groups_perm Aggregate.add {} key events).length_eq
  rw [(breakdownGroups_perm key events).length_eq, List.length_map, ← hkeys, List.length_map]

/-! ### The endpoints over the in-memory logger -/

section Endpoints
variable [UnicodeCase] (parseTime : GoString → Option Time) (store : List Event) (q : Values)
  (now : Time)

/-- `Query` of the in-memory logger, which never fails. -/
def storeQuery (f : QueryFilter) : Except GoString (List Event) := .ok (query store f)

/-- The filter `timeWindow` returns. -/
def windowFilter : QueryFilter := (timeWindow parseTime q now).1

/-- The four totals are those of the stored events that match the filter. -/
def TrueTotals : Prop :=
  (∃ stats, auditStats (storeQuery store) parseTime q now = .ok stats ∧
    stats.total = count store (windowFilter parseTime q now) ∧
    stats.errors = (store.filter fun ev =>
      matchesFilter ev (windowFilter parseTime q now) && !ev.success).length) ∧
  (∀ breakdown key, auditBreakdown (storeQuery store) parseTime q now = .ok breakdown →
    breakdownKeyFn breakdown.dimension = some key →
    ((matchAll store (windowFilter parseTime q now)).map key).dedup.length ≤ breakdownTop q →
    (breakdown.groups.map GroupOut.count).sum = count store (windowFilter parseTime q now)) ∧
  ∀ series, auditTimeseries (storeQuery store) parseTime q now = .ok series →
    (series.buckets.map BucketOut.count).sum = (store.filter fun ev =>
      matchesFilter ev (windowFilter parseTime q now) &&
        (series.fromTime ≤ ev.timestamp && ev.timestamp < series.toTime)).length

theorem query_windowFilter : query store (windowFilter parseTime q now) =
    (matchAll store (windowFilter parseTime q now)).take maxQueryLimit := by
  have hoff : clampOffset (windowFilter parseTime q now) = 0 := rfl
  have hlim : clampLimit (windowFilter parseTime q now) = maxQueryLimit := rfl
  rw [query_eq, hoff, hlim, List.drop_zero]

theorem auditStats_eq : ∃ stats, auditStats (storeQuery store) parseTime q now = .ok stats ∧
    stats.total = (query store (windowFilter parseTime q now)).length ∧
    stats.errors = (query store (windowFilter parseTime q now)).countP (!·.success) := by
  have hloop := statsLoop_eq (query store (windowFilter parseTime q now))
  refine ⟨_, rfl, congrArg Prod.fst hloop, congrArg (fun r => r.2.1) hloop⟩

theorem auditBreakdown_groups {breakdown : Breakdown}
    (h : auditBreakdown (storeQuery store) parseTime q now = .ok breakdown)
    {key : Event → GoString} (hkey : breakdownKeyFn breakdown.dimension = some key) :
    breakdown.groups = (breakdownGroups key
      (query store (windowFilter parseTime q now))).take (breakdownTop q) := by
  unfold auditBreakdown at h
  dsimp only at h
  split at h
  · next key' hkey' =>
    cases h
    rw [hkey'] at hkey
    cases hkey
    rfl
  · cases h

theorem auditTimeseries_buckets {series : Timeseries}
    (h : auditTimeseries (storeQuery store) parseTime q now = .ok series) :
    series.buckets.map BucketOut.count =
      (fill Aggregate.add (bucketOf (bucketSeconds q) series.fromTime series.toTime)
        (query store (windowFilter parseTime q now))
        (List.replicate (totalBuckets (bucketSeconds q) series.fromTime series.toTime).toNat
          {})).map Aggregate.count := by
  have hquery : queryWindow (storeQuery store) parseTime q now =
      .ok (query store (windowFilter parseTime q now)) := rfl
  unfold auditTimeseries at h
  rw [hquery] at h
  dsimp only at h
  by_cases hbig : 10000 < totalBuckets (bucketSeconds q) (timeWindow parseTime q now).2.1
      (timeWindow parseTime q now).2.2
  · simp only [if_pos hbig] at h
    cases h
  · simp only [if_neg hbig] at h
    cases h
    apply List.ext_getElem
    · simp
    · intro i _ _
      simp

theorem length_query_windowFilter : (query store (windowFilter parseTime q now)).length =
    min maxQueryLimit (count store (windowFilter parseTime q now)) := by
  rw [query_windowFilter, List.length_take, count]

/-- Counting over the rows is counting over the stored events. -/
theorem countP_matchAll (f : QueryFilter) (p : Event → Bool) :
    (matchAll store f).countP p = (store.filter fun ev => matchesFilter ev f && p ev).length := by
  rw [matchAll, (sorted_perm _).countP_eq, List.countP_filter, List.countP_eq_length_filter]
  simp only [Bool.and_comm]

/-- Below the page limit the endpoints count every matching event. -/
theorem trueTotals_of_count_le
    (h : count store (windowFilter parseTime q now) ≤ maxQueryLimit) :
    TrueTotals parseTime store q now := by
  have hquery : query store (windowFilter parseTime q now) =
      matchAll store (windowFilter parseTime q now) := by
    rw [query_windowFilter, List.take_of_length_le h]
  refine ⟨?_, ?_, ?_⟩
  · obtain ⟨stats, hstats, htotal, herrors⟩ := auditStats_eq parseTime store q now
    refine ⟨stats, hstats, ?_, ?_⟩
    · rw [htotal, hquery, count]
    · rw [herrors, hquery, countP_matchAll]
  · intro breakdown key hok hkey htop
    rw [auditBreakdown_groups parseTime store q now hok hkey, hquery, List.take_of_length_le,
      sum_breakdownGroups, count]
    rw [length_breakdownGroups]
    exact htop
  · intro series hok
    rw [auditTimeseries_buckets parseTime store q now hok, sum_buckets (bucketSeconds_pos q),
      hquery, countP_matchAll]

/-- Above it, the stats already miss events. -/
theorem count_le_of_trueTotals (h : TrueTotals parseTime store q now) :
    count store (windowFilter parseTime q now) ≤ maxQueryLimit := by
  obtain ⟨⟨stats, hstats, htotal, -⟩, -⟩ := h
  obtain ⟨stats', hstats', hlen, -⟩ := auditStats_eq parseTime store q now
  rw [hstats] at hstats'
  cases hstats'
  rw [htotal, length_query_windowFilter] at hlen
  omega

end Endpoints

/-- Without parameters the window is the last hour. -/
theorem windowFilter_nil (now : Time) : windowFilter (fun _ => none) [] now =
    { fromTime := now - hour, toTime := now, limit := maxQueryLimit } := by
  have horder : ¬ now < now - hour := not_lt.mpr (Int.sub_le_self now (by decide))
  have hparse : parseQueryFilter (fun _ => none) [] = {} := by decide
  simp [windowFilter, timeWindow, hparse, horder]

theorem count_burst [UnicodeCase] {m : ℕ} {now : Time} (hnow : (m : ℤ) + 1 ≤ now)
    (hhour : now ≤ hour) : count (burst m) (windowFilter (fun _ => none) [] now) = m := by
  rw [count, matchAll, length_sorted, List.filter_eq_self.mpr]
  · simp [burst]
  · intro ev hev
    obtain ⟨hlow, hhigh⟩ := one_lt_of_mem_burst hev
    have hfrom : now - hour ≤ ev.timestamp :=
      ((Int.sub_nonpos_of_le hhour).trans (by decide : (0 : ℤ) ≤ 1)).trans hlow.le
    rw [windowFilter_nil]
    simp [matchesFilter, hfrom, hhigh.trans hnow]

end ApiTest.Portal
