import ApiTest.Portal.AggregationTotals
import ApiTest.Text.Decimal

/-! The buckets of `auditTimeseries`. They start at `from`, follow each other without
a gap and reach beyond `to`, so an event of the window lies in one of them, and the
index the handler computes is that of the bucket it lies in. A window that is too wide
for `Time.Sub` is too wide for the limit on the number of buckets as well. -/

namespace ApiTest.Portal

open Text Audit Tally

/-! ### Aggregates -/

/-- The durations of one answer of `Query`, each of them the milliseconds of a
`Duration`, add up to an `int64`. -/
theorem isInt_durationMS {events : List Event} (hlength : events.length ≤ maxQueryLimit)
    (hms : ∀ ev ∈ events, ev.durationMS.natAbs ≤ 2 ^ 63 / 1000000) :
    IsInt (tallyOf events).durationMS := by
  have hsum : (events.map Event.durationMS).sum.natAbs ≤ events.length * (2 ^ 63 / 1000000) := by
    clear hlength
    induction events with
    | nil => simp
    | cons ev events ih =>
      rw [List.forall_mem_cons] at hms
      have hrest := ih hms.2
      have hfirst := hms.1
      rw [List.map_cons, List.sum_cons, List.length_cons]
      omega
  have hlimit : events.length ≤ 1000 := hlength
  constructor <;> simp only [tallyOf] <;> omega

/-! ### The window -/

/-- A time parameter that is given: not blank, well formed and not the zero time. -/
def givenTime (parseTime : GoString → Option Time) (q : Values) (key : GoString) : Option Time :=
  if q.get key = [] then none else (parseTime (q.get key)).filter (· ≠ 0)

/-- The window and the buckets that the parameters ask for. A bound that is not given is the
present, or an hour before `to`; bounds in the wrong order are swapped. The filter has the
bounds of the window and a page of its own. A bucket is a minute if its length is not given
or not positive, and an hour at most. -/
structure Requested (parseTime : GoString → Option Time) (q : Values) (now : Time) (f : QueryFilter)
    (bucket from' to' : ℤ) : Prop where
  both : ∀ a b, givenTime parseTime q (lit "from") = some a →
    givenTime parseTime q (lit "to") = some b → from' = min a b ∧ to' = max a b
  onlyFrom : ∀ a, givenTime parseTime q (lit "from") = some a →
    givenTime parseTime q (lit "to") = none → from' = min a now ∧ to' = max a now
  onlyTo : ∀ b, givenTime parseTime q (lit "from") = none →
    givenTime parseTime q (lit "to") = some b → from' = b - hour ∧ to' = b
  neither : givenTime parseTime q (lit "from") = none → givenTime parseTime q (lit "to") = none →
    from' = now - hour ∧ to' = now
  filter : f = { parseQueryFilter parseTime q with
    fromTime := from', toTime := to', limit := maxQueryLimit, offset := 0 }
  minute : (atoi (q.get (lit "bucket_seconds"))).1 ≤ 0 → bucket = 60
  seconds : 0 < (atoi (q.get (lit "bucket_seconds"))).1 →
    bucket = min (atoi (q.get (lit "bucket_seconds"))).1 3600

theorem timeParam_eq (parseTime : GoString → Option Time) (q : Values) (key : GoString) :
    timeParam parseTime q key = (givenTime parseTime q key).getD 0 := by
  unfold timeParam givenTime
  split_ifs with hblank
  · rfl
  · cases parseTime (q.get key) with
    | none => rfl
    | some t => by_cases ht : t = 0 <;> simp [Option.filter, ht]

theorem ne_zero_of_givenTime {parseTime : GoString → Option Time} {q : Values} {key : GoString} {t : Time}
    (h : givenTime parseTime q key = some t) : t ≠ 0 := by
  unfold givenTime at h
  split_ifs at h
  simpa using (Option.filter_eq_some_iff.mp h).2

theorem swap_eq (a b : ℤ) : (if b < a then (b, a) else (a, b)) = (min a b, max a b) := by
  split_ifs with h
  · rw [min_eq_right h.le, max_eq_left h.le]
  · rw [min_eq_left (not_lt.mp h), max_eq_right (not_lt.mp h)]

theorem timeWindow_eq (parseTime : GoString → Option Time) (q : Values) (now : Time) :
    let to' := (givenTime parseTime q (lit "to")).getD now
    let from' := (givenTime parseTime q (lit "from")).getD (to' - hour)
    timeWindow parseTime q now = ({ parseQueryFilter parseTime q with
      fromTime := min from' to', toTime := max from' to', limit := maxQueryLimit, offset := 0 },
      min from' to', max from' to') := by
  have hgiven : ∀ (key : GoString) (other : Time),
      (if timeParam parseTime q key = 0 then other else timeParam parseTime q key) =
        (givenTime parseTime q key).getD other := by
    intro key other
    rw [timeParam_eq]
    cases hkey : givenTime parseTime q key with
    | none => rfl
    | some t => exact if_neg (ne_zero_of_givenTime hkey)
  intro to' from'
  have hto : (if (parseQueryFilter parseTime q).toTime = 0 then now
      else (parseQueryFilter parseTime q).toTime) = to' := hgiven (lit "to") now
  have hfrom : (if (parseQueryFilter parseTime q).fromTime = 0 then to' - hour
      else (parseQueryFilter parseTime q).fromTime) = from' := hgiven (lit "from") (to' - hour)
  unfold timeWindow
  dsimp only
  rw [hto, hfrom, swap_eq]

theorem bucketSeconds_eq (q : Values) :
    bucketSeconds q = if (atoi (q.get (lit "bucket_seconds"))).1 ≤ 0 then 60
      else min (atoi (q.get (lit "bucket_seconds"))).1 3600 := by
  unfold bucketSeconds
  dsimp only
  split_ifs <;> omega

theorem requested_timeWindow (parseTime : GoString → Option Time) (q : Values) (now : Time) :
    Requested parseTime q now (timeWindow parseTime q now).1 (bucketSeconds q)
      (timeWindow parseTime q now).2.1 (timeWindow parseTime q now).2.2 := by
  have hhour : ∀ t : ℤ, t - hour ≤ t := fun t => Int.sub_le_self t (by decide)
  rw [timeWindow_eq]
  refine ⟨?_, ?_, ?_, ?_, rfl, ?_, ?_⟩
  · intro a b hfrom hto
    rw [hfrom, hto]
    exact ⟨rfl, rfl⟩
  · intro a hfrom hto
    rw [hfrom, hto]
    exact ⟨rfl, rfl⟩
  · intro b hfrom hto
    rw [hfrom, hto]
    exact ⟨min_eq_left (hhour b), max_eq_right (hhour b)⟩
  · intro hfrom hto
    rw [hfrom, hto]
    exact ⟨min_eq_left (hhour now), max_eq_right (hhour now)⟩
  · intro hminute
    rw [bucketSeconds_eq, if_pos hminute]
  · intro hseconds
    rw [bucketSeconds_eq, if_neg (not_le.mpr hseconds)]

theorem fromTime_le_toTime (parseTime : GoString → Option Time) (q : Values) (now : Time) :
    (timeWindow parseTime q now).2.1 ≤ (timeWindow parseTime q now).2.2 := by
  rw [timeWindow_eq]
  exact min_le_max

theorem bucketSeconds_le (q : Values) : bucketSeconds q ≤ 3600 := by
  rw [bucketSeconds_eq]
  split_ifs <;> omega

/-- The number of buckets a window takes. -/
def wholeBuckets (bucket from' to' : ℤ) : ℤ := (to' - from') / (bucket * second) + 1

section Window
variable {bucket from' to' : ℤ} (hpos : 0 < bucket) (hmax : bucket ≤ 3600)

include hpos in
theorem width_pos : 0 < bucket * second := Int.mul_pos hpos (by decide)

include hmax in
theorem width_le : bucket * second ≤ 3600 * second := Int.mul_le_mul_of_nonneg_right hmax (by decide)

theorem timeSub_eq {a b : ℤ} (h : b ≤ a) (hsmall : a - b < 2 ^ 63) : timeSub a b = a - b := by
  unfold timeSub
  omega

theorem totalBuckets_eq (hle : from' ≤ to') (hsmall : to' - from' < 2 ^ 63) (hpos : 0 < bucket) :
    totalBuckets bucket from' to' = wholeBuckets bucket from' to' := by
  have hd : 0 ≤ to' - from' := by omega
  have hdiv := Int.ediv_nonneg hd (width_pos hpos).le
  unfold totalBuckets wholeBuckets
  dsimp only
  rw [timeSub_eq hle hsmall, Int.tdiv_eq_ediv_of_nonneg hd]
  exact if_neg (by omega)

include hpos hmax in
/-- The limit is on the true number of buckets, even when `Time.Sub` saturates. -/
theorem tooMany_iff (hle : from' ≤ to') :
    10000 < totalBuckets bucket from' to' ↔ 10000 < wholeBuckets bucket from' to' := by
  by_cases hsmall : to' - from' < 2 ^ 63
  · rw [totalBuckets_eq hle hsmall hpos]
  · have hwidth := width_pos hpos
    have hle' := width_le hmax
    have hsecond : 3600 * second = 3600000000000 := by decide
    have htotal : 10000 < totalBuckets bucket from' to' := by
      have hsub : timeSub to' from' = 2 ^ 63 - 1 := by
        unfold timeSub
        omega
      have hdiv : 10000 ≤ (2 ^ 63 - 1 : ℤ) / (bucket * second) :=
        (Int.le_ediv_iff_mul_le hwidth).mpr (by omega)
      unfold totalBuckets
      dsimp only
      rw [hsub, Int.tdiv_eq_ediv_of_nonneg (by decide)]
      split_ifs <;> omega
    have hwhole : 10000 ≤ (to' - from') / (bucket * second) :=
      (Int.le_ediv_iff_mul_le hwidth).mpr (by omega)
    exact iff_of_true htotal (by unfold wholeBuckets; omega)

include hpos hmax in
/-- A window within the limit does not saturate `Time.Sub`. -/
theorem width_of_few (h : ¬ 10000 < wholeBuckets bucket from' to') : to' - from' < 2 ^ 63 := by
  have hwidth := width_pos hpos
  have hle := width_le hmax
  have hsecond : 3600 * second = 3600000000000 := by decide
  unfold wholeBuckets at h
  have hdiv : (to' - from') / (bucket * second) < 10000 := by omega
  have hlt := (Int.ediv_lt_iff_lt_mul hwidth).mp hdiv
  omega

/-- The slot of width `w` that a point behind `from'` lies in. -/
theorem slot_eq_iff {w t : ℤ} (hw : 0 < w) (ht : from' ≤ t) (i : ℕ) :
    ((t - from') / w).toNat = i ↔ from' + i * w ≤ t ∧ t < from' + i * w + w := by
  have hdiv := Int.ediv_nonneg (Int.sub_nonneg_of_le ht) hw.le
  have hlow : (i : ℤ) ≤ (t - from') / w ↔ i * w ≤ t - from' := Int.le_ediv_iff_mul_le hw
  have hhigh : (t - from') / w < i + 1 ↔ t - from' < i * w + w := by
    rw [Int.ediv_lt_iff_lt_mul hw, Int.add_mul, Int.one_mul]
  omega

include hpos in
/-- The index of an event is that of the bucket it lies in. -/
theorem bucketOf_eq_some (hsmall : to' - from' < 2 ^ 63) (ev : Event) (i : ℕ) :
    bucketOf bucket from' to' ev = some i ↔
      (from' ≤ ev.timestamp ∧ ev.timestamp < to') ∧
        from' + i * (bucket * second) ≤ ev.timestamp ∧
        ev.timestamp < from' + i * (bucket * second) + bucket * second := by
  rw [bucketOf_eq hpos]
  by_cases hin : from' ≤ ev.timestamp ∧ ev.timestamp < to'
  · have hsub : timeSub ev.timestamp from' = ev.timestamp - from' :=
      timeSub_eq hin.1 ((Int.sub_lt_sub_right hin.2 from').trans hsmall)
    rw [if_pos hin, hsub, Int.tdiv_eq_ediv_of_nonneg (Int.sub_nonneg_of_le hin.1),
      Option.some.injEq, slot_eq_iff (width_pos hpos) hin.1]
    exact (and_iff_right hin).symm
  · rw [if_neg hin]
    simp [hin]

end Window

/-! ### The partition -/

/-- `bucketsAgg` behind the loop over the events. -/
def bucketsAgg (bucket from' to' : ℤ) (events : List Event) : List Aggregate :=
  fill Aggregate.add (bucketOf bucket from' to') events
    (List.replicate (totalBuckets bucket from' to').toNat {})

/-- The event is in the half-open window and in the bucket. -/
def Timeseries.Holds (series : Timeseries) (out : BucketOut) (ev : Event) : Prop :=
  (series.fromTime ≤ ev.timestamp ∧ ev.timestamp < series.toTime) ∧
    out.time ≤ ev.timestamp ∧ ev.timestamp < out.time + series.bucketSeconds * second

instance (series : Timeseries) (out : BucketOut) : DecidablePred (series.Holds out) :=
  fun _ => inferInstanceAs (Decidable (_ ∧ _))

/-- The index `auditTimeseries` computes for an event. -/
def Timeseries.index (series : Timeseries) (ev : Event) : ℤ :=
  (timeSub ev.timestamp series.fromTime).tdiv (series.bucketSeconds * second)

/-- The buckets cover the window, every event of it is in one of them, and each adds up
its own events. -/
structure Partitions (series : Timeseries) (events : List Event) : Prop where
  ordered : series.fromTime ≤ series.toTime
  length : (series.buckets.length : ℤ) =
    wholeBuckets series.bucketSeconds series.fromTime series.toTime
  time : ∀ (i : ℕ) out, series.buckets[i]? = some out →
    out.time = series.fromTime + i * (series.bucketSeconds * second)
  in_range : ∀ ev, series.fromTime ≤ ev.timestamp → ev.timestamp < series.toTime →
    0 ≤ series.index ev ∧ series.index ev < series.buckets.length
  one : ∀ ev, series.fromTime ≤ ev.timestamp → ev.timestamp < series.toTime →
    ∃! i : ℕ, ∃ out, series.buckets[i]? = some out ∧ series.Holds out ev
  tallied : ∀ (i : ℕ) out, series.buckets[i]? = some out →
    let tally := tallyOf (events.filter (series.Holds out))
    (bucketsAgg series.bucketSeconds series.fromTime series.toTime events)[i]? = some tally ∧
      out.count = tally.count ∧ out.errors = tally.errors ∧ out.avgDurationMS = tally.avgDurationMS
  total : (series.buckets.map BucketOut.count).sum =
    events.countP fun ev => series.fromTime ≤ ev.timestamp && ev.timestamp < series.toTime

/-- The answer for some events in a window. -/
def seriesOf (bucket from' to' : ℤ) (events : List Event) : Timeseries where
  fromTime := from'
  toTime := to'
  bucketSeconds := bucket
  buckets := (bucketsAgg bucket from' to' events).mapIdx fun i agg =>
    ⟨from' + i * (bucket * second), agg.count, agg.errors, agg.avgDurationMS⟩

section Partition
variable {bucket from' to' : ℤ} {events : List Event}

theorem length_bucketsAgg :
    (bucketsAgg bucket from' to' events).length = (totalBuckets bucket from' to').toNat := by
  rw [bucketsAgg, length_fill, List.length_replicate]

theorem getElem?_bucketsAgg (i : ℕ) :
    (bucketsAgg bucket from' to' events)[i]? =
      if i < (totalBuckets bucket from' to').toNat then
        some (tallyOf (events.filter fun ev => bucketOf bucket from' to' ev = some i)) else none := by
  rw [bucketsAgg, getElem?_fill, List.getElem?_replicate]
  split_ifs
  · rw [Option.map_some, foldl_add]
  · rfl

theorem isInt_of_bucketsAgg {i : ℕ} {agg : Aggregate} (hlength : events.length ≤ maxQueryLimit)
    (hms : ∀ ev ∈ events, ev.durationMS.natAbs ≤ 2 ^ 63 / 1000000)
    (h : (bucketsAgg bucket from' to' events)[i]? = some agg) : IsInt agg.durationMS := by
  rw [getElem?_bucketsAgg] at h
  split_ifs at h
  cases h
  exact isInt_durationMS ((List.length_filter_le _ _).trans hlength)
    fun ev hev => hms ev (List.mem_of_mem_filter hev)

theorem buckets_eq_some {i : ℕ} {out : BucketOut}
    (h : (seriesOf bucket from' to' events).buckets[i]? = some out) :
    let tally := tallyOf (events.filter fun ev => bucketOf bucket from' to' ev = some i)
    (bucketsAgg bucket from' to' events)[i]? = some tally ∧
      out = ⟨from' + i * (bucket * second), tally.count, tally.errors, tally.avgDurationMS⟩ := by
  intro tally
  simp only [seriesOf, List.getElem?_mapIdx, getElem?_bucketsAgg] at h
  rw [getElem?_bucketsAgg]
  split_ifs at h ⊢
  · cases h
    exact ⟨rfl, rfl⟩
  · cases h

theorem length_buckets :
    (seriesOf bucket from' to' events).buckets.length = (totalBuckets bucket from' to').toNat := by
  rw [seriesOf, List.length_mapIdx, length_bucketsAgg]

/-- The events a bucket holds are those with its index. -/
theorem holds_iff (hpos : 0 < bucket) (hsmall : to' - from' < 2 ^ 63) {i : ℕ} {out : BucketOut}
    (hout : (seriesOf bucket from' to' events).buckets[i]? = some out) (ev : Event) :
    (seriesOf bucket from' to' events).Holds out ev ↔ bucketOf bucket from' to' ev = some i := by
  rw [(buckets_eq_some hout).2, bucketOf_eq_some hpos hsmall]
  rfl

section Index
variable (hpos : 0 < bucket) {ev : Event} (hlow : from' ≤ ev.timestamp) (hhigh : ev.timestamp < to')
include hpos hlow hhigh

theorem bucketOf_index : bucketOf bucket from' to' ev =
    some ((seriesOf bucket from' to' events).index ev).toNat :=
  (bucketOf_eq hpos ev).trans (if_pos ⟨hlow, hhigh⟩)

theorem index_in_range : 0 ≤ (seriesOf bucket from' to' events).index ev ∧
    (seriesOf bucket from' to' events).index ev <
      (seriesOf bucket from' to' events).buckets.length := by
  have hnonneg : 0 ≤ (seriesOf bucket from' to' events).index ev :=
    Int.tdiv_nonneg (timeSub_nonneg hlow) (width_pos hpos).le
  have hlt := bucketOf_lt (@bucketOf_index bucket from' to' events hpos ev hlow hhigh)
  rw [← @length_buckets bucket from' to' events] at hlt
  exact ⟨hnonneg, by omega⟩

/-- An event of the window is in the bucket of its index, and in no other. -/
theorem one_bucket (hsmall : to' - from' < 2 ^ 63) :
    ∃! i : ℕ, ∃ out, (seriesOf bucket from' to' events).buckets[i]? = some out ∧
      (seriesOf bucket from' to' events).Holds out ev := by
  have hindex := @bucketOf_index bucket from' to' events hpos ev hlow hhigh
  obtain ⟨hnonneg, hlt⟩ := @index_in_range bucket from' to' events hpos ev hlow hhigh
  refine ⟨((seriesOf bucket from' to' events).index ev).toNat, ?_, ?_⟩
  · obtain ⟨out, hout⟩ : ∃ out, (seriesOf bucket from' to' events).buckets[
        ((seriesOf bucket from' to' events).index ev).toNat]? = some out :=
      ⟨_, List.getElem?_eq_getElem (by omega)⟩
    exact ⟨out, hout, (holds_iff hpos hsmall hout ev).mpr hindex⟩
  · rintro i ⟨out, hout, hholds⟩
    have hi := (holds_iff hpos hsmall hout ev).mp hholds
    rw [hindex] at hi
    exact (Option.some.inj hi).symm

end Index

theorem partitions_seriesOf (hpos : 0 < bucket) (hle : from' ≤ to')
    (hsmall : to' - from' < 2 ^ 63) : Partitions (seriesOf bucket from' to' events) events := by
  refine ⟨hle, ?_, fun i out hout => ?_, fun ev hlow hhigh => index_in_range hpos hlow hhigh,
    fun ev hlow hhigh => one_bucket hpos hlow hhigh hsmall, fun i out hout => ?_, ?_⟩
  · have hwhole := totalBuckets_eq hle hsmall hpos
    have hdiv := Int.ediv_nonneg (Int.sub_nonneg_of_le hle) (width_pos hpos).le
    rw [length_buckets, hwhole]
    show ((wholeBuckets bucket from' to').toNat : ℤ) = wholeBuckets bucket from' to'
    unfold wholeBuckets
    omega
  · rw [(buckets_eq_some hout).2]
    rfl
  · obtain ⟨hagg, hout'⟩ := buckets_eq_some hout
    have hfilter : (events.filter fun ev => bucketOf bucket from' to' ev = some i) =
        events.filter ((seriesOf bucket from' to' events).Holds out) := by
      apply List.filter_congr
      intro ev _
      rw [decide_eq_decide]
      exact (holds_iff hpos hsmall hout ev).symm
    intro tally
    rw [hfilter] at hagg hout'
    exact ⟨hagg, congrArg BucketOut.count hout', congrArg BucketOut.errors hout',
      congrArg BucketOut.avgDurationMS hout'⟩
  · have hcounts : (seriesOf bucket from' to' events).buckets.map BucketOut.count =
        (bucketsAgg bucket from' to' events).map Aggregate.count := by
      apply List.ext_getElem <;> simp [seriesOf]
    rw [hcounts, bucketsAgg, sum_buckets hpos]
    rfl

end Partition

section Timeseries
variable (query : QueryFilter → Except GoString (List Event))
  (parseTime : GoString → Option Time) (q : Values) (now : Time)

end Timeseries

/-- Two requests, one of them at the very end of the window. -/
def lateEvents : List Event := [{ timestamp := 3 * hour - 1 }, { timestamp := 3 * hour }]

/-- A layout with two times, one o'clock and three o'clock. -/
def twoTimes (s : GoString) : Option Time :=
  if s = lit "one" then some hour else if s = lit "three" then some (3 * hour) else none

/-- A request with its bounds in the wrong order and buckets of 90 seconds. -/
def swappedQuery : Values :=
  [(lit "from", [lit "three"]), (lit "to", [lit "one"]), (lit "bucket_seconds", [lit "90"])]

end ApiTest.Portal
