import Mathlib.Data.Rat.Init
import ApiTest.Audit.Memory
import ApiTest.Portal.QueryFilter
import ApiTest.Tally.Groups

/-! The aggregation endpoints `auditTimeseries`, `auditBreakdown` and `auditStats`.
Each of them asks `Query` once, with the filter of `timeWindow`, and tallies the
rows. Averages, rates and ranks are exact rationals where Go computes in
`float64`, sums of durations are not cut to 64 bits, and the text of a bad
request is left to its constructor. -/

namespace ApiTest.Portal

open Text Audit Tally

/-! ### The window -/

def second : ℤ := 1000000000

def hour : ℤ := 3600 * second

/-- `Time.Sub`, which saturates at the range of a 64-bit `Duration`. -/
def timeSub (a b : Time) : ℤ := max (-2 ^ 63) (min (2 ^ 63 - 1) (a - b))

/-- `timeWindow`: the filter, `from` and `to`. -/
def timeWindow (parseTime : GoString → Option Time) (q : Values) (now : Time) :
    QueryFilter × Time × Time :=
  let f := parseQueryFilter parseTime q
  let to' := if f.toTime = 0 then now else f.toTime
  let from' := if f.fromTime = 0 then to' - hour else f.fromTime
  let (from', to') := if to' < from' then (to', from') else (from', to')
  ({ f with fromTime := from', toTime := to', limit := maxQueryLimit, offset := 0 }, from', to')

/-- `bucketSeconds`. -/
def bucketSeconds (q : Values) : ℤ :=
  let v := (atoi (q.get (lit "bucket_seconds"))).1
  if v ≤ 0 then 60 else if 3600 < v then 3600 else v

/-! ### Aggregates -/

/-- What a bucket or a group adds up. -/
structure Aggregate where
  count : ℕ := 0
  errors : ℕ := 0
  durationMS : ℤ := 0
  deriving DecidableEq, Repr

def Aggregate.add (agg : Aggregate) (ev : Event) : Aggregate where
  count := agg.count + 1
  errors := if ev.success then agg.errors else agg.errors + 1
  durationMS := agg.durationMS + ev.durationMS

/-- The conversion of a number to `int`, towards zero. -/
def truncate (v : ℚ) : ℤ := if 0 ≤ v then v.floor else -(-v).floor

def round1 (v : ℚ) : ℚ := truncate (v * 10 + 1 / 2) / 10

def round3 (v : ℚ) : ℚ := truncate (v * 1000 + 1 / 2) / 1000

/-- The average of a bucket or a group, zero for an empty one. -/
def Aggregate.avgDurationMS (agg : Aggregate) : ℚ :=
  round1 (if 0 < agg.count then agg.durationMS / agg.count else 0)

/-- The errors of the endpoints: 500 for a failed query, 400 for the others. -/
inductive AggregationError where
  | queryFailed (msg : GoString)
  | tooManyBuckets (bucket totalBuckets : ℤ)
  | unknownDimension (dimension : GoString)
  deriving DecidableEq, Repr

section
variable (query : QueryFilter → Except GoString (List Event))
  (parseTime : GoString → Option Time) (q : Values) (now : Time)

/-- The one query of every endpoint. -/
def queryWindow : Except AggregationError (List Event) :=
  (query (timeWindow parseTime q now).1).mapError .queryFailed

/-! ### Timeseries -/

structure BucketOut where
  time : Time
  count : ℕ
  errors : ℕ
  avgDurationMS : ℚ
  deriving DecidableEq, Repr

structure Timeseries where
  fromTime : Time
  toTime : Time
  bucketSeconds : ℤ
  buckets : List BucketOut
  deriving DecidableEq, Repr

def totalBuckets (bucket from' to' : ℤ) : ℤ :=
  let n := (timeSub to' from').tdiv (bucket * second) + 1
  if n < 1 then 1 else n

/-- The bucket of an event, if it has one. -/
def bucketOf (bucket from' to' : ℤ) (ev : Event) : Option ℕ :=
  if ev.timestamp < from' ∨ ¬ ev.timestamp < to' then none
  else
    let idx := (timeSub ev.timestamp from').tdiv (bucket * second)
    if idx < 0 ∨ totalBuckets bucket from' to' ≤ idx then none else some idx.toNat

/-- `auditTimeseries`. -/
def auditTimeseries : Except AggregationError Timeseries := do
  let (_, from', to') := timeWindow parseTime q now
  let bucket := bucketSeconds q
  let events ← queryWindow query parseTime q now
  let total := totalBuckets bucket from' to'
  if 10000 < total then throw (.tooManyBuckets bucket total)
  let aggs := fill Aggregate.add (bucketOf bucket from' to') events
    (List.replicate total.toNat {})
  return {
    fromTime := from'
    toTime := to'
    bucketSeconds := bucket
    buckets := aggs.mapIdx fun i agg =>
      ⟨from' + i * (bucket * second), agg.count, agg.errors, agg.avgDurationMS⟩ }

/-! ### Breakdown -/

/-- A key that falls back to a label when it is blank. -/
def orElse (key fallback : GoString) : GoString := if key = [] then fallback else key

/-- `breakdownKeyFn`. -/
def breakdownKeyFn (dimension : GoString) : Option (Event → GoString) :=
  if dimension = lit "endpoint_group" then some fun ev => orElse ev.endpointGroup (lit "(unknown)")
  else if dimension = lit "route_name" then some fun ev => orElse ev.routeName (lit "(unknown)")
  else if dimension = lit "status" then some fun ev => itoa ev.status
  else if dimension = lit "auth_type" then
    some fun ev => orElse ev.authType (lit "(unauthenticated)")
  else if dimension = lit "user" then
    some fun ev => orElse ev.userEmail (orElse ev.userSubject
      (if ev.apiKeyName = [] then lit "(anonymous)" else lit "key:" ++ ev.apiKeyName))
  else none

structure GroupOut where
  key : GoString
  count : ℕ
  errors : ℕ
  avgDurationMS : ℚ
  deriving DecidableEq, Repr

structure Breakdown where
  fromTime : Time
  toTime : Time
  dimension : GoString
  groups : List GroupOut
  deriving DecidableEq, Repr

/-- Count descending, then key ascending. -/
def groupLe (a b : GroupOut) : Prop := b.count < a.count ∨ (a.count = b.count ∧ a.key ≤ b.key)

instance : DecidableRel groupLe := fun _ _ => inferInstanceAs (Decidable (_ ∨ _))

/-- `top`: 20 unless the parameter is in 1..200. -/
def breakdownTop : ℕ :=
  let v := (atoi (q.get (lit "top"))).1
  if 0 < v ∧ v ≤ 200 then v.toNat else 20

/-- The groups of a list of events, all of them. -/
def breakdownGroups (key : Event → GoString) (events : List Event) : List GroupOut :=
  ((groups Aggregate.add {} key events).map fun (k, agg) =>
    ⟨k, agg.count, agg.errors, agg.avgDurationMS⟩).insertionSort groupLe

/-- `auditBreakdown`. -/
def auditBreakdown : Except AggregationError Breakdown := do
  let dimension := orElse (q.get (lit "dimension")) (lit "endpoint_group")
  let some key := breakdownKeyFn dimension | throw (.unknownDimension dimension)
  let (_, from', to') := timeWindow parseTime q now
  let events ← queryWindow query parseTime q now
  return {
    fromTime := from'
    toTime := to'
    dimension := dimension
    groups := (breakdownGroups key events).take (breakdownTop q) }

/-! ### Stats -/

structure Stats where
  fromTime : Time
  toTime : Time
  total : ℕ
  errors : ℕ
  success : ℕ
  errorRate : ℚ
  p50 : ℤ
  p95 : ℤ
  p99 : ℤ
  deriving DecidableEq, Repr

/-- `percentile` of a sorted list. -/
def percentile (sorted : List ℤ) (p : ℚ) : ℤ :=
  if sorted = [] then 0
  else
    let idx := truncate (((sorted.length : ℤ) - 1 : ℤ) * p)
    let idx := if idx < 0 then 0 else idx
    let idx := if sorted.length ≤ idx then (sorted.length : ℤ) - 1 else idx
    sorted.getD idx.toNat 0

/-- `total`, `errs` and `durations` of the loop over the events. -/
def statsLoop (events : List Event) : ℕ × ℕ × List ℤ :=
  events.foldl (fun (total, errs, durations) ev =>
    (total + 1, if ev.success then errs else errs + 1, durations ++ [ev.durationMS])) (0, 0, [])

/-- `auditStats`. -/
def auditStats : Except AggregationError Stats := do
  let (_, from', to') := timeWindow parseTime q now
  let events ← queryWindow query parseTime q now
  let (total, errs, durations) := statsLoop events
  let durations := durations.insertionSort (· ≤ ·)
  return {
    fromTime := from'
    toTime := to'
    total := total
    errors := errs
    success := total - errs
    errorRate := round3 (if 0 < total then errs / total else 0)
    p50 := percentile durations (50 / 100)
    p95 := percentile durations (95 / 100)
    p99 := percentile durations (99 / 100) }

end

end ApiTest.Portal
