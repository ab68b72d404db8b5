import Mathlib.Data.List.Sort
import ApiTest.Audit.Event

/-! The in-memory logger: `Query` and `Count` over the list of logged events.
`sort.Slice` is not stable, but its order decides every pair of rows with
different IDs, so on a store with unique IDs every sort gives this list. The
results here are the specification the portal handlers rely on: a query is a
slice of the sorted matching rows, and the sorted rows depend only on which
events match. -/

namespace ApiTest.Audit

open Text

/-! ### Row order -/

/-- `ts DESC, id ASC`. -/
def rowLe (a b : Event) : Prop :=
  b.timestamp < a.timestamp ∨ (a.timestamp = b.timestamp ∧ a.id ≤ b.id)

instance : DecidableRel rowLe := fun _ _ => inferInstanceAs (Decidable (_ ∨ _))

instance : Std.Total rowLe where
  total a b := by
    unfold rowLe
    rcases lt_trichotomy a.timestamp b.timestamp with h | h | h
    · exact .inr (.inl h)
    · rcases le_total a.id b.id with hid | hid
      · exact .inl (.inr ⟨h, hid⟩)
      · exact .inr (.inr ⟨h.symm, hid⟩)
    · exact .inl (.inl h)

theorem rowLe_trans {a b c : Event} (hab : rowLe a b) (hbc : rowLe b c) : rowLe a c := by
  rcases hab with hab | ⟨hab, hid⟩ <;> rcases hbc with hbc | ⟨hbc, hid'⟩
  · exact .inl (hbc.trans hab)
  · exact .inl (hbc ▸ hab)
  · exact .inl (hab ▸ hbc)
  · exact .inr ⟨hab.trans hbc, hid.trans hid'⟩

instance : IsTrans Event rowLe := ⟨fun _ _ _ => rowLe_trans⟩

theorem id_eq_of_rowLe {a b : Event} (hab : rowLe a b) (hba : rowLe b a) : a.id = b.id := by
  rcases hab with hab | ⟨hab, hid⟩ <;> rcases hba with hba | ⟨hba, hid'⟩
  · exact absurd hba hab.asymm
  · exact absurd hab (by rw [hba]; exact lt_irrefl _)
  · exact absurd hba (by rw [hab]; exact lt_irrefl _)
  · exact le_antisymm hid hid'

/-- No two events of the store share an ID. -/
def UniqueIDs (events : List Event) : Prop := (events.map Event.id).Nodup

instance : DecidablePred UniqueIDs := fun _ => inferInstanceAs (Decidable (List.Nodup _))

theorem UniqueIDs.eq_of_id {events : List Event} (h : UniqueIDs events) {a b : Event}
    (ha : a ∈ events) (hb : b ∈ events) (hid : a.id = b.id) : a = b :=
  List.inj_on_of_nodup_map h ha hb hid

theorem UniqueIDs.sublist {events sub : List Event} (h : UniqueIDs events)
    (hs : sub.Sublist events) : UniqueIDs sub := List.Nodup.sublist (hs.map _) h

theorem UniqueIDs.perm {events events' : List Event} (h : UniqueIDs events)
    (hp : events.Perm events') : UniqueIDs events' := (hp.map _).nodup_iff.mp h

theorem UniqueIDs.concat {events : List Event} {ev : Event} (h : UniqueIDs events)
    (hev : ev.id ∉ events.map Event.id) : UniqueIDs (events ++ [ev]) := by
  rw [UniqueIDs, List.map_append, List.map_singleton, List.nodup_append_comm]
  exact List.nodup_cons.mpr ⟨hev, h⟩

/-- The rows of a store in the order every backend returns them. -/
def sorted (events : List Event) : List Event := events.insertionSort rowLe

theorem sorted_perm (events : List Event) : (sorted events).Perm events :=
  List.perm_insertionSort _ _

@[simp] theorem mem_sorted {events : List Event} {ev : Event} :
    ev ∈ sorted events ↔ ev ∈ events := (sorted_perm events).mem_iff

@[simp] theorem length_sorted (events : List Event) : (sorted events).length = events.length :=
  (sorted_perm events).length_eq

theorem sorted_pairwise (events : List Event) : (sorted events).Pairwise rowLe :=
  List.pairwise_insertionSort _ _

/-- Sorting has one result on unique IDs. -/
theorem eq_sorted {events rows : List Event} (hu : UniqueIDs events) (hp : rows.Perm events)
    (hs : rows.Pairwise rowLe) : rows = sorted events := by
  refine List.Perm.eq_of_pairwise ?_ hs (sorted_pairwise events) (hp.trans (sorted_perm events).symm)
  intro a b ha hb hab hba
  exact hu.eq_of_id (hp.mem_iff.mp ha) (mem_sorted.mp hb) (id_eq_of_rowLe hab hba)

/-- Sorting and selecting commute. -/
theorem filter_sorted {events : List Event} (hu : UniqueIDs events) (p : Event → Bool) :
    (sorted events).filter p = sorted (events.filter p) :=
  eq_sorted (hu.sublist List.filter_sublist) ((sorted_perm events).filter p)
    ((sorted_pairwise events).filter p)

/-- A new event enters the sorted rows at its place and moves no other row. -/
theorem sorted_append {events : List Event} {ev : Event} (hu : UniqueIDs (events ++ [ev])) :
    sorted (events ++ [ev]) = (sorted events).orderedInsert rowLe ev := by
  refine (eq_sorted hu ?_ ((sorted_pairwise events).orderedInsert ev _)).symm
  refine (List.perm_orderedInsert _ _ _).trans ?_
  exact ((sorted_perm events).cons ev).trans (List.perm_append_singleton _ _).symm

/-! ### Query and Count -/

section Filter
variable [UnicodeCase]

/-- `matchesFilter`, one conjunct for each field that is set. -/
def matchesFilter (ev : Event) (f : QueryFilter) : Bool :=
  (f.eventID = [] || ev.id = f.eventID) &&
  (f.method = [] || ev.method = f.method) &&
  (f.path = [] || ev.path = f.path) &&
  (f.routeName = [] || ev.routeName = f.routeName) &&
  (f.userID = [] || ev.userSubject = f.userID) &&
  (f.sessionID = [] || ev.sessionID = f.sessionID) &&
  (f.status = 0 || ev.status = f.status) &&
  (f.fromTime = 0 || f.fromTime ≤ ev.timestamp) &&
  (f.toTime = 0 || ev.timestamp ≤ f.toTime) &&
  (match f.success with | none => true | some want => ev.success = want) &&
  (f.search = [] || contains (toLower ev.path) (toLower f.search) ||
    contains (toLower ev.errorMessage) (toLower f.search))

theorem matchesFilter_iff {ev : Event} {f : QueryFilter} :
    matchesFilter ev f = true ↔
      (f.eventID = [] ∨ ev.id = f.eventID) ∧ (f.method = [] ∨ ev.method = f.method) ∧
      (f.path = [] ∨ ev.path = f.path) ∧ (f.routeName = [] ∨ ev.routeName = f.routeName) ∧
      (f.userID = [] ∨ ev.userSubject = f.userID) ∧ (f.sessionID = [] ∨ ev.sessionID = f.sessionID) ∧
      (f.status = 0 ∨ ev.status = f.status) ∧ (f.fromTime = 0 ∨ f.fromTime ≤ ev.timestamp) ∧
      (f.toTime = 0 ∨ ev.timestamp ≤ f.toTime) ∧ (∀ want, f.success = some want → ev.success = want) ∧
      (f.search = [] ∨ contains (toLower ev.path) (toLower f.search) = true ∨
        contains (toLower ev.errorMessage) (toLower f.search) = true) := by
  simp only [matchesFilter, Bool.and_eq_true, Bool.or_eq_true, decide_eq_true_eq, and_assoc, or_assoc]
  cases f.success <;> simp

/-- `matchAll`: the matching events in row order, without limit and offset. -/
def matchAll (events : List Event) (f : QueryFilter) : List Event :=
  sorted (events.filter (matchesFilter · f))

/-- The offset a backend uses. -/
def clampOffset (f : QueryFilter) : ℕ := (if f.offset < 0 then 0 else f.offset).toNat

/-- The limit a backend uses: 100 by default, at most `maxQueryLimit`. -/
def clampLimit (f : QueryFilter) : ℕ :=
  let limit := if f.limit ≤ 0 then 100 else f.limit
  (if maxQueryLimit < limit then (maxQueryLimit : ℤ) else limit).toNat

/-- `MemoryLogger.Query`. -/
def query (events : List Event) (f : QueryFilter) : List Event :=
  let out := matchAll events f
  if out.length ≤ clampOffset f then []
  else
    let out := out.drop (clampOffset f)
    if clampLimit f < out.length then out.take (clampLimit f) else out

/-- `MemoryLogger.Count`. -/
def count (events : List Event) (f : QueryFilter) : ℕ := (matchAll events f).length

/-- A query is a slice of the sorted matching rows. -/
theorem query_eq (events : List Event) (f : QueryFilter) :
    query events f = ((matchAll events f).drop (clampOffset f)).take (clampLimit f) := by
  unfold query
  dsimp only
  split_ifs with hoff hlim
  · rw [List.drop_eq_nil_of_le hoff, List.take_nil]
  · rfl
  · rw [List.take_of_length_le (by omega)]

theorem matchAll_uniqueIDs {events : List Event} (hu : UniqueIDs events) (f : QueryFilter) :
    UniqueIDs (matchAll events f) :=
  (hu.sublist List.filter_sublist).perm (sorted_perm _).symm

theorem matchAll_append_of_matches {events : List Event} {ev : Event} {f : QueryFilter}
    (hu : UniqueIDs (events ++ [ev])) (h : matchesFilter ev f = true) :
    matchAll (events ++ [ev]) f = (matchAll events f).orderedInsert rowLe ev := by
  have hfilter : (events ++ [ev]).filter (matchesFilter · f) =
      events.filter (matchesFilter · f) ++ [ev] := by simp [h]
  rw [matchAll, matchAll, hfilter, sorted_append (hfilter ▸ hu.sublist List.filter_sublist)]

theorem matchAll_append_of_not_matches {events : List Event} {ev : Event} {f : QueryFilter}
    (h : matchesFilter ev f = false) : matchAll (events ++ [ev]) f = matchAll events f := by
  simp [matchAll, h]

theorem mem_matchAll {events : List Event} {f : QueryFilter} {ev : Event} :
    ev ∈ matchAll events f ↔ ev ∈ events ∧ matchesFilter ev f = true := by
  rw [matchAll, mem_sorted, List.mem_filter]

end Filter

/-! ### Time windows -/

/-- The events stamped inside the closed window, newest first. -/
def window (events : List Event) (lo hi : Time) : List Event :=
  sorted (events.filter fun ev => lo ≤ ev.timestamp && ev.timestamp ≤ hi)

theorem mem_window {events : List Event} {lo hi : Time} {ev : Event} :
    ev ∈ window events lo hi ↔ ev ∈ events ∧ lo ≤ ev.timestamp ∧ ev.timestamp ≤ hi := by
  simp [window]

theorem window_descending (events : List Event) (lo hi : Time) :
    (window events lo hi).Pairwise fun a b => b.timestamp ≤ a.timestamp := by
  refine (sorted_pairwise _).imp fun {a b} hab => ?_
  rcases hab with h | h
  · exact h.le
  · exact h.1.ge

theorem window_uniqueIDs {events : List Event} (hu : UniqueIDs events) (lo hi : Time) :
    UniqueIDs (window events lo hi) :=
  (hu.sublist List.filter_sublist).perm (sorted_perm _).symm

/-- Lowering the upper end of a window drops its newer rows. -/
theorem filter_window {events : List Event} (hu : UniqueIDs events) {lo hi c : Time}
    (hc : c ≤ hi) :
    (window events lo hi).filter (fun ev => ev.timestamp ≤ c) = window events lo c := by
  rw [window, filter_sorted (hu.sublist List.filter_sublist), List.filter_filter, window]
  congr 1
  apply List.filter_congr
  intro ev _
  by_cases h : ev.timestamp ≤ c
  · simp [h, h.trans hc]
  · simp [h]

/-- The in-memory `Query` on a filter with two time bounds and nothing else. A
bound at Go's zero time counts as absent there. -/
theorem query_window [UnicodeCase] (events : List Event) {lo hi : Time} (hlo : lo ≠ 0)
    (hhi : hi ≠ 0) :
    query events { fromTime := lo, toTime := hi, limit := maxQueryLimit } =
      (window events lo hi).take maxQueryLimit := by
  rw [query_eq]
  have hmatch : matchAll events { fromTime := lo, toTime := hi, limit := maxQueryLimit } =
      window events lo hi := by
    simp [matchAll, window, matchesFilter, hlo, hhi]
  rw [hmatch]
  rfl

/-! ### A burst of requests -/

/-- A burst of `m` events, a nanosecond apart, the first of them stamped `2`. -/
def burst (m : ℕ) : List Event :=
  (List.range m).map fun i => { id := List.replicate i 0x61, timestamp := i + 2 }

theorem burst_uniqueIDs (m : ℕ) : UniqueIDs (burst m) := by
  rw [UniqueIDs, burst, List.map_map, List.nodup_map_iff_inj_on List.nodup_range]
  intro i _ j _ hij
  simpa using congrArg List.length hij

theorem one_lt_of_mem_burst {m : ℕ} {ev : Event} (h : ev ∈ burst m) :
    1 < ev.timestamp ∧ ev.timestamp ≤ m + 1 := by
  obtain ⟨i, hi, rfl⟩ := List.mem_map.mp h
  have := List.mem_range.mp hi
  exact ⟨show (1 : ℤ) < i + 2 by omega, show (i : ℤ) + 2 ≤ m + 1 by omega⟩

theorem burst_strict (m : ℕ) :
    (burst m).reverse.Pairwise fun a b => b.timestamp < a.timestamp := by
  rw [List.pairwise_reverse, burst, List.pairwise_map]
  refine List.pairwise_lt_range.imp fun {i j} hij => ?_
  show (i : ℤ) + 2 < j + 2
  omega

theorem sorted_burst (m : ℕ) : sorted (burst m) = (burst m).reverse :=
  (eq_sorted (burst_uniqueIDs m) (List.reverse_perm _) ((burst_strict m).imp .inl)).symm

theorem window_burst (m : ℕ) : window (burst m) 1 (m + 1) = (burst m).reverse := by
  have hall : (burst m).filter (fun ev => 1 ≤ ev.timestamp && ev.timestamp ≤ (m : ℤ) + 1) =
      burst m := by
    rw [List.filter_eq_self]
    intro ev hev
    simpa using ⟨(one_lt_of_mem_burst hev).1.le, (one_lt_of_mem_burst hev).2⟩
  rw [window, hall, sorted_burst]

end ApiTest.Audit
