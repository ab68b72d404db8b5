import ApiTest.Portal.AggregationTotals
import ApiTest.Sorting.Slice
import ApiTest.Text.Decimal

/-! The groups of `auditBreakdown`. They are collected in a Go map, which is walked in
any order, and sorted by a sort that is not stable. Their keys are distinct, so the
comparison puts any two of them in order, and neither the walk nor the sort nor the
order of the events can be told from the answer. -/

namespace ApiTest.Portal

open Text Audit Tally Sorting

/-- The comparison `auditBreakdown` sorts by. -/
def groupLess (a b : GroupOut) : Prop :=
  if a.count ≠ b.count then b.count < a.count else a.key < b.key

/-- The row of a group. -/
def groupOut (g : GoString × Aggregate) : GroupOut :=
  ⟨g.1, g.2.count, g.2.errors, g.2.avgDurationMS⟩

/-- The rows the handler may answer with: the map is walked in some order, and the rows
are one result of sorting. -/
def BreakdownAnswer (key : Event → GoString) (top : ℕ) (events : List Event)
    (answer : List GroupOut) : Prop :=
  ∃ (walk : List (GoString × Aggregate)) (out : List GroupOut),
    walk.Perm (groups Aggregate.add {} key events) ∧
    Sorts groupLess (walk.map groupOut) out ∧ answer = out.take top

/-- The row of a key. -/
def rowOf (key : Event → GoString) (events : List Event) (k : GoString) : GroupOut :=
  groupOut (k, tallyOf (events.filter fun ev => key ev = k))

/-- The rows are those of the first keys, and they are in order. -/
structure TopGroups (key : Event → GoString) (top : ℕ) (events : List Event)
    (answer : List GroupOut) : Prop where
  distinct : (answer.map GroupOut.key).Nodup
  tallied : ∀ g ∈ answer, g.key ∈ events.map key ∧ g = rowOf key events g.key
  sorted : answer.Pairwise groupLess
  first : ∀ g ∈ answer, ∀ k ∈ events.map key, k ∉ answer.map GroupOut.key →
    groupLess g (rowOf key events k)
  atMost : answer.length ≤ top
  all_of_few : answer.length < top → ∀ k ∈ events.map key, k ∈ answer.map GroupOut.key

/-! ### The comparison -/

theorem not_groupLess_of_groupLe {a b : GroupOut} (h : groupLe a b) : ¬ groupLess b a := by
  unfold groupLess
  rcases h with h | ⟨hcount, hkey⟩
  · rw [if_pos h.ne]
    omega
  · rw [if_neg (not_not.mpr hcount.symm)]
    exact not_lt.mpr hkey

/-- Two rows with different keys are in order, one way or the other. -/
theorem groupLess_or {a b : GroupOut} (h : a.key ≠ b.key) : groupLess a b ∨ groupLess b a := by
  unfold groupLess
  by_cases hcount : a.count = b.count
  · rw [if_neg (not_not.mpr hcount), if_neg (not_not.mpr hcount.symm)]
    exact lt_or_gt_of_ne h
  · rw [if_pos hcount, if_pos (Ne.symm hcount)]
    exact (lt_or_gt_of_ne hcount).symm

instance : Std.Total groupLe where
  total a b := by
    unfold groupLe
    rcases lt_trichotomy a.count b.count with h | h | h
    · exact Or.inr (Or.inl h)
    · exact (le_total a.key b.key).imp (fun hk => Or.inr ⟨h, hk⟩) fun hk => Or.inr ⟨h.symm, hk⟩
    · exact Or.inl (Or.inl h)

instance : IsTrans GroupOut groupLe where
  trans a b c hab hbc := by
    unfold groupLe at *
    rcases hab with hab | ⟨hab, hkab⟩ <;> rcases hbc with hbc | ⟨hbc, hkbc⟩
    · exact Or.inl (hbc.trans hab)
    · exact Or.inl (hbc ▸ hab)
    · exact Or.inl (hab ▸ hbc)
    · exact Or.inr ⟨hab.trans hbc, hkab.trans hkbc⟩

/-! ### The groups -/

theorem tallyOf_perm {events events' : List Event} (h : events.Perm events') :
    tallyOf events = tallyOf events' := by
  rw [tallyOf, tallyOf, h.length_eq, h.countP_eq, (h.map _).sum_eq]

section Groups
variable {key : Event → GoString} {events events' : List Event}

theorem mem_eventGroups {k : GoString} {agg : Aggregate} :
    (k, agg) ∈ groups Aggregate.add {} key events ↔
      k ∈ events.map key ∧ agg = tallyOf (events.filter fun ev => key ev = k) := by
  rw [mem_groups, foldl_add]

theorem nodup_eventGroups : ((groups Aggregate.add {} key events).map Prod.fst).Nodup :=
  (keys_groups_perm Aggregate.add {} key events).nodup_iff.mpr (List.nodup_dedup _)

/-- The order of the events does not matter to the groups. -/
theorem groups_perm (h : events.Perm events') :
    (groups Aggregate.add {} key events).Perm (groups Aggregate.add {} key events') := by
  rw [List.perm_ext_iff_of_nodup nodup_eventGroups.of_map nodup_eventGroups.of_map]
  rintro ⟨k, agg⟩
  rw [mem_eventGroups, mem_eventGroups, (h.map key).mem_iff, tallyOf_perm (h.filter _)]

theorem map_key_groupOut (walk : List (GoString × Aggregate)) :
    (walk.map groupOut).map GroupOut.key = walk.map Prod.fst := by
  rw [List.map_map]
  rfl

theorem mem_map_groupOut {walk : List (GoString × Aggregate)}
    (hwalk : walk.Perm (groups Aggregate.add {} key events)) {g : GroupOut} :
    g ∈ walk.map groupOut ↔ g.key ∈ events.map key ∧ g = rowOf key events g.key := by
  rw [List.mem_map]
  constructor
  · rintro ⟨⟨k, agg⟩, hmem, rfl⟩
    obtain ⟨hk, rfl⟩ := mem_eventGroups.mp (hwalk.mem_iff.mp hmem)
    exact ⟨hk, rfl⟩
  · rintro ⟨hk, hg⟩
    exact ⟨(g.key, _), hwalk.mem_iff.mpr (mem_eventGroups.mpr ⟨hk, rfl⟩), hg.symm⟩

/-- What the walk and the sort leave open is not seen in the answer. -/
theorem BreakdownAnswer.unique {top : ℕ} {answer answer' : List GroupOut}
    (h : BreakdownAnswer key top events answer) (h' : BreakdownAnswer key top events' answer')
    (hperm : events.Perm events') : answer = answer' := by
  obtain ⟨walk, out, hwalk, hsorts, rfl⟩ := h
  obtain ⟨walk', out', hwalk', hsorts', rfl⟩ := h'
  have hwalks : walk.Perm walk' := hwalk.trans ((groups_perm hperm).trans hwalk'.symm)
  rw [hsorts.unique hsorts' (hwalks.map groupOut)]
  intro a ha b hb hab hba
  obtain ⟨-, hrow⟩ := (mem_map_groupOut hwalk).mp ha
  obtain ⟨-, hrow'⟩ := (mem_map_groupOut hwalk).mp hb
  have hkey : a.key = b.key := by
    by_contra hne
    exact (groupLess_or hne).elim hab hba
  rw [hrow, hrow', hkey]

theorem BreakdownAnswer.topGroups {top : ℕ} {answer : List GroupOut}
    (h : BreakdownAnswer key top events answer) : TopGroups key top events answer := by
  obtain ⟨walk, out, hwalk, hsorts, rfl⟩ := h
  have hmem : ∀ g, g ∈ out ↔ g.key ∈ events.map key ∧ g = rowOf key events g.key := fun g =>
    hsorts.perm.mem_iff.trans (mem_map_groupOut hwalk)
  have hnodup : (out.map GroupOut.key).Nodup := by
    rw [(hsorts.perm.map _).nodup_iff, map_key_groupOut, (hwalk.map _).nodup_iff]
    exact nodup_eventGroups
  -- the rows of different keys compare, so those in order are strictly so
  have hstrict : out.Pairwise groupLess := by
    have hne : out.Pairwise fun a b => a.key ≠ b.key := List.pairwise_map.mp hnodup
    exact (hsorts.ordered.and hne).imp fun ⟨hnot, hkey⟩ => (groupLess_or hkey).resolve_right hnot
  have hrow : ∀ k ∈ events.map key, rowOf key events k ∈ out := fun k hk =>
    (hmem _).mpr ⟨hk, rfl⟩
  have hsplit : ∀ k ∈ events.map key, k ∉ (out.take top).map GroupOut.key →
      rowOf key events k ∈ out.drop top := by
    intro k hk hnot
    have hk' := hrow k hk
    rw [← List.take_append_drop top out, List.mem_append] at hk'
    exact hk'.resolve_left fun hleft => hnot (List.mem_map.mpr ⟨_, hleft, rfl⟩)
  refine ⟨?_, fun g hg => (hmem g).mp (List.mem_of_mem_take hg),
    hstrict.sublist (List.take_sublist _ _), ?_, List.length_take_le _ _, ?_⟩
  · exact hnodup.sublist ((List.take_sublist _ _).map _)
  · intro g hg k hk hnot
    have hne : g.key ≠ k := fun heq => hnot (List.mem_map.mpr ⟨g, hg, heq⟩)
    exact (groupLess_or hne).resolve_right (hsorts.not_less_of_cut hg (hsplit k hk hnot))
  · intro hfew k hk
    by_contra hnot
    have hdrop := hsplit k hk hnot
    rw [List.length_take] at hfew
    rw [List.drop_of_length_le (by omega)] at hdrop
    cases hdrop

/-- The answer of the model is one of those. -/
theorem breakdownAnswer_model (top : ℕ) :
    BreakdownAnswer key top events ((breakdownGroups key events).take top) := by
  refine ⟨groups Aggregate.add {} key events, breakdownGroups key events, .refl _, ⟨?_, ?_⟩, rfl⟩
  · exact breakdownGroups_perm key events
  · exact (List.pairwise_insertionSort groupLe _).imp not_groupLess_of_groupLe

end Groups

/-! ### The endpoint -/

theorem breakdownTop_bounds (q : Values) : 1 ≤ breakdownTop q ∧ breakdownTop q ≤ 200 := by
  unfold breakdownTop
  dsimp only
  split_ifs <;> omega

/-- A numeral from 1 to 200 is taken as it is. -/
theorem breakdownTop_of_itoa {q : Values} {n : ℕ} (hlow : 1 ≤ n) (hhigh : n ≤ 200)
    (h : q.get (lit "top") = itoa n) : breakdownTop q = n := by
  have hint : IsInt n := ⟨by omega, by omega⟩
  unfold breakdownTop
  rw [h, atoi_itoa hint]
  dsimp only
  rw [if_pos (by omega), Int.toNat_natCast]

theorem breakdownTop_default {q : Values}
    (h : ¬ (1 ≤ (atoi (q.get (lit "top"))).1 ∧ (atoi (q.get (lit "top"))).1 ≤ 200)) :
    breakdownTop q = 20 := if_neg h

section Breakdown
variable (query : QueryFilter → Except GoString (List Event))
  (parseTime : GoString → Option Time) (q : Values) (now : Time)

end Breakdown

/-- Three requests, two of them of one group. -/
def groupedEvents : List Event :=
  [{ endpointGroup := lit "data" }, { endpointGroup := lit "echo" }, { endpointGroup := lit "data" }]

end ApiTest.Portal
