import ApiTest.Net.Segments

/-! When a series of registrations goes through. The mux refuses a pattern it cannot read
and one that conflicts with an earlier one, so a series is accepted exactly if its patterns
can all be read and no two of them conflict; what is left of an accepted series when some
registrations are dropped is accepted as well. -/

namespace ApiTest.Net

open ApiTest.Text

variable {η : Type}

namespace ServeMux

section
variable [WildcardNames]

/-- A pattern can be registered on the mux. -/
def Admits (mux : ServeMux η) (pattern : GoString) : Prop :=
  ∃ p, parsePattern pattern = some p ∧ ∀ e ∈ mux.entries, p.conflictsWith e.1 = false

/-- Two patterns can be read and do not conflict. -/
def Compatible (earlier later : GoString) : Prop :=
  ∀ p q, parsePattern earlier = some p → parsePattern later = some q → q.conflictsWith p = false

theorem handle_of_admits {mux : ServeMux η} {pattern : GoString} (h : mux.Admits pattern)
    (handler : η) : ∃ mux', mux.handle pattern handler = some mux' := by
  obtain ⟨p, hp, hfree⟩ := h
  unfold handle
  simp only [hp]
  rw [dif_pos hfree]
  exact ⟨_, rfl⟩

theorem exists_handleAll {mux : ServeMux η} {mounts : List (GoString × η)}
    (hadmits : ∀ m ∈ mounts, mux.Admits m.1)
    (hpairs : (mounts.map Prod.fst).Pairwise Compatible) :
    ∃ mux', mux.handleAll mounts = some mux' := by
  induction mounts generalizing mux with
  | nil => exact ⟨mux, rfl⟩
  | cons m mounts ih =>
    rw [List.forall_mem_cons] at hadmits
    rw [List.map_cons, List.pairwise_cons] at hpairs
    obtain ⟨mux', hmux'⟩ := handle_of_admits hadmits.1 m.2
    obtain ⟨p, hp, hentries⟩ := handle_eq_some hmux'
    -- the pattern just registered is one more that the others must not conflict with
    have hadmits' : ∀ m' ∈ mounts, mux'.Admits m'.1 := by
      intro m' hm'
      obtain ⟨q, hq, hfree⟩ := hadmits.2 m' hm'
      refine ⟨q, hq, ?_⟩
      intro e he
      rw [hentries, List.mem_append, List.mem_singleton] at he
      obtain he | rfl := he
      · exact hfree e he
      · exact hpairs.1 m'.1 (List.mem_map_of_mem hm') p q hp hq
    obtain ⟨mux'', hmux''⟩ := ih hadmits' hpairs.2
    refine ⟨mux'', ?_⟩
    rw [handleAll, List.foldlM_cons, hmux']
    exact hmux''

/-- On an empty mux only the patterns themselves have to go together. -/
theorem exists_handleAll_empty {mounts : List (GoString × η)}
    (hreads : ∀ m ∈ mounts, (parsePattern m.1).isSome = true)
    (hpairs : (mounts.map Prod.fst).Pairwise Compatible) :
    ∃ mux, (empty : ServeMux η).handleAll mounts = some mux := by
  refine exists_handleAll ?_ hpairs
  intro m hm
  obtain ⟨p, hp⟩ := Option.isSome_iff_exists.mp (hreads m hm)
  exact ⟨p, hp, by simp [empty]⟩

end

end ServeMux

/-! ### Names -/

section
variable [WildcardNames]

/-- The wildcards of the segments have names that are allowed. -/
def AllowedNames (segments : List Segment) : Prop :=
  ∀ s ∈ segments, ∀ name ∈ s.names, name ≠ [] → WildcardNames.valid name = true

theorem parseWildcard_of_allNames {seen : List GoString} {last : Bool} {part : GoString}
    {s : Segment} (h : @parseWildcard allNames seen last part = some s)
    (hnames : ∀ name ∈ s.names, name ≠ [] → WildcardNames.valid name = true) :
    parseWildcard seen last part = some s := by
  simp only [parseWildcard] at h ⊢
  split_ifs at h with hends hend hlast hmulti hbad hname <;> cases h
  · rw [if_neg hends, if_pos hend, if_pos hlast]
  · rw [if_neg hends, if_neg hend, if_pos hmulti, if_neg]
    rintro (hlast | hnil | hvalid | hseen)
    · exact hbad (Or.inl hlast)
    · exact hbad (Or.inr (Or.inl hnil))
    · rw [hnames _ (List.mem_singleton_self _) fun hnil => hbad (Or.inr (Or.inl hnil))] at hvalid
      cases hvalid
    · exact hbad (Or.inr (Or.inr (Or.inr hseen)))
  · rw [if_neg hends, if_neg hend, if_neg hmulti, if_neg]
    rintro (hnil | hvalid | hseen)
    · exact hname (Or.inl hnil)
    · rw [hnames _ (List.mem_singleton_self _) fun hnil => hname (Or.inl hnil)] at hvalid
      cases hvalid
    · exact hname (Or.inr (Or.inr hseen))

theorem parseSegments_of_allNames {parts seen : List GoString} {segments : List Segment}
    (h : @parseSegments allNames seen parts = some segments) (hnames : AllowedNames segments) :
    parseSegments seen parts = some segments := by
  induction parts generalizing seen segments with
  | nil => exact h
  | cons part parts ih =>
    unfold parseSegments at h ⊢
    split_ifs at h ⊢ with hend hbrace
    · exact h
    · split at h
      next => cases h
      next s hs =>
        obtain ⟨segs, hsegs, rfl⟩ := Option.map_eq_some_iff.mp h
        obtain ⟨hfirst, hrest⟩ := List.forall_mem_cons.mp hnames
        simp only [parseWildcard_of_allNames hs hfirst, ih hsegs hrest, Option.map_some]
    · obtain ⟨segs, hsegs, rfl⟩ := Option.map_eq_some_iff.mp h
      rw [ih hsegs (List.forall_mem_cons.mp hnames).2, Option.map_some]

/-- A pattern that is read when every name is allowed is read when its own names are. -/
theorem parsePattern_of_allNames {s : GoString} {p : Pattern}
    (h : @parsePattern allNames s = some p) (hnames : AllowedNames p.segments) :
    parsePattern s = some p := by
  unfold parsePattern at h ⊢
  dsimp only at h ⊢
  split_ifs at h ⊢
  obtain ⟨segments, hsegments, rfl⟩ := Option.map_eq_some_iff.mp h
  rw [parseSegments_of_allNames hsegments hnames, Option.map_some]

end

end ApiTest.Net
