import ApiTest.Net.ServeMux
import Mathlib.Data.List.Pairwise

/-! Precedence in the mux. The comparison of two patterns is antisymmetric, and
it is never `disjoint` for two patterns that match one request. Since registered
patterns do not conflict, of two that match a request one is the more specific,
and a pattern that no other matching pattern beats is the one that is served. -/

namespace ApiTest.Net

open ApiTest.Text

/-! ### Antisymmetry -/

/-- The relationship seen from the other pattern. -/
def Relationship.inverse : Relationship → Relationship
  | .moreGeneral => .moreSpecific
  | .moreSpecific => .moreGeneral
  | r => r

@[simp] theorem inverse_inverse (r : Relationship) : r.inverse.inverse = r := by
  cases r <;> rfl

@[simp] theorem inverse_eq_disjoint {r : Relationship} : r.inverse = .disjoint ↔ r = .disjoint := by
  cases r <;> simp [Relationship.inverse]

theorem combine_inverse (r t : Relationship) :
    (r.combine t).inverse = r.inverse.combine t.inverse := by
  cases r <;> cases t <;> rfl

theorem combine_ne_disjoint {r t : Relationship} (hr : r ≠ .disjoint) (ht : t ≠ .disjoint) :
    r.combine t ≠ .disjoint := by
  cases r <;> cases t <;> simp_all [Relationship.combine]

theorem compareSegments_inverse (s t : Segment) :
    compareSegments t s = (compareSegments s t).inverse := by
  cases s <;> cases t <;> simp only [compareSegments, Relationship.inverse]
  · split_ifs with h h' h'
    · rfl
    · exact absurd h.symm h'
    · exact absurd h'.symm h
    · rfl
  · split_ifs <;> rfl
  · split_ifs <;> rfl

theorem comparePathsFrom_inverse (multi₁ multi₂ : Bool) (rel : Relationship)
    (segs₁ segs₂ : List Segment) :
    comparePathsFrom multi₂ multi₁ rel.inverse segs₂ segs₁ =
      (comparePathsFrom multi₁ multi₂ rel segs₁ segs₂).inverse := by
  induction segs₁ generalizing rel segs₂ with
  | nil =>
    cases segs₂ with
    | nil => rfl
    | cons t segs₂ =>
      simp only [comparePathsFrom]
      rw [apply_ite Relationship.inverse, combine_inverse]
      rfl
  | cons s segs₁ ih =>
    cases segs₂ with
    | nil =>
      simp only [comparePathsFrom]
      rw [apply_ite Relationship.inverse, combine_inverse]
      rfl
    | cons t segs₂ =>
      simp only [comparePathsFrom]
      rw [compareSegments_inverse s t, ← combine_inverse, ih, apply_ite Relationship.inverse]
      simp only [inverse_eq_disjoint]
      rfl

theorem comparePaths_inverse (p q : Pattern) : q.comparePaths p = (p.comparePaths q).inverse := by
  unfold Pattern.comparePaths
  have hloop := comparePathsFrom_inverse p.lastMulti q.lastMulti .equivalent p.segments q.segments
  rw [apply_ite Relationship.inverse, ← hloop]
  apply if_congr _ rfl rfl
  rw [ne_comm]
  tauto

theorem compareMethods_inverse (p q : Pattern) :
    q.compareMethods p = (p.compareMethods q).inverse := by
  have hget : lit "GET" ≠ lit "HEAD" := by decide
  unfold Pattern.compareMethods
  by_cases heq : p.method = q.method
  · rw [if_pos heq, if_pos heq.symm]
    rfl
  · rw [if_neg heq, if_neg (Ne.symm heq)]
    split_ifs <;> grind [Relationship.inverse]

theorem comparePathsAndMethods_inverse (p q : Pattern) :
    q.comparePathsAndMethods p = (p.comparePathsAndMethods q).inverse := by
  unfold Pattern.comparePathsAndMethods
  rw [compareMethods_inverse p q, comparePaths_inverse p q, ← combine_inverse,
    apply_ite Relationship.inverse]
  simp only [inverse_eq_disjoint]
  rfl

theorem conflictsWith_comm (p q : Pattern) : p.conflictsWith q = q.conflictsWith p := by
  unfold Pattern.conflictsWith
  rw [comparePathsAndMethods_inverse p q, Bool.beq_comm]
  cases p.comparePathsAndMethods q <;> rfl

/-! ### Patterns that match one request -/

/-- A multi wildcard ends a pattern. -/
def MultiLast : List Segment → Prop
  | [] => True
  | .literal _ :: rest => MultiLast rest
  | .wild _ :: rest => MultiLast rest
  | .multi _ :: rest => rest = []

/-- Parsed patterns have their multi wildcard at the end. -/
theorem multiLast_of_parseSegments [WildcardNames] {seen parts : List GoString}
    {segments : List Segment} (h : parseSegments seen parts = some segments) :
    MultiLast segments := by
  induction parts generalizing seen segments with
  | nil =>
    cases h
    trivial
  | cons part rest ih =>
    rw [parseSegments] at h
    split_ifs at h with hlast hbrace
    · cases h
      rfl
    · split at h
      next => cases h
      next s hs =>
        obtain ⟨segments', hrest, rfl⟩ := Option.map_eq_some_iff.mp h
        cases s with
        | literal t => exact (ih hrest : MultiLast segments')
        | wild name => exact (ih hrest : MultiLast segments')
        | multi name =>
          -- `{name...}` is accepted on the last part only
          have hend : rest = [] := by
            simp only [parseWildcard] at hs
            split_ifs at hs <;> simp_all
          subst hend
          cases hrest
          rfl
    · obtain ⟨segments', hrest, rfl⟩ := Option.map_eq_some_iff.mp h
      exact (ih hrest : MultiLast segments')

theorem multiLast_of_parsePattern [WildcardNames] {s : GoString} {p : Pattern}
    (h : parsePattern s = some p) : MultiLast p.segments := by
  simp only [parsePattern] at h
  split_ifs at h
  obtain ⟨segments, hsegments, rfl⟩ := Option.map_eq_some_iff.mp h
  exact multiLast_of_parseSegments hsegments

/-- The last segment of the list is a multi wildcard. -/
def endsMulti (segments : List Segment) : Bool :=
  match segments.getLast? with
  | some (.multi _) => true
  | _ => false

theorem lastMulti_eq (p : Pattern) : p.lastMulti = endsMulti p.segments := rfl

theorem endsMulti_cons {s : Segment} {segs : List Segment} (h : segs ≠ []) :
    endsMulti (s :: segs) = endsMulti segs := by
  unfold endsMulti
  rw [List.getLast?_cons_of_ne_nil h]

theorem endsMulti_tail {s : Segment} {segs : List Segment} (h : endsMulti (s :: segs) = false) :
    endsMulti segs = false := by
  by_cases hne : segs = []
  · rw [hne]
    rfl
  · rwa [endsMulti_cons hne] at h

/-- A matching segment is the multi wildcard at the end, or the rest matches the
rest of the path. -/
theorem matchesPath_cons {s : Segment} {segs : List Segment} {q : GoString} {qs : List GoString}
    (hwf : MultiLast (s :: segs)) (h : matchesPath (s :: segs) (q :: qs)) :
    segs = [] ∧ endsMulti (s :: segs) = true ∨ MultiLast segs ∧ matchesPath segs qs := by
  cases s with
  | literal t =>
    simp only [matchesPath, Bool.and_eq_true] at h
    exact Or.inr ⟨hwf, h.2⟩
  | wild name =>
    simp only [matchesPath, Bool.and_eq_true] at h
    exact Or.inr ⟨hwf, h.2⟩
  | multi name =>
    have hend : segs = [] := hwf
    subst hend
    exact Or.inl ⟨rfl, rfl⟩

/-- Without a multi wildcard each segment takes one segment of the path. -/
theorem length_of_matchesPath {segs : List Segment} {qs : List GoString} (hwf : MultiLast segs)
    (hmulti : endsMulti segs = false) (h : matchesPath segs qs) : segs.length = qs.length := by
  induction segs generalizing qs with
  | nil =>
    cases qs with
    | nil => rfl
    | cons q qs => cases h
  | cons s segs ih =>
    cases qs with
    | nil => cases s <;> cases h
    | cons q qs =>
      rcases matchesPath_cons hwf h with ⟨-, hends⟩ | ⟨hwf', hrest⟩
      · rw [hends] at hmulti
        cases hmulti
      · rw [List.length_cons, List.length_cons, ih hwf' (endsMulti_tail hmulti) hrest]

/-- Once one side is exhausted by its multi wildcard, the loop cannot end in
`disjoint`. -/
theorem comparePathsFrom_nil_left {rel : Relationship} (hrel : rel ≠ .disjoint) (multi₂ : Bool)
    (segs : List Segment) : comparePathsFrom true multi₂ rel [] segs ≠ .disjoint := by
  cases segs with
  | nil => exact hrel
  | cons t segs => exact combine_ne_disjoint hrel (by decide)

theorem comparePathsFrom_nil_right {rel : Relationship} (hrel : rel ≠ .disjoint) (multi₁ : Bool)
    (segs : List Segment) : comparePathsFrom multi₁ true rel segs [] ≠ .disjoint := by
  cases segs with
  | nil => exact hrel
  | cons t segs => exact combine_ne_disjoint hrel (by decide)

/-- Segments that match the same segment of a path are not disjoint. -/
theorem compareSegments_ne_disjoint {s t : Segment} {q : GoString} {qs : List GoString}
    {segs₁ segs₂ : List Segment} (h₁ : matchesPath (s :: segs₁) (q :: qs))
    (h₂ : matchesPath (t :: segs₂) (q :: qs)) : compareSegments s t ≠ .disjoint := by
  cases s <;> cases t <;>
    simp only [matchesPath, Bool.and_eq_true, beq_iff_eq, bne_iff_ne] at h₁ h₂ <;>
    simp only [compareSegments] <;> grind

/-- Two paths that match the same segments are not disjoint. -/
theorem comparePathsFrom_ne_disjoint {multi₁ multi₂ : Bool} {rel : Relationship}
    {segs₁ segs₂ : List Segment} {qs : List GoString} (hrel : rel ≠ .disjoint)
    (hwf₁ : MultiLast segs₁) (hwf₂ : MultiLast segs₂)
    (hend₁ : segs₁ ≠ [] → multi₁ = endsMulti segs₁) (hend₂ : segs₂ ≠ [] → multi₂ = endsMulti segs₂)
    (h₁ : matchesPath segs₁ qs) (h₂ : matchesPath segs₂ qs) :
    comparePathsFrom multi₁ multi₂ rel segs₁ segs₂ ≠ .disjoint := by
  induction segs₁ generalizing rel segs₂ qs with
  | nil =>
    cases qs with
    | nil =>
      cases segs₂ with
      | nil => exact hrel
      | cons t segs₂ => cases t <;> cases h₂
    | cons q qs => cases h₁
  | cons s segs₁ ih =>
    cases qs with
    | nil => cases s <;> cases h₁
    | cons q qs =>
      cases segs₂ with
      | nil => cases h₂
      | cons t segs₂ =>
        have hnext := combine_ne_disjoint hrel (compareSegments_ne_disjoint h₁ h₂)
        rw [comparePathsFrom]
        simp only [if_neg hnext]
        rcases matchesPath_cons hwf₁ h₁ with ⟨rfl, hends⟩ | ⟨hwf₁', hrest₁⟩
        · rw [hend₁ (by simp), hends]
          exact comparePathsFrom_nil_left hnext _ _
        · rcases matchesPath_cons hwf₂ h₂ with ⟨rfl, hends⟩ | ⟨hwf₂', hrest₂⟩
          · rw [hend₂ (by simp), hends]
            exact comparePathsFrom_nil_right hnext _ _
          · apply ih hnext hwf₁' hwf₂' _ _ hrest₁ hrest₂
            · intro hne
              rw [hend₁ (by simp), endsMulti_cons hne]
            · intro hne
              rw [hend₂ (by simp), endsMulti_cons hne]

/-- Two patterns that accept one request are not disjoint. -/
theorem comparePathsAndMethods_ne_disjoint {p q : Pattern} {host method : GoString}
    {segments : List GoString} (hp : MultiLast p.segments) (hq : MultiLast q.segments)
    (hap : p.accepts host method segments) (haq : q.accepts host method segments) :
    p.comparePathsAndMethods q ≠ .disjoint := by
  simp only [Pattern.accepts, Bool.and_eq_true] at hap haq
  have hmethods : p.compareMethods q ≠ .disjoint := by
    have hmp := hap.1.2
    have hmq := haq.1.2
    simp only [Pattern.servesMethod, Bool.or_eq_true, Bool.and_eq_true, beq_iff_eq] at hmp hmq
    unfold Pattern.compareMethods
    split_ifs <;> grind
  have hpaths : p.comparePaths q ≠ .disjoint := by
    unfold Pattern.comparePaths
    split_ifs with hlength
    · -- two patterns of single segments have the length of the path
      simp only [lastMulti_eq, Bool.not_eq_true'] at hlength
      exact absurd ((length_of_matchesPath hp hlength.2.1 hap.2).trans
        (length_of_matchesPath hq hlength.2.2 haq.2).symm) hlength.1
    · exact comparePathsFrom_ne_disjoint (by decide) hp hq (fun _ => rfl) (fun _ => rfl) hap.2 haq.2
  unfold Pattern.comparePathsAndMethods
  rw [if_neg hmethods]
  exact combine_ne_disjoint hmethods hpaths

/-- Of two patterns on one host that accept one request and do not conflict, one
is the more specific. -/
theorem precedes_or_precedes {p q : Pattern} {host method : GoString} {segments : List GoString}
    (hp : MultiLast p.segments) (hq : MultiLast q.segments) (hhost : p.host = q.host)
    (hap : p.accepts host method segments) (haq : q.accepts host method segments)
    (hconflict : p.conflictsWith q = false) : p.precedes q ∨ q.precedes p := by
  have hne := comparePathsAndMethods_ne_disjoint hp hq hap haq
  have hinv := comparePathsAndMethods_inverse p q
  simp only [Pattern.conflictsWith, hhost, beq_self_eq_true, Bool.true_and] at hconflict
  simp only [Pattern.precedes, hhost, if_true]
  rw [hinv]
  cases hrel : p.comparePathsAndMethods q <;> simp_all [Relationship.inverse]

/-- A pattern for all hosts that accepts a request and is not beaten by another
match goes before it. -/
theorem precedes_of_not_beaten {p q : Pattern} {host method : GoString} {segments : List GoString}
    (hp : MultiLast p.segments) (hq : MultiLast q.segments) (hhost : p.host = [])
    (hap : p.accepts host method segments) (haq : q.accepts host method segments)
    (hconflict : p.conflictsWith q = false) (hbeaten : q.precedes p = false) : p.precedes q := by
  by_cases hsame : p.host = q.host
  · rcases precedes_or_precedes hp hq hsame hap haq hconflict with h | h
    · exact h
    · rw [h] at hbeaten
      cases hbeaten
  · rw [Pattern.precedes, if_neg (Ne.symm hsame), hhost] at hbeaten
    cases hbeaten

theorem precedes_asymm {p q : Pattern} (h : p.precedes q) : ¬ q.precedes p := by
  unfold Pattern.precedes at h ⊢
  by_cases hhost : p.host = q.host
  · rw [if_pos hhost, beq_iff_eq] at h
    rw [if_pos hhost.symm, comparePathsAndMethods_inverse p q, h]
    decide
  · rw [if_neg hhost, beq_iff_eq] at h
    rw [if_neg (Ne.symm hhost), beq_iff_eq]
    intro hp
    exact hhost (hp.trans h.symm)

/-! ### The served pattern -/

namespace ServeMux

variable {η : Type} {mux : ServeMux η}

theorem noConflict_of_mem {a b : Pattern × η} (ha : a ∈ mux.entries) (hb : b ∈ mux.entries)
    (hne : a ≠ b) : b.1.conflictsWith a.1 = false := by
  have hsymm : Std.Symm fun a b : Pattern × η => b.1.conflictsWith a.1 = false :=
    ⟨fun a b h => by rwa [conflictsWith_comm]⟩
  exact mux.noConflict.forall ha hb hne

/-- Two entries with one pattern are the same entry. -/
theorem entry_unique {a b : Pattern × η} (ha : a ∈ mux.entries) (hb : b ∈ mux.entries)
    (h : a.1 = b.1) : a = b := by
  by_contra hne
  have hconflict := noConflict_of_mem ha hb hne
  rw [h, conflictsWith_self] at hconflict
  cases hconflict

/-- An entry that matches and goes before every other match is the one found. -/
theorem find_eq_some {host method : GoString} {segments : List GoString} {e : Pattern × η}
    (hmem : e ∈ mux.entries) (haccepts : e.1.accepts host method segments)
    (hwins : ∀ f ∈ mux.entries, f.1.accepts host method segments →
      f.1 = e.1 ∨ e.1.precedes f.1) :
    mux.find host method segments = some e := by
  unfold find
  simp only
  set hits := mux.entries.filter fun f => f.1.accepts host method segments with hhits
  have hhit : e ∈ hits := List.mem_filter.mpr ⟨hmem, haccepts⟩
  have hfirst : hits.all (fun f => f.1 == e.1 || e.1.precedes f.1) := by
    rw [List.all_eq_true]
    intro f hf
    obtain ⟨hf, hfacc⟩ := List.mem_filter.mp hf
    simpa using hwins f hf hfacc
  cases hfind : hits.find? fun f => hits.all fun g => g.1 == f.1 || f.1.precedes g.1 with
  | none => exact absurd hfirst (by simpa using List.find?_eq_none.mp hfind e hhit)
  | some f =>
    have hfmem := (List.mem_filter.mp (List.mem_of_find?_eq_some hfind)).1
    have hfacc := (List.mem_filter.mp (List.mem_of_find?_eq_some hfind)).2
    have hffirst := List.find?_some hfind
    rw [List.all_eq_true] at hffirst
    have hfe := hffirst e hhit
    rw [Bool.or_eq_true, beq_iff_eq] at hfe
    -- of two entries that both go before the other, both have the same pattern
    have hsame : f.1 = e.1 := by
      rcases hwins f hfmem hfacc with hsame | hef
      · exact hsame
      · rcases hfe with hsame | hfe
        · exact hsame.symm
        · exact absurd hfe (precedes_asymm hef)
    rw [entry_unique hfmem hmem hsame]

/-- The mux answers with a redirect to the path with a slash added: a multi
wildcard matched more than the empty rest, and that path has an exact match. -/
def RedirectsToSlash (mux : ServeMux η) (p : Pattern) (r : Request) : Prop :=
  p.lastMulti = true ∧ r.escapedPath.getLast? ≠ some slash ∧
    (mux.find r.host r.method (requestSegments (r.escapedPath ++ [slash]))).any
      (·.1.exactMatch (r.escapedPath ++ [slash])) = true

instance (mux : ServeMux η) (p : Pattern) (r : Request) : Decidable (mux.RedirectsToSlash p r) :=
  inferInstanceAs (Decidable (_ ∧ _))

/-- Dispatch of a clean path to the entry found for it. -/
theorem dispatch_eq {r : Request} {e : Pattern × η} (hclean : cleanPath r.escapedPath = r.escapedPath)
    (hfind : mux.find r.host r.method (requestSegments r.escapedPath) = some e) :
    mux.dispatch r = if mux.RedirectsToSlash e.1 r then none else some e.2 := by
  simp only [dispatch, hclean, ne_eq, not_true_eq_false, if_false, hfind]
  apply if_congr _ rfl rfl
  unfold RedirectsToSlash
  constructor
  · rintro ⟨hexact, hslash, hany⟩
    refine ⟨?_, hslash, hany⟩
    by_contra hlast
    rw [Bool.not_eq_true] at hlast
    simp [Pattern.exactMatch, hlast] at hexact
  · rintro ⟨hlast, hslash, hany⟩
    refine ⟨?_, hslash, hany⟩
    simp [Pattern.exactMatch, hlast, hslash]

end ServeMux

end ApiTest.Net
