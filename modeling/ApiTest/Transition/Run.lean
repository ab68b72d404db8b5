import Mathlib.Data.List.Basic

/-! Finite runs of a partial step function, the form every interleaving of this
development takes: a state, a type of actions, and a step that is `none` when
the action is not enabled. The rules below lift one-step facts to whole runs,
with or without a guard that each step of the run has to meet. -/

namespace ApiTest.Transition

variable {σ α : Type*}

/-- Perform the actions in order; `none` as soon as one is not enabled. -/
def run (step : σ → α → Option σ) : σ → List α → Option σ
  | s, [] => some s
  | s, a :: as => (step s a).bind fun t => run step t as

/-- Every action of the list meets the guard in the state it is taken in. -/
def Meets (step : σ → α → Option σ) (guard : σ → α → Prop) : σ → List α → Prop
  | _, [] => True
  | s, a :: as => guard s a ∧ ∀ t, step s a = some t → Meets step guard t as

variable {step : σ → α → Option σ} {s t u : σ} {a : α} {as bs : List α}

theorem meets_cons {guard : σ → α → Prop} (h : step s a = some t) :
    Meets step guard s (a :: as) ↔ guard s a ∧ Meets step guard t as := by
  rw [Meets, h]
  simp

/-- A guard that can be tested can be tested along a run. -/
instance decidableMeets (step : σ → α → Option σ) (guard : σ → α → Prop)
    [∀ s a, Decidable (guard s a)] : ∀ s as, Decidable (Meets step guard s as)
  | _, [] => isTrue trivial
  | s, a :: as =>
    match h : step s a with
    | none => decidable_of_iff (guard s a) (by simp [Meets, h])
    | some t =>
      have := decidableMeets step guard t as
      decidable_of_iff (guard s a ∧ Meets step guard t as) (meets_cons h).symm

@[simp] theorem run_nil : run step s [] = some s := rfl

theorem run_cons : run step s (a :: as) = some u ↔
    ∃ t, step s a = some t ∧ run step t as = some u := Option.bind_eq_some_iff

theorem run_append : run step s (as ++ bs) = some u ↔
    ∃ t, run step s as = some t ∧ run step t bs = some u := by
  induction as generalizing s with
  | nil => simp
  | cons a as ih =>
    rw [List.cons_append, run_cons]
    constructor
    · rintro ⟨m, hm, h⟩
      obtain ⟨t, ht, hb⟩ := ih.mp h
      exact ⟨t, run_cons.mpr ⟨m, hm, ht⟩, hb⟩
    · rintro ⟨t, ht, hb⟩
      obtain ⟨m, hm, ha⟩ := run_cons.mp ht
      exact ⟨m, hm, ih.mpr ⟨t, ha, hb⟩⟩

/-- A reflexive and transitive relation that holds across every step holds
across every run. -/
theorem run_relation (R : σ → σ → Prop) (hrefl : ∀ s, R s s)
    (htrans : ∀ s t u, R s t → R t u → R s u)
    (hstep : ∀ s a t, step s a = some t → R s t)
    (h : run step s as = some t) : R s t := by
  induction as generalizing s with
  | nil => cases h; exact hrefl _
  | cons a as ih =>
    obtain ⟨m, hm, hr⟩ := run_cons.mp h
    exact htrans s m t (hstep s a m hm) (ih hr)

/-- What every step preserves, every run preserves. -/
theorem run_invariant (inv : σ → Prop)
    (hstep : ∀ s a t, inv s → step s a = some t → inv t)
    (h : run step s as = some t) (hs : inv s) : inv t := by
  refine run_relation (fun s t => inv s → inv t) (fun _ => id) ?_ ?_ h hs
  · intro s t u hst htu hs
    exact htu (hst hs)
  · intro s a t ht hs
    exact hstep s a t hs ht

/-- What every guarded step preserves, every run of guarded steps preserves. -/
theorem run_invariant_of_meets (inv : σ → Prop) {guard : σ → α → Prop}
    (hstep : ∀ s a t, guard s a → inv s → step s a = some t → inv t)
    (h : run step s as = some t) (hg : Meets step guard s as) (hs : inv s) : inv t := by
  induction as generalizing s with
  | nil => cases h; exact hs
  | cons a as ih =>
    obtain ⟨m, hm, hr⟩ := run_cons.mp h
    exact ih hr (hg.2 m hm) (hstep s a m hg.1 hs hm)

/-- What every step with an allowed action preserves, every run of such actions preserves. -/
theorem run_invariant_of_forall (inv : σ → Prop) (allowed : α → Prop)
    (hstep : ∀ s a t, allowed a → inv s → step s a = some t → inv t)
    (h : run step s as = some t) (has : ∀ a ∈ as, allowed a) (hs : inv s) : inv t := by
  induction as generalizing s with
  | nil => cases h; exact hs
  | cons a as ih =>
    obtain ⟨m, hm, hr⟩ := run_cons.mp h
    rw [List.forall_mem_cons] at has
    exact ih hr has.2 (hstep s a m has.1 hs hm)

/-- A run of actions that each lower a measure is no longer than the measure it starts with. -/
theorem run_measure (inv : σ → Prop) (μ : σ → ℕ) (allowed : α → Prop)
    (hstep : ∀ s a t, allowed a → inv s → step s a = some t → inv t ∧ μ t + 1 ≤ μ s)
    (h : run step s as = some t) (has : ∀ a ∈ as, allowed a) (hs : inv s) :
    inv t ∧ as.length + μ t ≤ μ s := by
  induction as generalizing s with
  | nil =>
    cases h
    simpa using hs
  | cons a as ih =>
    obtain ⟨m, hm, hr⟩ := run_cons.mp h
    rw [List.forall_mem_cons] at has
    obtain ⟨hinv, hle⟩ := hstep s a m has.1 hs hm
    obtain ⟨hend, hlength⟩ := ih hr has.2 hinv
    refine ⟨hend, ?_⟩
    rw [List.length_cons]
    omega

/-- Induction along a run whose steps meet a guard, with the actions that led to each state. -/
theorem run_history_of_meets (P : List α → σ → Prop) {guard : σ → α → Prop} (hnil : P [] s)
    (hstep : ∀ xs t a u, run step s xs = some t → guard t a → P xs t → step t a = some u →
      P (xs ++ [a]) u)
    (h : run step s as = some t) (hg : Meets step guard s as) : P as t := by
  -- the actions before the current state are carried along
  have hprefix : ∀ (as xs : List α) (m : σ), run step s xs = some m → Meets step guard m as →
      P xs m → run step m as = some t → P (xs ++ as) t := by
    intro as
    induction as with
    | nil =>
      intro xs m _ _ hP hrun
      cases hrun
      rwa [List.append_nil]
    | cons a as ih =>
      intro xs m hm hg hP hrun
      obtain ⟨u, hu, hrest⟩ := run_cons.mp hrun
      have hu' : run step s (xs ++ [a]) = some u :=
        run_append.mpr ⟨m, hm, run_cons.mpr ⟨u, hu, rfl⟩⟩
      have hfinal := ih (xs ++ [a]) u hu' (hg.2 u hu) (hstep xs m a u hm hg.1 hP hu) hrest
      rwa [List.append_assoc, List.singleton_append] at hfinal
  exact hprefix as [] s rfl hg hnil h

theorem meets_true : ∀ (as : List α) (s : σ), Meets step (fun _ _ => True) s as
  | [], _ => trivial
  | _ :: as, _ => ⟨trivial, fun t _ => meets_true as t⟩

/-- Induction along a run, with the actions that led to each state. -/
theorem run_history (P : List α → σ → Prop) (hnil : P [] s)
    (hstep : ∀ xs t a u, run step s xs = some t → P xs t → step t a = some u → P (xs ++ [a]) u)
    (h : run step s as = some t) : P as t :=
  run_history_of_meets P hnil (fun xs t a u hxs _ => hstep xs t a u hxs) h (meets_true as s)

/-- A run that does not meet its guard has a first action that breaks it. -/
theorem exists_of_not_meets {guard : σ → α → Prop} (h : run step s as = some u)
    (hg : ¬ Meets step guard s as) :
    ∃ xs a ys t, as = xs ++ a :: ys ∧ run step s xs = some t ∧ Meets step guard s xs ∧
      run step t (a :: ys) = some u ∧ ¬ guard t a := by
  induction as generalizing s with
  | nil => exact absurd trivial hg
  | cons a as ih =>
    by_cases ha : guard s a
    · obtain ⟨m, hm, hr⟩ := run_cons.mp h
      have hrest : ¬ Meets step guard m as := fun hm' => hg ((meets_cons hm).mpr ⟨ha, hm'⟩)
      obtain ⟨xs, b, ys, t, hsplit, ht, hxs, hys, hb⟩ := ih hr hrest
      exact ⟨a :: xs, b, ys, t, by rw [hsplit]; rfl, run_cons.mpr ⟨m, hm, ht⟩,
        (meets_cons hm).mpr ⟨ha, hxs⟩, hys, hb⟩
    · exact ⟨[], a, as, s, rfl, rfl, trivial, h, ha⟩

end ApiTest.Transition
