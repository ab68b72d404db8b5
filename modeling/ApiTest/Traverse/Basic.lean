import Mathlib.Data.List.Basic

/-! Lists mapped by a function that may have no result: the whole has a result if each
element has one, and then it is the list of these. -/

namespace ApiTest.Traverse

variable {α β γ : Type*} {f : α → Option β} {l : List α} {r : List β}

theorem mapM_eq_some : l.mapM f = some r ↔ l.map f = r.map some := by
  induction l generalizing r with
  | nil => cases r <;> simp
  | cons a l ih =>
    rw [List.mapM_cons]
    cases hf : f a with
    | none => cases r <;> simp [hf]
    | some b =>
      cases hl : l.mapM f with
      | none =>
        cases r with
        | nil => simp
        | cons c r =>
          have hne : l.map f ≠ r.map some := fun h => by
            rw [ih.mpr h] at hl
            cases hl
          simp [hne]
      | some r' =>
        have hr' : l.map f = r'.map some := ih.mp hl
        cases r with
        | nil => simp
        | cons c r =>
          simp only [Option.pure_def, Option.bind_eq_bind, Option.bind_some, Option.some.injEq,
            List.cons.injEq, List.map_cons, hf, hr']
          exact and_congr_right fun _ => (List.map_inj_right fun _ _ h => Option.some.inj h).symm

theorem isSome_mapM : (l.mapM f).isSome ↔ ∀ a ∈ l, (f a).isSome := by
  induction l with
  | nil => simp
  | cons a l ih =>
    rw [List.mapM_cons, List.forall_mem_cons, ← ih]
    cases f a with
    | none => simp
    | some b => cases l.mapM f <;> simp

/-- What holds of each result in terms of its argument holds of the lists. -/
theorem map_of_mapM (h : l.mapM f = some r) {g : β → γ} {g' : α → γ}
    (hg : ∀ a ∈ l, ∀ b, f a = some b → g b = g' a) : r.map g = l.map g' := by
  induction l generalizing r with
  | nil =>
    cases r with
    | nil => rfl
    | cons b r => simp at h
  | cons a l ih =>
    rw [mapM_eq_some] at h
    cases r with
    | nil => simp at h
    | cons b r =>
      rw [List.map_cons, List.map_cons, List.cons.injEq] at h
      rw [List.forall_mem_cons] at hg
      rw [List.map_cons, List.map_cons, hg.1 b h.1, ih (mapM_eq_some.mpr h.2) hg.2]

theorem exists_of_mem_mapM (h : l.mapM f = some r) {b : β} (hb : b ∈ r) :
    ∃ a ∈ l, f a = some b := by
  have hmem : some b ∈ l.map f := by
    rw [mapM_eq_some.mp h]
    exact List.mem_map_of_mem hb
  exact List.mem_map.mp hmem

theorem length_of_mapM (h : l.mapM f = some r) : l.length = r.length := by
  simpa using congrArg List.length (mapM_eq_some.mp h)

/-- Each element stands beside its result. -/
theorem exists_mem_zip (h : l.mapM f = some r) {a : α} (ha : a ∈ l) :
    ∃ b, f a = some b ∧ (a, b) ∈ l.zip r := by
  obtain ⟨i, hi, rfl⟩ := List.mem_iff_getElem.mp ha
  have hlength := length_of_mapM h
  refine ⟨r[i], ?_, List.mem_iff_getElem.mpr ⟨i, by simp; omega, by simp⟩⟩
  simpa [hi, hlength ▸ hi] using congrArg (·[i]?) (mapM_eq_some.mp h)

/-- What is equivalent for each element and its result is so for all of them. -/
theorem forall_mapM (h : l.mapM f = some r) {p : α → Prop} {q : β → Prop}
    (hpq : ∀ a ∈ l, ∀ b, f a = some b → (q b ↔ p a)) : (∀ b ∈ r, q b) ↔ ∀ a ∈ l, p a := by
  constructor
  · intro hq a ha
    obtain ⟨b, hb, hzip⟩ := exists_mem_zip h ha
    exact (hpq a ha b hb).mp (hq b (List.of_mem_zip hzip).2)
  · intro hp b hb
    obtain ⟨a, ha, hf⟩ := exists_of_mem_mapM h hb
    exact (hpq a ha b hf).mpr (hp a ha)

end ApiTest.Traverse
