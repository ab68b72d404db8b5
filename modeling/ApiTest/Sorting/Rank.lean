import Mathlib.Data.List.Sort

/-! Ranks. In a sorted list the element at an index is bounded from above exactly by
what at least that many elements and itself are bounded by, and from below likewise,
so it is known from counting alone. -/

namespace ApiTest.Sorting

variable {α : Type*} [LinearOrder α] {l : List α}

/-- A predicate that passes to smaller elements holds at an index of a sorted list if
and only if it holds of more elements than the index. -/
theorem lt_countP_iff (h : l.Pairwise (· ≤ ·)) {p : α → Bool}
    (hp : ∀ a b, a ≤ b → p b = true → p a = true) {i : ℕ} (hi : i < l.length) :
    i < l.countP p ↔ p l[i] = true := by
  induction l generalizing i with
  | nil => exact absurd hi (Nat.not_lt_zero i)
  | cons a l ih =>
    rw [List.pairwise_cons] at h
    by_cases ha : p a = true
    · rw [List.countP_cons_of_pos ha]
      cases i with
      | zero => simp [ha]
      | succ i => simpa using ih h.2 (Nat.lt_of_succ_lt_succ hi)
    · -- nothing behind `a` has it either
      have hnone : ∀ b ∈ l, ¬ p b = true := fun b hb hpb => ha (hp a b (h.1 b hb) hpb)
      rw [List.countP_cons_of_neg ha, List.countP_eq_zero.mpr hnone]
      cases i with
      | zero => simp [ha]
      | succ i => simpa using hnone _ (List.getElem_mem _)

theorem lt_countP_le_iff (h : l.Pairwise (· ≤ ·)) {i : ℕ} (hi : i < l.length) (d : α) :
    i < l.countP (· ≤ d) ↔ l[i] ≤ d := by
  rw [lt_countP_iff h (fun a b hab hb => by simpa using hab.trans (by simpa using hb)) hi,
    decide_eq_true_eq]

theorem countP_lt_le_iff (h : l.Pairwise (· ≤ ·)) {i : ℕ} (hi : i < l.length) (d : α) :
    l.countP (· < d) ≤ i ↔ d ≤ l[i] := by
  rw [← not_lt, lt_countP_iff h (fun a b hab hb => by simpa using hab.trans_lt (by simpa using hb)) hi,
    decide_eq_true_eq, not_lt]

end ApiTest.Sorting
