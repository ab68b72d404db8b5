import Mathlib.Data.List.Sort

/-! Sorting by a comparison. A sort that is not stable may leave elements that compare
equal in any order, so its result is one of several; all that is known of it is that
it has the same elements and that none comes after one it is less than. Where any two
elements of the list compare, the result is the same for every algorithm and for every
order the list came in. -/

namespace ApiTest.Sorting

variable {α : Type*} {less : α → α → Prop} {l l' out out' : List α}

/-- `out` is a result of sorting `l`. -/
structure Sorts (less : α → α → Prop) (l out : List α) : Prop where
  perm : out.Perm l
  ordered : out.Pairwise fun a b => ¬ less b a

theorem Sorts.unique (h : Sorts less l out) (h' : Sorts less l' out') (hl : l.Perm l')
    (hless : ∀ a ∈ l, ∀ b ∈ l, ¬ less a b → ¬ less b a → a = b) : out = out' := by
  refine List.Perm.eq_of_pairwise ?_ h.ordered h'.ordered (h.perm.trans (hl.trans h'.perm.symm))
  intro a b ha hb hba hab
  exact hless a (h.perm.mem_iff.mp ha) b (hl.mem_iff.mpr (h'.perm.mem_iff.mp hb)) hab hba

/-- What is cut off is not less than what is kept. -/
theorem Sorts.not_less_of_cut (h : Sorts less l out) {n : ℕ} {a b : α} (ha : a ∈ out.take n)
    (hb : b ∈ out.drop n) : ¬ less b a := by
  have hsplit := h.ordered
  rw [← List.take_append_drop n out, List.pairwise_append] at hsplit
  exact hsplit.2.2 a ha b hb

end ApiTest.Sorting
