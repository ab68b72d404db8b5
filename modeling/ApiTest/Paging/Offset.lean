import Mathlib.Data.List.Sort

/-! Paging with an offset through sorted rows that grow. A new row enters at its
place in the order. Behind the first `k` rows it leaves them as they are; in
front of one of them it pushes a row that has been read back into what is still
to be read. What has not been read is never pushed out. -/

namespace ApiTest.Paging

variable {α : Type*} {r : α → α → Prop} [DecidableRel r] {rows : List α} {x : α} {k : ℕ}

/-- A row that sorts behind the first `k` rows leaves them alone. -/
theorem take_orderedInsert (hk : k ≤ rows.length) (h : ∀ b ∈ rows.take k, ¬ r x b) :
    (rows.orderedInsert r x).take k = rows.take k := by
  induction rows generalizing k with
  | nil =>
    rw [List.length_nil, Nat.le_zero] at hk
    rw [hk, List.take_zero, List.take_zero]
  | cons b rows ih =>
    cases k with
    | zero => rfl
    | succ k =>
      rw [List.take_succ_cons, List.forall_mem_cons] at h
      rw [List.orderedInsert_cons, if_neg h.1, List.take_succ_cons, List.take_succ_cons,
        ih (by simpa using hk) h.2]

/-- A row behind the offset stays behind it. -/
theorem mem_drop_orderedInsert {a : α} (h : a ∈ rows.drop k) :
    a ∈ (rows.orderedInsert r x).drop k := by
  induction rows generalizing k with
  | nil => simp at h
  | cons b rows ih =>
    rw [List.orderedInsert_cons]
    split_ifs
    · cases k with
      | zero => exact List.mem_cons_of_mem x h
      | succ k => exact List.mem_of_mem_drop (List.drop_drop ▸ h : a ∈ ((b :: rows).drop k).drop 1)
    · cases k with
      | zero =>
        rcases List.mem_cons.mp h with rfl | h
        · exact List.mem_cons_self
        · exact List.mem_cons_of_mem b (ih (k := 0) h)
      | succ k => exact ih h

/-- A row that sorts in front of one of the first `k` rows pushes one of them
behind the offset. -/
theorem exists_mem_drop_orderedInsert (hk : k ≤ rows.length) {b : α} (hb : b ∈ rows.take k)
    (hx : r x b) : ∃ c ∈ rows.take k, c ∈ (rows.orderedInsert r x).drop k := by
  induction rows generalizing k with
  | nil => simp at hb
  | cons d rows ih =>
    cases k with
    | zero => simp at hb
    | succ k =>
      rw [List.orderedInsert_cons]
      split_ifs with hd
      · have hlt : k < (d :: rows).length := hk
        refine ⟨(d :: rows)[k], ?_, ?_⟩
        · exact List.mem_take_iff_getElem.mpr ⟨k, by omega, rfl⟩
        · exact List.mem_drop_iff_getElem.mpr ⟨0, by simpa using hlt, by simp⟩
      · rw [List.take_succ_cons] at hb ⊢
        rcases List.mem_cons.mp hb with rfl | hb
        · exact absurd hx hd
        · obtain ⟨c, hc, hdrop⟩ := ih (Nat.le_of_succ_le_succ hk) hb
          exact ⟨c, List.mem_cons_of_mem d hc, hdrop⟩

end ApiTest.Paging
