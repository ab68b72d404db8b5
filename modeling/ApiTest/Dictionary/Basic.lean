import Mathlib.Data.List.Nodup

/-! Maps as association lists with distinct keys. Writing an entry replaces the one
of its key in place or adds one at the end; the order of the list stands for some
iteration order. -/

namespace ApiTest.Dictionary

variable {κ ν : Type*} [DecidableEq κ]

/-- `m[k] = v`. -/
def assign (m : List (κ × ν)) (k : κ) (v : ν) : List (κ × ν) :=
  if k ∈ m.map Prod.fst then m.map fun e => if e.1 = k then (k, v) else e else m ++ [(k, v)]

theorem mem_assign {m : List (κ × ν)} {k : κ} {v : ν} {e : κ × ν} :
    e ∈ assign m k v ↔ e = (k, v) ∨ e ∈ m ∧ e.1 ≠ k := by
  unfold assign
  split_ifs with hk
  · obtain ⟨old, hold, rfl⟩ := List.mem_map.mp hk
    rw [List.mem_map]
    constructor
    · rintro ⟨e', he', rfl⟩
      split_ifs with heq
      · exact Or.inl rfl
      · exact Or.inr ⟨he', heq⟩
    · rintro (rfl | ⟨he, hne⟩)
      · exact ⟨old, hold, if_pos rfl⟩
      · exact ⟨e, he, if_neg hne⟩
  · rw [List.mem_append, List.mem_singleton, or_comm]
    refine or_congr_right ⟨fun he => ⟨he, ?_⟩, And.left⟩
    rintro rfl
    exact hk (List.mem_map_of_mem he)

theorem keys_assign (m : List (κ × ν)) (k : κ) (v : ν) :
    (assign m k v).map Prod.fst =
      if k ∈ m.map Prod.fst then m.map Prod.fst else m.map Prod.fst ++ [k] := by
  unfold assign
  split_ifs with hk
  · rw [List.map_map]
    refine List.map_congr_left fun e _ => ?_
    simp only [Function.comp_apply]
    split_ifs with he
    · exact he.symm
    · rfl
  · simp

theorem nodup_assign {m : List (κ × ν)} (h : (m.map Prod.fst).Nodup) (k : κ) (v : ν) :
    ((assign m k v).map Prod.fst).Nodup := by
  rw [keys_assign]
  split_ifs with hk
  · exact h
  · rw [← List.concat_eq_append]
    exact h.concat hk

variable [BEq κ] [LawfulBEq κ]

omit [DecidableEq κ] in
/-- The entries of a map are what it is looked up for. -/
theorem mem_iff_lookup {m : List (κ × ν)} (h : (m.map Prod.fst).Nodup) {k : κ} {v : ν} :
    (k, v) ∈ m ↔ m.lookup k = some v := by
  induction m with
  | nil => simp
  | cons e m ih =>
    obtain ⟨k', v'⟩ := e
    rw [List.map_cons, List.nodup_cons] at h
    rw [List.mem_cons, List.lookup_cons, Prod.mk.injEq]
    by_cases hk : k = k'
    · subst hk
      have hout : (k, v) ∉ m := fun hmem => h.1 (List.mem_map.mpr ⟨_, hmem, rfl⟩)
      simp [hout, eq_comm]
    · rw [beq_false_of_ne hk]
      simp [hk, ih h.2]

theorem lookup_assign {m : List (κ × ν)} (h : (m.map Prod.fst).Nodup) (k k' : κ) (v : ν) :
    (assign m k v).lookup k' = if k' = k then some v else m.lookup k' := by
  refine Option.ext fun w => ?_
  rw [← mem_iff_lookup (nodup_assign h k v), mem_assign]
  split_ifs with hk
  · simp [hk, eq_comm]
  · simp [hk, mem_iff_lookup h]

end ApiTest.Dictionary
