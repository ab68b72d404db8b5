import Mathlib.Algebra.Order.Group.Nat
import Mathlib.Algebra.Ring.Nat
import Mathlib.Algebra.BigOperators.Group.List.Basic
import Mathlib.Data.List.Dedup
import Mathlib.Data.List.Induction

/-! Tallying a list: into groups under a key, in the order in which the keys first
appear, and into numbered slots. An aggregate is any type with a step that adds
one item. The results are about a measure of aggregates that every added item
raises by one: its sum over the groups is the number of items, and its sum over
the slots is the number of items that have a slot. -/

namespace ApiTest.Tally

variable {α β κ : Type*} [DecidableEq κ] (add : β → α → β)

/-- Add an item to the group of its key; a new key starts a group at the end. -/
def upsert (init : β) (k : κ) (a : α) : List (κ × β) → List (κ × β)
  | [] => [(k, add init a)]
  | (k', b) :: gs => if k' = k then (k', add b a) :: gs else (k', b) :: upsert init k a gs

/-- The groups of a list. -/
def groups (init : β) (key : α → κ) (xs : List α) : List (κ × β) :=
  xs.foldl (fun gs a => upsert add init (key a) a gs) []

/-- Add the items to their slots, those without a slot to none. -/
def fill (slot : α → Option ℕ) (xs : List α) (bs : List β) : List β :=
  xs.foldl (fun bs a => match slot a with
    | some i => bs.modify i (add · a)
    | none => bs) bs

variable {add} {init : β} {key : α → κ} {k : κ} {a : α} {gs : List (κ × β)}

/-! ### Keys -/

theorem mem_keys_upsert {j : κ} :
    j ∈ (upsert add init k a gs).map Prod.fst ↔ j = k ∨ j ∈ gs.map Prod.fst := by
  induction gs with
  | nil => simp [upsert]
  | cons g gs ih =>
    obtain ⟨k', b⟩ := g
    by_cases hk : k' = k
    · subst hk
      rw [upsert, if_pos rfl, List.map_cons, List.map_cons, List.mem_cons]
      exact or_self_left.symm
    · simp only [upsert, if_neg hk, List.map_cons, List.mem_cons, ih]
      exact or_left_comm

theorem nodup_keys_upsert (h : (gs.map Prod.fst).Nodup) :
    ((upsert add init k a gs).map Prod.fst).Nodup := by
  induction gs with
  | nil => simp [upsert]
  | cons g gs ih =>
    obtain ⟨k', b⟩ := g
    rw [List.map_cons, List.nodup_cons] at h
    by_cases hk : k' = k
    · simpa only [upsert, if_pos hk, List.map_cons, List.nodup_cons] using h
    · simp only [upsert, if_neg hk, List.map_cons, List.nodup_cons]
      refine ⟨fun hmem => ?_, ih h.2⟩
      rcases mem_keys_upsert.mp hmem with heq | hmem
      · exact hk heq
      · exact h.1 hmem

/-- There is one group for each key. -/
theorem keys_groups_perm (add : β → α → β) (init : β) (key : α → κ) (xs : List α) :
    ((groups add init key xs).map Prod.fst).Perm (xs.map key).dedup := by
  -- the keys of the fold are distinct and are those seen so far
  have hfold : ∀ gs : List (κ × β), (gs.map Prod.fst).Nodup →
      ((xs.foldl (fun gs a => upsert add init (key a) a gs) gs).map Prod.fst).Nodup ∧
      ∀ j, j ∈ (xs.foldl (fun gs a => upsert add init (key a) a gs) gs).map Prod.fst ↔
        j ∈ xs.map key ∨ j ∈ gs.map Prod.fst := by
    induction xs with
    | nil => exact fun gs h => ⟨h, fun j => by simp⟩
    | cons a xs ih =>
      intro gs h
      obtain ⟨hnodup, hmem⟩ := ih (upsert add init (key a) a gs) (nodup_keys_upsert h)
      refine ⟨hnodup, fun j => ?_⟩
      rw [List.foldl_cons, hmem, mem_keys_upsert, List.map_cons, List.mem_cons, or_left_comm,
        or_assoc]
  obtain ⟨hnodup, hmem⟩ := hfold [] List.nodup_nil
  refine (List.perm_ext_iff_of_nodup hnodup (List.nodup_dedup _)).mpr fun j => ?_
  rw [hmem, List.mem_dedup]
  simp

/-! ### What a group and a slot hold -/

theorem groups_concat (add : β → α → β) (init : β) (key : α → κ) (xs : List α) (a : α) :
    groups add init key (xs ++ [a]) = upsert add init (key a) a (groups add init key xs) := by
  rw [groups, List.foldl_concat, groups]

/-- A group other than that of the item stays; that of the item has it added. -/
theorem mem_upsert (h : (gs.map Prod.fst).Nodup) {j : κ} {b : β} :
    (j, b) ∈ upsert add init k a gs ↔
      j ≠ k ∧ (j, b) ∈ gs ∨
      j = k ∧ ((∃ b', (k, b') ∈ gs ∧ b = add b' a) ∨ k ∉ gs.map Prod.fst ∧ b = add init a) := by
  induction gs with
  | nil => simp [upsert]
  | cons g gs ih =>
    obtain ⟨k', b'⟩ := g
    rw [List.map_cons, List.nodup_cons] at h
    by_cases hk : k' = k
    · subst hk
      have hnot : ∀ b, (k', b) ∉ gs := fun b hb => h.1 (List.mem_map.mpr ⟨(k', b), hb, rfl⟩)
      rw [upsert, if_pos rfl]
      by_cases hj : j = k'
      · subst hj
        simp [hnot]
      · simp [hj]
    · rw [upsert, if_neg hk, List.mem_cons, ih h.2]
      by_cases hj : j = k
      · subst hj
        simp [Ne.symm hk]
      · simp [hj]

/-- The group of a key adds up the items that have it. -/
theorem mem_groups {xs : List α} {b : β} :
    (k, b) ∈ groups add init key xs ↔
      k ∈ xs.map key ∧ b = (xs.filter fun a => key a = k).foldl add init := by
  induction xs using List.reverseRecOn generalizing b with
  | nil => simp [groups]
  | append_singleton xs a ih =>
    have hnodup := (keys_groups_perm add init key xs).nodup_iff.mpr (List.nodup_dedup _)
    have hkeys : key a ∈ (groups add init key xs).map Prod.fst ↔ key a ∈ xs.map key := by
      rw [(keys_groups_perm add init key xs).mem_iff, List.mem_dedup]
    rw [groups_concat, mem_upsert hnodup, hkeys, List.map_append, List.mem_append, List.filter_append,
      List.foldl_append]
    by_cases hk : k = key a
    · subst hk
      simp only [ne_eq, not_true_eq_false, false_and, true_and, false_or, ih, List.map_cons,
        List.map_nil, List.mem_singleton, or_true, List.filter_cons, decide_true, if_true,
        List.filter_nil, List.foldl_cons, List.foldl_nil]
      by_cases hmem : key a ∈ xs.map key
      · simp [hmem]
      · -- the first item of its key
        have hnone : (xs.filter fun a' => key a' = key a) = [] := by
          rw [List.filter_eq_nil_iff]
          intro a' ha' heq
          exact hmem (List.mem_map.mpr ⟨a', ha', by simpa using heq⟩)
        simp [hmem, hnone]
    · simp [hk, Ne.symm hk, ih]

/-- A slot adds up the items that have it. -/
theorem getElem?_fill (slot : α → Option ℕ) (xs : List α) (bs : List β) (i : ℕ) :
    (fill add slot xs bs)[i]? = bs[i]?.map fun b => (xs.filter fun a => slot a = some i).foldl add b := by
  induction xs generalizing bs with
  | nil => simp [fill]
  | cons a xs ih =>
    rw [fill, List.foldl_cons, ← fill, ih]
    cases hs : slot a with
    | none => simp [hs]
    | some j =>
      by_cases hj : j = i
      · subst hj
        simp [hs, Function.comp_def]
      · simp [hs, hj]

theorem length_fill (slot : α → Option ℕ) (xs : List α) (bs : List β) :
    (fill add slot xs bs).length = bs.length := by
  induction xs generalizing bs with
  | nil => rfl
  | cons a xs ih =>
    rw [fill, List.foldl_cons, ← fill, ih]
    cases slot a <;> simp

/-! ### Sums -/

section Measure
variable (measure : β → ℕ) (hadd : ∀ b a, measure (add b a) = measure b + 1)
include hadd

theorem sum_upsert (hinit : measure init = 0) :
    ((upsert add init k a gs).map fun g => measure g.2).sum =
      (gs.map fun g => measure g.2).sum + 1 := by
  induction gs with
  | nil => simp [upsert, hadd, hinit]
  | cons g gs ih =>
    obtain ⟨k', b⟩ := g
    rw [upsert]
    split_ifs
    · simp only [List.map_cons, List.sum_cons, hadd]
      omega
    · simp only [List.map_cons, List.sum_cons, ih]
      omega

/-- Every item is in one group. -/
theorem sum_groups (hinit : measure init = 0) (xs : List α) :
    ((groups add init key xs).map fun g => measure g.2).sum = xs.length := by
  have hfold : ∀ gs : List (κ × β),
      ((xs.foldl (fun gs a => upsert add init (key a) a gs) gs).map fun g => measure g.2).sum =
        (gs.map fun g => measure g.2).sum + xs.length := by
    induction xs with
    | nil => exact fun gs => rfl
    | cons a xs ih =>
      intro gs
      rw [List.foldl_cons, ih, sum_upsert measure hadd hinit, List.length_cons]
      omega
  rw [groups, hfold]
  simp

theorem sum_modify {bs : List β} {i : ℕ} (hi : i < bs.length) :
    ((bs.modify i (add · a)).map measure).sum = (bs.map measure).sum + 1 := by
  induction bs generalizing i with
  | nil => simp at hi
  | cons b bs ih =>
    cases i with
    | zero =>
      simp only [List.modify_zero_cons, List.map_cons, List.sum_cons, hadd]
      omega
    | succ i =>
      simp only [List.modify_succ_cons, List.map_cons, List.sum_cons,
        ih (Nat.lt_of_succ_lt_succ hi)]
      omega

/-- Every item that has a slot is in one slot. -/
theorem sum_fill {slot : α → Option ℕ} {xs : List α} {bs : List β}
    (hslot : ∀ a ∈ xs, ∀ i, slot a = some i → i < bs.length) :
    ((fill add slot xs bs).map measure).sum =
      (bs.map measure).sum + xs.countP fun a => (slot a).isSome := by
  induction xs generalizing bs with
  | nil => rfl
  | cons a xs ih =>
    rw [List.forall_mem_cons] at hslot
    rw [fill, List.foldl_cons, ← fill]
    cases hs : slot a with
    | none =>
      dsimp only
      rw [ih hslot.2, List.countP_cons_of_neg (by simp [hs])]
    | some i =>
      dsimp only
      rw [ih (by simpa using hslot.2), sum_modify measure hadd (hslot.1 i hs),
        List.countP_cons_of_pos (by simp [hs])]
      omega

end Measure

end ApiTest.Tally
