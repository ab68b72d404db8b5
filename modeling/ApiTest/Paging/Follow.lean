import Mathlib.Data.List.Range
import Mathlib.Data.List.Flatten

/-! Reading a list page by page. A client sends a request, and each answer tells it
what to ask next, until one does not. When the requests ask for one slice after the
other, the answers together are the list, provided that the slices are as wide as
the steps between them. -/

namespace ApiTest.Paging

section Follow
variable {σ β : Type*} (serve : σ → β) (next : σ → β → Option σ)

/-- The answers a client gets, from its first request to the answer that has no
next one; `none` if `fuel` requests were not enough. -/
def follow : ℕ → σ → Option (List β)
  | 0, _ => none
  | fuel + 1, s =>
    match next s (serve s) with
    | none => some [serve s]
    | some t => (follow fuel t).map (serve s :: ·)

/-- A client at step `i` of a walk gets an answer for it and moves on to the next
step, until the last one. -/
theorem follow_of_steps {n : ℕ} (At : ℕ → σ → Prop) (Answer : ℕ → β → Prop)
    (hserve : ∀ i ≤ n, ∀ s, At i s → Answer i (serve s))
    (hnext : ∀ i < n, ∀ s, At i s → ∃ t, next s (serve s) = some t ∧ At (i + 1) t)
    (hlast : ∀ s, At n s → next s (serve s) = none) {s : σ} (hs : At 0 s) :
    ∃ answers, (∀ fuel, n < fuel → follow serve next fuel s = some answers) ∧
      List.Forall₂ Answer (List.range (n + 1)) answers := by
  induction n generalizing At Answer s with
  | zero =>
    refine ⟨[serve s], ?_, List.Forall₂.cons (hserve 0 le_rfl s hs) List.Forall₂.nil⟩
    intro fuel hfuel
    obtain ⟨fuel, rfl⟩ := Nat.exists_eq_add_of_lt hfuel
    rw [follow, hlast s hs]
  | succ n ih =>
    obtain ⟨t, ht, hAt⟩ := hnext 0 (by omega) s hs
    -- the rest of the walk starts one step later
    obtain ⟨answers, hfollow, hanswers⟩ := ih (fun i => At (i + 1)) (fun i => Answer (i + 1))
      (fun i hi => hserve (i + 1) (by omega)) (fun i hi => hnext (i + 1) (by omega)) hlast hAt
    refine ⟨serve s :: answers, ?_, ?_⟩
    · intro fuel hfuel
      obtain ⟨fuel, rfl⟩ : ∃ m, fuel = m + 1 := ⟨fuel - 1, by omega⟩
      rw [follow, ht]
      exact congrArg (Option.map _) (hfollow fuel (by omega))
    · rw [List.range_succ_eq_map]
      exact List.Forall₂.cons (hserve 0 (by omega) s hs) (List.forall₂_map_left_iff.mpr hanswers)

/-- A chain of requests, each of them the next one of the request before, is
followed to its end. -/
theorem follow_eq {n : ℕ} (request : ℕ → σ)
    (hnext : ∀ i < n, next (request i) (serve (request i)) = some (request (i + 1)))
    (hlast : next (request n) (serve (request n)) = none) {fuel : ℕ} (hfuel : n < fuel) :
    follow serve next fuel (request 0) = some ((List.range (n + 1)).map fun i => serve (request i)) := by
  obtain ⟨answers, hfollow, hanswers⟩ := follow_of_steps serve next (fun i s => s = request i)
    (fun i b => serve (request i) = b) (by rintro i - s rfl; rfl)
    (by rintro i hi s rfl; exact ⟨_, hnext i hi, rfl⟩) (by rintro s rfl; exact hlast) rfl
  rw [hfollow fuel hfuel]
  congr 1
  exact (List.forall₂_eq_eq_eq ▸ List.forall₂_map_left_iff.mpr hanswers :
    (List.range (n + 1)).map (fun i => serve (request i)) = answers).symm

end Follow

/-! ### Slices -/

variable {α : Type*}

/-- The rows from an offset on, at most `width` of them. -/
def slice (rows : List α) (start width : ℕ) : List α := (rows.drop start).take width

/-- Slices that touch add up to the front of the list. -/
theorem flatMap_slice (rows : List α) (k n : ℕ) :
    ((List.range n).flatMap fun i => slice rows (i * k) k) = rows.take (n * k) := by
  induction n with
  | zero => simp
  | succ n ih =>
    rw [List.range_succ, List.flatMap_append, ih, List.flatMap_singleton, slice, ← List.take_add,
      Nat.succ_mul]

theorem flatMap_slice_succ (rows : List α) (stride width n : ℕ) :
    ((List.range (n + 1)).flatMap fun i => slice rows (i * stride) width) =
      rows.take width ++ (List.range n).flatMap fun i => slice (rows.drop stride) (i * stride) width := by
  rw [List.range_succ_eq_map, List.flatMap_cons, List.flatMap_map, Nat.zero_mul]
  congr 1
  apply List.flatMap_congr
  intro i _
  rw [slice, slice, List.drop_drop, Nat.succ_mul, Nat.add_comm]

theorem length_flatMap_slice_le {stride width : ℕ} (h : width ≤ stride) (rows : List α) (n : ℕ) :
    ((List.range n).flatMap fun i => slice rows (i * stride) width).length ≤ rows.length := by
  induction n generalizing rows with
  | zero => simp
  | succ n ih =>
    have hrest := ih (rows.drop stride)
    rw [List.length_drop] at hrest
    rw [flatMap_slice_succ, List.length_append, List.length_take]
    omega

/-- Slices with gaps between them miss a row that is in the first gap. -/
theorem length_flatMap_slice_lt {stride width : ℕ} {rows : List α} (h : width < stride)
    (hrows : width < rows.length) (n : ℕ) :
    ((List.range n).flatMap fun i => slice rows (i * stride) width).length < rows.length := by
  cases n with
  | zero =>
    rw [List.range_zero, List.flatMap_nil, List.length_nil]
    omega
  | succ n =>
    have hrest := length_flatMap_slice_le h.le (rows.drop stride) n
    rw [List.length_drop] at hrest
    rw [flatMap_slice_succ, List.length_append, List.length_take]
    omega

/-! ### How many pages there are -/

/-- The index of the last page, counted from zero. An empty list has one page. -/
def lastIndex (total k : ℕ) : ℕ := (total - 1) / k

variable {total k : ℕ}

/-- There is a page behind page `i` exactly if its end is not the end of the rows. -/
theorem lt_lastIndex_iff (hk : 0 < k) {i : ℕ} : i < lastIndex total k ↔ (i + 1) * k < total := by
  rw [lastIndex, Nat.lt_iff_add_one_le, Nat.le_div_iff_mul_le hk]
  have hpos : 0 < (i + 1) * k := Nat.mul_pos i.succ_pos hk
  omega

theorem total_le_pages (hk : 0 < k) : total ≤ (lastIndex total k + 1) * k :=
  not_lt.mp fun h => lt_irrefl _ ((lt_lastIndex_iff hk).mpr h)

end ApiTest.Paging
