import Mathlib.Data.List.Sort
import Mathlib.Order.Lattice

/-! Paging down a list of rows with an inclusive cursor. The rows are ordered by
descending key. A page holds the first `n` rows that are not newer than the
cursor, and the next cursor is the key of its last row, so neighbouring pages
overlap in the rows that tie with it. The walk below is a function of the rows,
the page size and the first cursor; the results say which prefix of the rows the
first `k` pages cover and when a page brings nothing new. -/

namespace ApiTest.Paging

variable {α τ : Type*} [LinearOrder τ] (key : α → τ)

/-- Newest first. -/
def Descending (rows : List α) : Prop := rows.Pairwise fun a b => key b ≤ key a

/-- The rows that are not newer than the cursor. -/
def upTo (rows : List α) (c : τ) : List α := rows.filter fun e => key e ≤ c

/-- How many rows are newer than the cursor. -/
def newer (rows : List α) (c : τ) : ℕ := rows.countP fun e => c < key e

def page (n : ℕ) (rows : List α) (c : τ) : List α := (upTo key rows c).take n

/-- The rows that are not newer than the cursor and do not fit on its page. -/
def beyond (n : ℕ) (rows : List α) (c : τ) : List α := (upTo key rows c).drop n

/-- The key of the last row of the page; an empty page leaves the cursor. -/
def nextCursor (n : ℕ) (rows : List α) (c : τ) : τ :=
  ((page key n rows c).getLast?.map key).getD c

/-- The cursor of page `k`, counted from zero. -/
def cursor (n : ℕ) (rows : List α) (c : τ) : ℕ → τ
  | 0 => c
  | k + 1 => nextCursor key n rows (cursor n rows c k)

/-- How many rows the first `k` pages cover. -/
def covered (n : ℕ) (rows : List α) (c : τ) : ℕ → ℕ
  | 0 => 0
  | k + 1 => newer key rows (cursor key n rows c k) + n

/-- A full page whose rows all share one key. -/
def TiedPage (n : ℕ) (rows : List α) : Prop :=
  rows.length = n ∧ ∀ a ∈ rows, ∀ b ∈ rows, key a = key b

variable {key} {n k : ℕ} {rows : List α} {c c' : τ}

/-! ### One page -/

theorem newer_eq_zero (h : ∀ e ∈ rows, key e ≤ c) : newer key rows c = 0 := by
  rw [newer, List.countP_eq_zero]
  intro e he
  simpa using h e he

/-- In descending rows the rows up to a cursor are what follows the newer ones. -/
theorem upTo_eq_drop (hs : Descending key rows) :
    upTo key rows c = rows.drop (newer key rows c) := by
  induction rows with
  | nil => rfl
  | cons a rows ih =>
    obtain ⟨ha, hr⟩ := List.pairwise_cons.mp hs
    by_cases hac : key a ≤ c
    · -- nothing behind `a` is newer than the cursor either
      have hall : ∀ e ∈ a :: rows, key e ≤ c := by
        intro e he
        rcases List.mem_cons.mp he with rfl | he
        · exact hac
        · exact (ha e he).trans hac
      rw [newer_eq_zero hall, List.drop_zero, upTo, List.filter_eq_self]
      intro e he
      simpa using hall e he
    · have hnew : newer key (a :: rows) c = newer key rows c + 1 := by
        simp [newer, lt_of_not_ge hac]
      rw [hnew, List.drop_succ_cons, ← ih hr]
      simp [upTo, hac]

theorem page_eq (hs : Descending key rows) :
    page key n rows c = (rows.drop (newer key rows c)).take n := by
  rw [page, upTo_eq_drop hs]

theorem beyond_eq (hs : Descending key rows) :
    beyond key n rows c = rows.drop (newer key rows c + n) := by
  rw [beyond, upTo_eq_drop hs, List.drop_drop]

theorem newer_le_newer (h : c' ≤ c) : newer key rows c ≤ newer key rows c' := by
  refine List.countP_mono_left fun e _ he => ?_
  simp only [decide_eq_true_eq] at he ⊢
  exact h.trans_lt he

theorem nextCursor_le : nextCursor key n rows c ≤ c := by
  rw [nextCursor]
  cases hlast : (page key n rows c).getLast? with
  | none => exact le_rfl
  | some last =>
    have hmem : last ∈ upTo key rows c := List.mem_of_mem_take (List.mem_of_getLast? hlast)
    simpa using (List.mem_filter.mp hmem).2

theorem getLast?_page (h : page key n rows c ≠ []) :
    ∃ last ∈ page key n rows c, nextCursor key n rows c = key last ∧
      (page key n rows c).getLast? = some last := by
  have hlast := List.getLast?_eq_some_getLast h
  exact ⟨_, List.mem_of_getLast? hlast, by simp [nextCursor, hlast], hlast⟩

/-- The rows in front of a page are exactly those newer than its cursor. -/
theorem newer_of_mem_take (hs : Descending key rows) {e : α}
    (he : e ∈ rows.take (newer key rows c)) : c < key e := by
  have hrest : (rows.drop (newer key rows c)).countP (fun e => c < key e) = 0 := by
    rw [← upTo_eq_drop hs, List.countP_eq_zero]
    intro a ha
    simpa using (List.mem_filter.mp ha).2
  have htotal : (rows.take (newer key rows c)).countP (fun e => c < key e) =
      (rows.take (newer key rows c)).length := by
    have hsum : newer key rows c = (rows.take (newer key rows c)).countP (fun e => c < key e) +
        (rows.drop (newer key rows c)).countP (fun e => c < key e) := by
      rw [← List.countP_append, List.take_append_drop]
      rfl
    have hle : newer key rows c ≤ rows.length := List.countP_le_length
    rw [List.length_take]
    omega
  simpa using List.countP_eq_length.mp htotal e he

/-- Nothing behind a page is newer than the page's last row. -/
theorem le_nextCursor_of_mem_beyond (hs : Descending key rows) {e : α}
    (he : e ∈ beyond key n rows c) : key e ≤ nextCursor key n rows c := by
  by_cases hpage : page key n rows c = []
  · have : nextCursor key n rows c = c := by simp [nextCursor, hpage]
    rw [this]
    simpa using (List.mem_filter.mp (List.mem_of_mem_drop he)).2
  · obtain ⟨last, hmem, hnext, -⟩ := getLast?_page hpage
    have hpair : (page key n rows c ++ beyond key n rows c).Pairwise fun a b => key b ≤ key a := by
      rw [page, beyond, List.take_append_drop]
      exact hs.filter _
    rw [hnext]
    exact (List.pairwise_append.mp hpair).2.2 last hmem e he

/-- The next page starts behind the rows of this page that are newer than its
last row. -/
theorem newer_nextCursor (hs : Descending key rows) :
    newer key rows (nextCursor key n rows c) = newer key rows c +
      (page key n rows c).countP fun e => nextCursor key n rows c < key e := by
  have hfront : (rows.take (newer key rows c)).countP (fun e => nextCursor key n rows c < key e) =
      newer key rows c := by
    have hle : newer key rows c ≤ rows.length := List.countP_le_length
    rw [List.countP_eq_length.mpr, List.length_take, min_eq_left hle]
    intro e he
    simpa using nextCursor_le.trans_lt (newer_of_mem_take hs he)
  have hback : (beyond key n rows c).countP (fun e => nextCursor key n rows c < key e) = 0 := by
    rw [List.countP_eq_zero]
    intro e he
    simpa using le_nextCursor_of_mem_beyond hs he
  have hsplit : rows = rows.take (newer key rows c) ++
      (page key n rows c ++ beyond key n rows c) := by
    rw [page, beyond, List.take_append_drop, upTo_eq_drop hs, List.take_append_drop]
  have hcount := congrArg (List.countP fun e => nextCursor key n rows c < key e) hsplit
  rw [List.countP_append, List.countP_append, hfront, hback, Nat.add_zero] at hcount
  exact hcount

theorem newer_nextCursor_le (hs : Descending key rows) :
    newer key rows (nextCursor key n rows c) ≤ newer key rows c + n := by
  rw [newer_nextCursor hs]
  have := (List.countP_le_length (p := fun e => nextCursor key n rows c < key e)
    (l := page key n rows c)).trans (List.length_take_le _ _)
  omega

/-- A page of one key only leaves the next page at the same place. -/
theorem newer_nextCursor_of_tied (hs : Descending key rows)
    (h : TiedPage key n (page key n rows c)) :
    newer key rows (nextCursor key n rows c) = newer key rows c := by
  rw [newer_nextCursor hs, List.countP_eq_zero.mpr, Nat.add_zero]
  intro e he
  obtain ⟨last, hmem, hnext, -⟩ := getLast?_page (List.ne_nil_of_mem he)
  simp [hnext, h.2 e he last hmem]

/-- A full page with two keys moves the next page. -/
theorem newer_lt_of_not_tied (hs : Descending key rows)
    (hfull : (page key n rows c).length = n) (h : ¬ TiedPage key n (page key n rows c)) :
    newer key rows c < newer key rows (nextCursor key n rows c) := by
  rw [newer_nextCursor hs, Nat.lt_add_right_iff_pos, List.countP_pos_iff]
  by_contra hnone
  simp only [not_exists, not_and, decide_eq_true_eq, not_lt] at hnone
  -- without a row newer than the last one, every row has the key of the last one
  refine h ⟨hfull, ?_⟩
  have hkey : ∀ a ∈ page key n rows c, key a = nextCursor key n rows c := by
    intro a ha
    refine le_antisymm (hnone a ha) ?_
    obtain ⟨last, -, hnext, hlast⟩ := getLast?_page (List.ne_nil_of_mem ha)
    have hpair : (page key n rows c).Pairwise fun a b => key b ≤ key a :=
      (hs.filter _).sublist (List.take_sublist _ _)
    rw [hnext]
    obtain ⟨front, hfront⟩ := List.getLast?_eq_some_iff.mp hlast
    rw [hfront] at ha hpair
    rcases List.mem_append.mp ha with ha | ha
    · exact (List.pairwise_append.mp hpair).2.2 a ha last (List.mem_singleton_self _)
    · rw [List.mem_singleton.mp ha]
  intro a ha b hb
  rw [hkey a ha, hkey b hb]

/-! ### The walk -/

theorem cursor_succ_le : cursor key n rows c (k + 1) ≤ cursor key n rows c k := nextCursor_le

theorem cursor_le : cursor key n rows c k ≤ c := by
  induction k with
  | zero => exact le_rfl
  | succ k ih => exact cursor_succ_le.trans ih

theorem newer_le_newer_succ :
    newer key rows (cursor key n rows c k) ≤ newer key rows (cursor key n rows c (k + 1)) :=
  newer_le_newer cursor_succ_le

/-- Page `k` starts inside what the earlier pages cover. -/
theorem newer_le_covered (hs : Descending key rows) (hc : ∀ e ∈ rows, key e ≤ c) :
    newer key rows (cursor key n rows c k) ≤ covered key n rows c k := by
  cases k with
  | zero => exact (newer_eq_zero hc).le
  | succ k => exact newer_nextCursor_le hs

/-- Covering grows from page to page. -/
theorem covered_le_succ : covered key n rows c k ≤ covered key n rows c (k + 1) := by
  cases k with
  | zero => exact Nat.zero_le _
  | succ k => exact Nat.add_le_add_right newer_le_newer_succ n

theorem covered_mono {j : ℕ} (h : j ≤ k) : covered key n rows c j ≤ covered key n rows c k := by
  induction h with
  | refl => exact le_rfl
  | step _ ih => exact ih.trans covered_le_succ

/-- A page that ends inside the rows is full. -/
theorem length_page_of_covered_le (hs : Descending key rows)
    (h : covered key n rows c (k + 1) ≤ rows.length) :
    (page key n rows (cursor key n rows c k)).length = n := by
  rw [covered] at h
  rw [page_eq hs, List.length_take, List.length_drop]
  omega

/-- While the pages end inside the rows and none of them is tied, each page
covers more than the pages before it. -/
theorem covered_lt_succ (hs : Descending key rows) (hn : 0 < n)
    (h : covered key n rows c k ≤ rows.length)
    (htied : ∀ j < k, ¬ TiedPage key n (page key n rows (cursor key n rows c j))) :
    covered key n rows c k < covered key n rows c (k + 1) := by
  cases k with
  | zero => exact Nat.lt_of_lt_of_le hn (Nat.le_add_left _ _)
  | succ k =>
    exact Nat.add_lt_add_right
      (newer_lt_of_not_tied hs (length_page_of_covered_le hs h) (htied k k.lt_succ_self)) n

/-- A page is rows that are already covered followed by the rows it adds. -/
theorem page_split (hs : Descending key rows) (hc : ∀ e ∈ rows, key e ≤ c) :
    ∃ old, page key n rows (cursor key n rows c k) = old ++
        (rows.drop (covered key n rows c k)).take
          (covered key n rows c (k + 1) - covered key n rows c k) ∧
      ∀ e ∈ old, e ∈ rows.take (covered key n rows c k) := by
  set p := newer key rows (cursor key n rows c k) with hp
  have hlow : p ≤ covered key n rows c k := newer_le_covered hs hc
  have hhigh : covered key n rows c k ≤ p + n := covered_le_succ
  refine ⟨(rows.drop p).take (covered key n rows c k - p), ?_, ?_⟩
  · rw [page_eq hs, ← hp]
    have hn : n = (covered key n rows c k - p) + (p + n - covered key n rows c k) := by omega
    nth_rewrite 1 [hn]
    rw [List.take_add, List.drop_drop]
    congr 3
    omega
  · intro e he
    rw [List.take_drop, Nat.add_sub_cancel' hlow] at he
    exact List.mem_of_mem_drop he

theorem take_covered_succ : rows.take (covered key n rows c (k + 1)) =
    rows.take (covered key n rows c k) ++ (rows.drop (covered key n rows c k)).take
      (covered key n rows c (k + 1) - covered key n rows c k) := by
  rw [← List.take_add, Nat.add_sub_cancel' covered_le_succ]

/-! ### Rows without ties -/

/-- Without ties a full page hands on all of its rows but the last. -/
theorem newer_nextCursor_of_strict (hs : rows.Pairwise fun a b => key b < key a)
    (hlen : newer key rows c + (n + 1) ≤ rows.length) :
    newer key rows (nextCursor key (n + 1) rows c) = newer key rows c + n := by
  have hdesc : Descending key rows := hs.imp le_of_lt
  have hpage : (page key (n + 1) rows c).length = n + 1 := by
    rw [page_eq hdesc, List.length_take, List.length_drop]
    omega
  have hne : page key (n + 1) rows c ≠ [] := List.ne_nil_of_length_eq_add_one hpage
  obtain ⟨last, -, hnext, hlast⟩ := getLast?_page hne
  obtain ⟨front, hfront⟩ := List.getLast?_eq_some_iff.mp hlast
  have hpair : (page key (n + 1) rows c).Pairwise fun a b => key b < key a :=
    (hs.filter _).sublist (List.take_sublist _ _)
  rw [newer_nextCursor hdesc, hnext]
  rw [hfront] at hpair hpage ⊢
  have hall : front.countP (fun e => key last < key e) = front.length := by
    rw [List.countP_eq_length]
    intro e he
    simpa using (List.pairwise_append.mp hpair).2.2 e he last (List.mem_singleton_self _)
  rw [List.countP_append, hall]
  simpa using hpage

theorem newer_cursor_of_strict (hs : rows.Pairwise fun a b => key b < key a)
    (hc : ∀ e ∈ rows, key e ≤ c) (hlen : k * n + 1 ≤ rows.length) :
    newer key rows (cursor key (n + 1) rows c k) = k * n := by
  induction k with
  | zero => rw [Nat.zero_mul]; exact newer_eq_zero hc
  | succ k ih =>
    rw [Nat.succ_mul] at hlen ⊢
    have hk := ih (by omega)
    rw [cursor, newer_nextCursor_of_strict hs (by omega), hk]

/-- Without ties no page of two rows or more is tied. -/
theorem not_tiedPage_of_strict (hs : rows.Pairwise fun a b => key b < key a) (hn : 1 < n) :
    ¬ TiedPage key n (page key n rows c) := by
  rintro ⟨hlen, hkey⟩
  have hpair : (page key n rows c).Pairwise fun a b => key b < key a :=
    (hs.filter _).sublist (List.take_sublist _ _)
  have hlt := List.pairwise_iff_getElem.mp hpair 0 1 (by omega) (by omega) Nat.zero_lt_one
  exact absurd (hkey _ (List.getElem_mem _) _ (List.getElem_mem _)) hlt.ne'

end ApiTest.Paging
