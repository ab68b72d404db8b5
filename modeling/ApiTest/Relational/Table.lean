import Mathlib.Data.List.Nodup

/-! Tables with declared constraints. A row may hold NULL in any column; what a
table admits is decided when a row is inserted. A table value carries the proof
that its rows meet the constraints, so an insert is the only way to obtain one
with more rows, and a refused insert gives none. -/

namespace ApiTest.Relational

/-- The constraints of a table on its own rows: the primary key, and whether the
columns declared NOT NULL have values. -/
structure Schema (ρ κ : Type*) where
  key : ρ → Option κ
  notNull : ρ → Bool

variable {ρ κ : Type*}

structure Table (s : Schema ρ κ) where
  rows : List ρ
  notNull : ∀ r ∈ rows, s.notNull r
  keyed : ∀ r ∈ rows, s.key r ≠ none
  distinct : (rows.map s.key).Nodup

namespace Table

variable {s : Schema ρ κ}

def empty : Table s := ⟨[], by simp, by simp, List.nodup_nil⟩

/-- What a foreign key to this table may hold: NULL or the key of a row. -/
def References (t : Table s) (k : Option κ) : Prop := k = none ∨ k ∈ t.rows.map s.key

variable [DecidableEq κ]

instance (t : Table s) : DecidablePred t.References :=
  fun _ => inferInstanceAs (Decidable (_ ∨ _))

/-- `INSERT`; `none` is the error of a violated constraint. -/
def insert (t : Table s) (r : ρ) : Option (Table s) :=
  if h : s.notNull r ∧ s.key r ≠ none ∧ s.key r ∉ t.rows.map s.key then
    some {
      rows := t.rows ++ [r]
      notNull := by simpa [or_imp, forall_and] using ⟨t.notNull, h.1⟩
      keyed := by simpa [or_imp, forall_and] using ⟨t.keyed, h.2.1⟩
      distinct := by simpa [List.nodup_append] using
        ⟨t.distinct, fun r' hr' he => h.2.2 (he ▸ List.mem_map_of_mem hr')⟩ }
  else none

theorem insert_eq_some {t t' : Table s} {r : ρ} (h : t.insert r = some t') :
    t'.rows = t.rows ++ [r] := by
  unfold insert at h
  split_ifs at h
  cases h
  rfl

theorem notMem_of_insert {t t' : Table s} {r : ρ} (h : t.insert r = some t') :
    s.key r ∉ t.rows.map s.key := by
  unfold insert at h
  split_ifs at h with hr
  exact hr.2.2

/-- A row with all its NOT NULL columns and a key that is not there yet is
inserted. -/
theorem isSome_insert {t : Table s} {r : ρ} (hnull : s.notNull r) (hkey : s.key r ≠ none)
    (hfresh : s.key r ∉ t.rows.map s.key) : (t.insert r).isSome := by
  rw [insert, dif_pos ⟨hnull, hkey, hfresh⟩]
  rfl

/-- An insert into the referenced table keeps references. -/
theorem References.insert {t t' : Table s} {r : ρ} {k : Option κ} (hk : t.References k)
    (h : t.insert r = some t') : t'.References k := by
  rcases hk with hk | hk
  · exact Or.inl hk
  · right
    rw [insert_eq_some h, List.map_append]
    exact List.mem_append_left _ hk

/-- A primary key selects one row. -/
theorem filter_key {t : Table s} {r : ρ} (hr : r ∈ t.rows) :
    (t.rows.filter fun r' => decide (s.key r' = s.key r)) = [r] := by
  obtain ⟨before, behind, hrows⟩ := List.append_of_mem hr
  have hdistinct := t.distinct
  rw [hrows, List.map_append, List.map_cons, List.nodup_append, List.nodup_cons] at hdistinct
  obtain ⟨-, ⟨hbehind, -⟩, hbefore⟩ := hdistinct
  have hnone : ∀ l : List ρ, s.key r ∉ l.map s.key →
      (l.filter fun r' => decide (s.key r' = s.key r)) = [] := by
    intro l hl
    rw [List.filter_eq_nil_iff]
    intro r' hr' hkey
    rw [decide_eq_true_eq] at hkey
    exact hl (hkey ▸ List.mem_map_of_mem hr')
  have hfront : s.key r ∉ before.map s.key := fun hmem =>
    hbefore (s.key r) hmem (s.key r) List.mem_cons_self rfl
  rw [hrows, List.filter_append, hnone before hfront, List.filter_cons_of_pos (by simp),
    hnone behind hbehind, List.nil_append]

end Table

end ApiTest.Relational
