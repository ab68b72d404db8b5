import Mathlib.Data.List.Nodup

/-! Tables with several unique columns. `INSERT` refuses a row that repeats a value in
one of them, `DELETE` and an `UPDATE` of the other columns never do, so the table keeps
its constraints by construction. -/

namespace ApiTest.Relational

variable {ρ κ : Type*}

structure UniqueTable (columns : List (ρ → κ)) where
  rows : List ρ
  unique : ∀ column ∈ columns, (rows.map column).Nodup

namespace UniqueTable

variable {columns : List (ρ → κ)}

def empty : UniqueTable columns := ⟨[], fun _ _ => List.nodup_nil⟩

/-- The rows are told apart by each unique column. -/
theorem eq_of_column {t : UniqueTable columns} {column : ρ → κ} (hcolumn : column ∈ columns)
    {r r' : ρ} (hr : r ∈ t.rows) (hr' : r' ∈ t.rows) (h : column r = column r') : r = r' :=
  List.inj_on_of_nodup_map (t.unique column hcolumn) hr hr' h

/-- `INSERT`; `none` is the error of a violated constraint. -/
def insert [DecidableEq κ] (t : UniqueTable columns) (r : ρ) : Option (UniqueTable columns) :=
  if h : ∀ column ∈ columns, column r ∉ t.rows.map column then
    some {
      rows := t.rows ++ [r]
      unique := fun column hcolumn => by
        simpa [List.nodup_append] using ⟨t.unique column hcolumn,
          fun r' hr' he => h column hcolumn (he ▸ List.mem_map_of_mem hr')⟩ }
  else none

theorem insert_eq_some [DecidableEq κ] {t t' : UniqueTable columns} {r : ρ} :
    t.insert r = some t' ↔
      t'.rows = t.rows ++ [r] ∧ ∀ column ∈ columns, column r ∉ t.rows.map column := by
  obtain ⟨rows, unique⟩ := t'
  unfold insert
  split_ifs with h
  · rw [Option.some.injEq, mk.injEq, and_iff_left h, eq_comm]
  · exact ⟨fun hnone => (nomatch hnone), fun hrows => absurd hrows.2 h⟩

/-- `DELETE … WHERE`. -/
def delete (t : UniqueTable columns) (p : ρ → Bool) : UniqueTable columns where
  rows := t.rows.filter fun r => !p r
  unique column hcolumn := (t.unique column hcolumn).sublist (List.filter_sublist.map column)

theorem mem_delete {t : UniqueTable columns} {p : ρ → Bool} {r : ρ} :
    r ∈ (t.delete p).rows ↔ r ∈ t.rows ∧ p r = false := by
  simp [delete]

/-- `UPDATE … SET … WHERE`, of columns that are not unique. -/
def update (t : UniqueTable columns) (p : ρ → Bool) (f : ρ → ρ)
    (hf : ∀ column ∈ columns, ∀ r, column (f r) = column r) : UniqueTable columns where
  rows := t.rows.map fun r => if p r then f r else r
  unique column hcolumn := by
    have hcolumns : (t.rows.map fun r => if p r then f r else r).map column =
        t.rows.map column := by
      rw [List.map_map]
      refine List.map_congr_left fun r _ => ?_
      by_cases hr : p r <;> simp [hr, hf column hcolumn r]
    rw [hcolumns]
    exact t.unique column hcolumn

theorem mem_update {t : UniqueTable columns} {p : ρ → Bool} {f : ρ → ρ}
    {hf : ∀ column ∈ columns, ∀ r, column (f r) = column r} {r : ρ} :
    r ∈ (t.update p f hf).rows ↔ ∃ r₀ ∈ t.rows, r = if p r₀ then f r₀ else r₀ := by
  simp only [update, List.mem_map, eq_comm (a := r)]

@[simp] theorem length_update (t : UniqueTable columns) (p : ρ → Bool) (f : ρ → ρ)
    (hf : ∀ column ∈ columns, ∀ r, column (f r) = column r) :
    (t.update p f hf).rows.length = t.rows.length := by
  simp [update]

end UniqueTable

end ApiTest.Relational
