import ApiTest.Audit.Select
import ApiTest.Text.Placeholders

/-! The text of the statements of `buildSelect`. A filter has eleven fields, each with
its column, its comparison and its value. The conjuncts of the text are those of the
fields that are set, in their order; they are numbered from one, and the number of a
conjunct is the place of its value among the arguments. -/

namespace ApiTest.Audit.Postgres

open Text Placeholders

/-! ### The fields of a filter -/

inductive Field where
  | fromTime
  | toTime
  | method
  | path
  | routeName
  | userID
  | sessionID
  | eventID
  | status
  | success
  | search
  deriving DecidableEq, Repr

namespace Field

/-- The fields in the order of their conjuncts. -/
def all : List Field :=
  [fromTime, toTime, method, path, routeName, userID, sessionID, eventID, status, success, search]

def isSet (f : QueryFilter) : Field → Bool
  | fromTime => f.fromTime ≠ 0
  | toTime => f.toTime ≠ 0
  | method => f.method ≠ []
  | path => f.path ≠ []
  | routeName => f.routeName ≠ []
  | userID => f.userID ≠ []
  | sessionID => f.sessionID ≠ []
  | eventID => f.eventID ≠ []
  | status => f.status ≠ 0
  | success => f.success.isSome
  | search => f.search ≠ []

/-- What a field that is set is compared with. -/
def value (f : QueryFilter) : Field → Arg
  | fromTime => .time f.fromTime
  | toTime => .time f.toTime
  | method => .text f.method
  | path => .text f.path
  | routeName => .text f.routeName
  | userID => .text f.userID
  | sessionID => .text f.sessionID
  | eventID => .text f.eventID
  | status => .int f.status
  | success => .bool (f.success.getD false)
  | search => .text (searchPattern f.search)

/-- The column of a field and how it is compared. -/
def predicate : Field → Predicate
  | fromTime => .compare .ts .ge
  | toTime => .compare .ts .le
  | method => .compare .method .eq
  | path => .compare .path .eq
  | routeName => .compare .routeName .eq
  | userID => .compare .userSubject .eq
  | sessionID => .compare .sessionID .eq
  | eventID => .compare .id .eq
  | status => .compare .status .eq
  | success => .compare .success .eq
  | search => .search

/-- The fields of a filter that are set. -/
def ofFilter (f : QueryFilter) : List Field := all.filter (isSet f)

theorem mem_ofFilter (f : QueryFilter) (field : Field) :
    field ∈ ofFilter f ↔ field.isSet f = true := by
  have hall : field ∈ all := by cases field <;> decide
  rw [ofFilter, List.mem_filter, and_iff_right hall]

end Field

/-! ### Numbering -/

/-- The conjunct of a field, if it is set. -/
def addField (f : QueryFilter) (w : Conjuncts) (field : Field) : Conjuncts :=
  w.addIf (field.isSet f) field.predicate (field.value f)

theorem conjuncts_eq_foldl (f : QueryFilter) :
    conjuncts f = Field.all.foldl (addField f) Conjuncts.none := rfl

/-- The clauses of fields, with the numbers from `n + 1` on. -/
def clausesFrom (n : ℕ) (fields : List Field) : List Clause :=
  (fields.zipIdx (n + 1)).map fun (field, i) => ⟨field.predicate, i⟩

theorem foldl_addField (f : QueryFilter) (fields : List Field) (w : Conjuncts) :
    (fields.foldl (addField f) w).clauses =
        w.clauses ++ clausesFrom w.args.length (fields.filter (Field.isSet f)) ∧
      (fields.foldl (addField f) w).args =
        w.args ++ (fields.filter (Field.isSet f)).map (Field.value f) := by
  induction fields generalizing w with
  | nil => simp [clausesFrom]
  | cons field fields ih =>
    obtain ⟨hclauses, hargs⟩ := ih (addField f w field)
    rw [List.foldl_cons, hclauses, hargs]
    by_cases hset : field.isSet f = true
    · rw [List.filter_cons_of_pos hset]
      simp [addField, hset, Conjuncts.addIf, Conjuncts.add, clausesFrom]
    · rw [List.filter_cons_of_neg hset]
      simp [addField, hset, Conjuncts.addIf]

theorem conjuncts_spec (f : QueryFilter) :
    (conjuncts f).clauses = clausesFrom 0 (Field.ofFilter f) ∧
      (conjuncts f).args = (Field.ofFilter f).map (Field.value f) := by
  rw [conjuncts_eq_foldl]
  exact foldl_addField f Field.all Conjuncts.none

/-! ### Placeholders -/

/-- The numbers in the text of a conjunct; a search has its number twice. -/
def Clause.numbers (c : Clause) : List ℕ :=
  match c.predicate with
  | .compare _ _ => [c.index]
  | .search => [c.index, c.index]

theorem Clause.mem_numbers (c : Clause) (i : ℕ) : i ∈ c.numbers ↔ i = c.index := by
  unfold Clause.numbers
  split <;> simp

theorem Predicate.adds_text (index : ℕ) (predicate : Predicate) :
    Adds (predicate.text index) (Clause.numbers ⟨predicate, index⟩) := by
  have hnumber := adds_placeholder index
  cases predicate with
  | compare column op =>
    have hplain : isPlain (column.text ++ lit " " ++ op.text ++ lit " ") = true := by
      cases column <;> cases op <;> decide
    have hblank : lit " $" = lit " " ++ [dollar] := by decide
    have htext : Predicate.text index (.compare column op) =
        (column.text ++ lit " " ++ op.text ++ lit " ") ++ dollar :: digits index := by
      simp [Predicate.text, hblank]
    rw [htext]
    exact (adds_plain hplain).append hnumber
  | search =>
    have hpath : lit "(path ILIKE $" = lit "(path ILIKE " ++ [dollar] := by decide
    have herror : lit " OR error_message ILIKE $" = lit " OR error_message ILIKE " ++ [dollar] := by
      decide
    have htext : Predicate.text index .search = (lit "(path ILIKE " ++ dollar :: digits index) ++
        (lit " OR error_message ILIKE " ++ dollar :: digits index ++ lit ")") := by
      simp [Predicate.text, hpath, herror]
    have hopen : isPlain (lit "(path ILIKE ") = true := by decide
    have hor : isPlain (lit " OR error_message ILIKE ") = true := by decide
    have hclose : isPlain (lit ")") = true := by decide
    rw [htext]
    exact ((adds_plain hopen).append hnumber).append
      (((adds_plain hor).append hnumber).append (adds_plain hclose))

theorem adds_whereText (clauses : List Clause) :
    Adds (whereText clauses) (clauses.flatMap Clause.numbers) := by
  unfold whereText
  split_ifs with hnone
  · rw [hnone]
    exact adds_nil
  · have hwhere : isPlain (lit "WHERE ") = true := by decide
    have hand : isPlain (lit " AND ") = true := by decide
    exact (adds_plain hwhere).append
      (adds_intercalate hand fun c _ => Predicate.adds_text c.index c.predicate)

/-! ### Numerals -/

/-- The loop writes the digits of a number that has room in the buffer. -/
theorem itoaLoop_eq {room n : ℕ} (hpos : 0 < n) (hroom : n < 10 ^ room) (buf : GoString) :
    itoaLoop room n buf = digits n ++ buf := by
  induction room generalizing n buf with
  | zero => omega
  | succ room ih =>
    rw [itoaLoop, if_pos hpos, digits_eq, List.append_assoc, List.singleton_append]
    split_ifs with hn
    · -- the first digit: the loop ends with the next test
      rw [Nat.div_eq_of_lt hn, List.nil_append]
      cases room <;> rfl
    · rw [Nat.pow_succ] at hroom
      exact ih (by omega) (by omega) _

/-- The store's `itoa` is that of `strconv`, but for the least `int`. -/
theorem itoa_eq {n : ℤ} (hlow : -2 ^ 63 < n) (hhigh : n < 2 ^ 63) : itoa n = Text.itoa n := by
  have hloop : ∀ m : ℕ, 0 < m → m < 2 ^ 63 → itoaLoop 20 m [] = digits m := by
    intro m hpos hm
    rw [itoaLoop_eq hpos (hm.trans (by decide)), List.append_nil]
  unfold itoa Text.itoa
  split_ifs with hzero hneg hneg
  · omega
  · rw [hzero]
    rfl
  · rw [wrap_eq ⟨by omega, by omega⟩, hloop _ (by omega) (by omega), show (-n).toNat = n.natAbs by omega]
  · rw [hloop _ (by omega) (by omega), show n.toNat = n.natAbs by omega]

theorem itoa_natCast_eq {n : ℕ} (h : n < 2 ^ 63) : itoa n = digits n := by
  rw [itoa_eq (by omega) (by omega), itoa_natCast]

/-! ### The statements -/

/-- The limit a row statement is meant to have. -/
def clampedLimit (f : QueryFilter) : ℕ :=
  if f.limit ≤ 0 then 100 else min f.limit.toNat maxQueryLimit

/-- The offset a row statement is meant to have. -/
def clampedOffset (f : QueryFilter) : ℕ := f.offset.toNat

theorem clampedLimit_mem (f : QueryFilter) : 1 ≤ clampedLimit f ∧ clampedLimit f ≤ maxQueryLimit := by
  have hmax : maxQueryLimit = 1000 := rfl
  unfold clampedLimit
  split_ifs <;> omega

theorem itoa_clampedLimit (f : QueryFilter) : itoa (clampedLimit f) = digits (clampedLimit f) :=
  itoa_natCast_eq ((clampedLimit_mem f).2.trans_lt (by decide))

theorem itoa_clampedOffset {f : QueryFilter} (h : IsInt f.offset) :
    itoa (clampedOffset f) = digits (clampedOffset f) := by
  obtain ⟨-, hhigh⟩ := h
  apply itoa_natCast_eq
  unfold clampedOffset
  omega

/-- The conjuncts of fields that are set, each with the number of its argument. -/
def whereOf (fields : List Field) : GoString :=
  if fields = [] then []
  else lit "WHERE " ++ (lit " AND ").intercalate
    ((fields.zipIdx 1).map fun (field, i) => field.predicate.text i)

theorem whereText_clausesFrom (fields : List Field) :
    whereText (clausesFrom 0 fields) = whereOf fields := by
  unfold whereText whereOf clausesFrom
  rw [List.map_map]
  by_cases hnone : fields = []
  · rw [hnone]
    rfl
  · have hclauses : (fields.zipIdx (0 + 1)).map (fun (field, i) => Clause.mk field.predicate i) ≠ [] := by
      simpa using hnone
    rw [if_neg hnone, if_neg hclauses]
    rfl

theorem selectStatement_rows (f : QueryFilter) :
    selectStatement f false =
      (.rows (conjuncts f).clauses (clampedLimit f) (clampedOffset f), (conjuncts f).args) := by
  have hmax : maxQueryLimit = 1000 := rfl
  have hlimit : (let limit := if f.limit ≤ 0 then 100 else f.limit
      if limit > maxQueryLimit then (maxQueryLimit : ℤ) else limit) = clampedLimit f := by
    unfold clampedLimit
    dsimp only
    split_ifs <;> omega
  have hoffset : (if f.offset < 0 then 0 else f.offset) = (clampedOffset f : ℤ) := by
    unfold clampedOffset
    split_ifs <;> omega
  simp only [selectStatement, Bool.false_eq_true, if_false]
  rw [← hlimit, ← hoffset]

/-- What a statement of the store has to be, for a filter and for the fields of it that
are set. -/
structure WellFormed (f : QueryFilter) (fields : List Field) : Prop where
  /-- There is a conjunct exactly for the fields that are set, and one for each. -/
  fields_iff : ∀ field, field ∈ fields ↔ field.isSet f = true
  fields_nodup : fields.Nodup
  /-- Both statements bind the values of these fields in order. -/
  args_eq : ∀ count, (buildSelect f count).2 = fields.map (Field.value f)
  /-- The statements share the condition, in which the conjunct of the field at index
  `i` has the number `i + 1`. -/
  count_eq : (buildSelect f true).1 = lit "SELECT count(*) FROM audit_events " ++ whereOf fields
  rows_eq : (buildSelect f false).1 = selectedColumns ++ lit "\t\tFROM audit_events " ++ whereOf fields ++
    lit "\n\t\tORDER BY ts DESC, id ASC\n\t\tLIMIT " ++ itoa (clampedLimit f) ++ lit " OFFSET " ++
    itoa (clampedOffset f)
  conjunct_iff : ∀ (field : Field) (i k : ℕ), k ∈ placeholders (field.predicate.text i) ↔ k = i
  /-- The placeholders of a statement are those from one to the number of arguments. -/
  placeholders_iff : ∀ count i,
    i ∈ placeholders (buildSelect f count).1 ↔ 1 ≤ i ∧ i ≤ (buildSelect f count).2.length
  /-- The limit and the offset are written in decimal digits. -/
  limit_eq : itoa (clampedLimit f) = digits (clampedLimit f)
  limit_mem : 1 ≤ clampedLimit f ∧ clampedLimit f ≤ maxQueryLimit
  offset_eq : itoa (clampedOffset f) = digits (clampedOffset f)

theorem buildSelect_count (f : QueryFilter) :
    buildSelect f true = (lit "SELECT count(*) FROM audit_events " ++ whereOf (Field.ofFilter f),
      (Field.ofFilter f).map (Field.value f)) := by
  obtain ⟨hclauses, hargs⟩ := conjuncts_spec f
  rw [← hargs, ← whereText_clausesFrom, ← hclauses]
  rfl

theorem buildSelect_rows (f : QueryFilter) :
    buildSelect f false = (selectedColumns ++ lit "\t\tFROM audit_events " ++ whereOf (Field.ofFilter f) ++
      lit "\n\t\tORDER BY ts DESC, id ASC\n\t\tLIMIT " ++ itoa (clampedLimit f) ++ lit " OFFSET " ++
      itoa (clampedOffset f), (Field.ofFilter f).map (Field.value f)) := by
  obtain ⟨hclauses, hargs⟩ := conjuncts_spec f
  rw [buildSelect, selectStatement_rows, ← hargs, ← whereText_clausesFrom, ← hclauses]
  rfl

/-- The numbers of the conjuncts are those from one on. -/
theorem mem_numbers_clausesFrom (fields : List Field) (i : ℕ) :
    i ∈ (clausesFrom 0 fields).flatMap Clause.numbers ↔ 1 ≤ i ∧ i ≤ fields.length := by
  have hindex : (clausesFrom 0 fields).map Clause.index = List.range' 1 fields.length := by
    rw [clausesFrom, List.map_map]
    exact List.zipIdx_map_snd 1 fields
  have hmem : i ∈ (clausesFrom 0 fields).flatMap Clause.numbers ↔
      i ∈ (clausesFrom 0 fields).map Clause.index := by
    simp only [List.mem_flatMap, Clause.mem_numbers, List.mem_map, eq_comm]
  rw [hmem, hindex, List.mem_range'_1]
  omega

theorem dollar_notMem_digits (n : ℕ) : dollar ∉ digits n := fun h =>
  absurd (isDecimal_of_mem_digits h) (by decide)

/-- The parts of a statement around its condition have no placeholders. -/
theorem placeholders_buildSelect {f : QueryFilter} (hoffset : IsInt f.offset) (count : Bool) :
    placeholders (buildSelect f count).1 = (clausesFrom 0 (Field.ofFilter f)).flatMap Clause.numbers := by
  have hcondition := adds_whereText (clausesFrom 0 (Field.ofFilter f))
  rw [whereText_clausesFrom] at hcondition
  cases count with
  | true =>
    have hhead : isPlain (lit "SELECT count(*) FROM audit_events ") = true := by decide
    rw [buildSelect_count]
    exact ((adds_plain hhead).append hcondition).placeholders_eq
  | false =>
    have hhead : isPlain (selectedColumns ++ lit "\t\tFROM audit_events ") = true := by
      unfold selectedColumns
      repeat rw [lit_ofList]
      decide +kernel
    have htail : isPlain (lit "\n\t\tORDER BY ts DESC, id ASC\n\t\tLIMIT " ++
        (itoa (clampedLimit f) ++ (lit " OFFSET " ++ itoa (clampedOffset f)))) = true := by
      apply isPlain_append (by decide) (by decide)
      rw [itoa_clampedLimit, itoa_clampedOffset hoffset, List.mem_append, List.mem_append]
      rintro (h | h | h)
      · exact dollar_notMem_digits _ h
      · exact absurd h (by decide)
      · exact dollar_notMem_digits _ h
    rw [buildSelect_rows]
    simpa only [List.append_assoc, List.append_nil, List.nil_append] using
      (((adds_plain hhead).append hcondition).append (adds_plain htail)).placeholders_eq

end ApiTest.Audit.Postgres
