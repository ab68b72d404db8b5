import ApiTest.Audit.Memory
import ApiTest.Text.Decimal
import ApiTest.Text.Like
import ApiTest.Text.Utf8

/-! The statements of the Postgres store (`buildSelect`) and what they select. The
conjuncts of a filter are numbered as their values are bound; a statement is
evaluated over rows that hold the fields of the logged events, text compared byte by
byte. The in-memory logger is meant to be a copy of this: it takes the same conjuncts
and the same order, limit and offset, and searches for a text where the statement
matches a pattern. The search text is put into the pattern as it is, so the two part
where it holds `%`, `_` or a backslash. -/

namespace ApiTest.Audit.Postgres

open Text

/-! ### Statements -/

/-- A column of `audit_events` that a statement compares. -/
inductive Column where
  | ts
  | method
  | path
  | routeName
  | userSubject
  | sessionID
  | id
  | status
  | success
  deriving DecidableEq, Repr

def Column.text : Column → GoString
  | .ts => lit "ts"
  | .method => lit "method"
  | .path => lit "path"
  | .routeName => lit "route_name"
  | .userSubject => lit "user_subject"
  | .sessionID => lit "session_id"
  | .id => lit "id"
  | .status => lit "status"
  | .success => lit "success"

inductive Op where
  | ge
  | le
  | eq
  deriving DecidableEq, Repr

def Op.text : Op → GoString
  | .ge => lit ">="
  | .le => lit "<="
  | .eq => lit "="

/-- A conjunct before it is numbered: a column against a value, or the search in
`path` and `error_message`. -/
inductive Predicate where
  | compare (column : Column) (op : Op)
  | search
  deriving DecidableEq, Repr

/-- The text of a conjunct for the placeholder of the given number. -/
def Predicate.text (index : ℕ) : Predicate → GoString
  | .compare column op => column.text ++ lit " " ++ op.text ++ lit " $" ++ digits index
  | .search => lit "(path ILIKE $" ++ digits index ++ lit " OR error_message ILIKE $" ++
      digits index ++ lit ")"

/-- A bound value. -/
inductive Arg where
  | time (t : Time)
  | text (s : GoString)
  | int (n : ℤ)
  | bool (b : Bool)
  deriving DecidableEq, Repr

structure Clause where
  predicate : Predicate
  index : ℕ
  deriving DecidableEq, Repr

/-- The conjuncts and the values bound so far. Every placeholder has its value. -/
structure Conjuncts where
  clauses : List Clause
  args : List Arg
  bound : ∀ c ∈ clauses, 1 ≤ c.index ∧ c.index ≤ args.length

namespace Conjuncts

def none : Conjuncts := ⟨[], [], by simp⟩

/-- The local function `add`. -/
def add (w : Conjuncts) (predicate : Predicate) (val : Arg) : Conjuncts where
  clauses := w.clauses ++ [⟨predicate, w.args.length + 1⟩]
  args := w.args ++ [val]
  bound := by
    intro c hc
    rw [List.length_append, List.length_singleton]
    obtain hc | hc := List.mem_append.mp hc
    · have := w.bound c hc
      omega
    · rw [List.mem_singleton.mp hc]
      exact ⟨Nat.le_add_left _ _, le_rfl⟩

/-- A conjunct for a field that is set. -/
def addIf (set : Bool) (predicate : Predicate) (val : Arg) (w : Conjuncts) : Conjuncts :=
  if set then w.add predicate val else w

end Conjuncts

/-- The pattern of a search. -/
def searchPattern (search : GoString) : GoString := lit "%" ++ search ++ lit "%"

/-- The conjuncts of a filter, in the order of the source. -/
def conjuncts (f : QueryFilter) : Conjuncts :=
  Conjuncts.none
    |> Conjuncts.addIf (f.fromTime ≠ 0) (.compare .ts .ge) (.time f.fromTime)
    |> Conjuncts.addIf (f.toTime ≠ 0) (.compare .ts .le) (.time f.toTime)
    |> Conjuncts.addIf (f.method ≠ []) (.compare .method .eq) (.text f.method)
    |> Conjuncts.addIf (f.path ≠ []) (.compare .path .eq) (.text f.path)
    |> Conjuncts.addIf (f.routeName ≠ []) (.compare .routeName .eq) (.text f.routeName)
    |> Conjuncts.addIf (f.userID ≠ []) (.compare .userSubject .eq) (.text f.userID)
    |> Conjuncts.addIf (f.sessionID ≠ []) (.compare .sessionID .eq) (.text f.sessionID)
    |> Conjuncts.addIf (f.eventID ≠ []) (.compare .id .eq) (.text f.eventID)
    |> Conjuncts.addIf (f.status ≠ 0) (.compare .status .eq) (.int f.status)
    |> Conjuncts.addIf f.success.isSome (.compare .success .eq) (.bool (f.success.getD false))
    |> Conjuncts.addIf (f.search ≠ []) .search (.text (searchPattern f.search))

/-- A count, or the rows in their order from an offset on. -/
inductive Statement where
  | count (clauses : List Clause)
  | rows (clauses : List Clause) (limit offset : ℤ)

/-- The statement of `buildSelect` and its arguments. -/
def selectStatement (f : QueryFilter) (count : Bool) : Statement × List Arg :=
  let w := conjuncts f
  if count then (.count w.clauses, w.args)
  else
    let limit := if f.limit ≤ 0 then 100 else f.limit
    let limit := if limit > maxQueryLimit then (maxQueryLimit : ℤ) else limit
    let offset := if f.offset < 0 then 0 else f.offset
    (.rows w.clauses limit offset, w.args)

/-! ### Their text -/

/-- The loop of the store's own `itoa` over its buffer of twenty bytes. -/
def itoaLoop : ℕ → ℕ → GoString → GoString
  | 0, _, buf => buf
  | room + 1, n, buf =>
    if n > 0 then itoaLoop room (n / 10) (UInt8.ofNat (0x30 + n % 10) :: buf) else buf

/-- The store's `itoa`; negating the least `int` gives it back, and the loop then
writes nothing. -/
def itoa (n : ℤ) : GoString :=
  if n = 0 then lit "0"
  else if n < 0 then 0x2D :: itoaLoop 20 (wrap (-n)).toNat []
  else itoaLoop 20 n.toNat []

def whereText (clauses : List Clause) : GoString :=
  if clauses = [] then []
  else lit "WHERE " ++ (lit " AND ").intercalate (clauses.map fun c => c.predicate.text c.index)

/-- The columns of a row statement. -/
def selectedColumns : GoString :=
  lit "\n\t\tSELECT\n\t\t\tid, ts, duration_ms, COALESCE(request_id,''), COALESCE(session_id,''),\n" ++
  lit "\t\t\tCOALESCE(user_subject,''), COALESCE(user_email,''),\n" ++
  lit "\t\t\tCOALESCE(auth_type,''), COALESCE(api_key_name,''),\n" ++
  lit "\t\t\tmethod, path, COALESCE(route_name,''), COALESCE(endpoint_group,''),\n" ++
  lit "\t\t\tstatus, bytes_in, bytes_out,\n" ++
  lit "\t\t\tsuccess, COALESCE(error_message,''), COALESCE(error_category,''),\n" ++
  lit "\t\t\tCOALESCE(remote_addr,''), COALESCE(user_agent,'')\n"

def Statement.text : Statement → GoString
  | .count clauses => lit "SELECT count(*) FROM audit_events " ++ whereText clauses
  | .rows clauses limit offset =>
    selectedColumns ++ lit "\t\tFROM audit_events " ++ whereText clauses ++
      lit "\n\t\tORDER BY ts DESC, id ASC\n\t\tLIMIT " ++ itoa limit ++ lit " OFFSET " ++ itoa offset

def buildSelect (f : QueryFilter) (count : Bool) : GoString × List Arg :=
  ((selectStatement f count).1.text, (selectStatement f count).2)

example : buildSelect { path := lit "/v1/echo", search := lit "x" } true =
    (lit "SELECT count(*) FROM audit_events WHERE path = $1 AND (path ILIKE $2 OR error_message ILIKE $2)",
      [.text (lit "/v1/echo"), .text (lit "%x%")]) := by decide +kernel

/-! ### Their meaning -/

/-- The row of a logged event. -/
def Column.value (ev : Event) : Column → Arg
  | .ts => .time ev.timestamp
  | .method => .text ev.method
  | .path => .text ev.path
  | .routeName => .text ev.routeName
  | .userSubject => .text ev.userSubject
  | .sessionID => .text ev.sessionID
  | .id => .text ev.id
  | .status => .int ev.status
  | .success => .bool ev.success

/-- A comparison; only instants are ordered here. -/
def Op.holds : Op → Arg → Arg → Bool
  | .ge, .time a, .time b => b ≤ a
  | .le, .time a, .time b => a ≤ b
  | .eq, a, b => a = b
  | _, _, _ => false

/-- The special characters of `LIKE` under the default escape. -/
def wildcards : Like.Wildcards Char := ⟨'%', '_', '\\'⟩

section Meaning
variable [UnicodeCase]

/-- `text ILIKE pattern`: special characters are those of the pattern as it is, all
others are compared in lower case. -/
def ilike (text pattern : GoString) : Bool :=
  Like.fits lowerRune (Like.read wildcards (runes pattern)) (runes text)

def Predicate.holds (ev : Event) : Predicate → Arg → Bool
  | .compare column op, val => op.holds (column.value ev) val
  | .search, .text pattern => ilike ev.path pattern || ilike ev.errorMessage pattern
  | .search, _ => false

/-- The conjunct with the value of its placeholder put in. -/
def Clause.holds (args : List Arg) (ev : Event) (c : Clause) : Bool :=
  args[c.index - 1]?.any (c.predicate.holds ev)

/-- What a statement returns: a number, or the ids of rows. -/
inductive Answer where
  | count (n : ℕ)
  | ids (ids : List GoString)
  deriving DecidableEq, Repr

/-- The answer of a statement over the rows of the given events. `ORDER BY ts DESC,
id ASC` decides the order of rows with different ids. -/
def Statement.eval (args : List Arg) (events : List Event) : Statement → Answer
  | .count clauses => .count (events.filter fun ev => clauses.all (·.holds args ev)).length
  | .rows clauses limit offset =>
    .ids ((((sorted (events.filter fun ev => clauses.all (·.holds args ev))).drop offset.toNat).take
      limit.toNat).map Event.id)

def evalSelect (f : QueryFilter) (count : Bool) (events : List Event) : Answer :=
  (selectStatement f count).1.eval (selectStatement f count).2 events

/-! ### The conjuncts of a filter -/

/-- All conjuncts hold of a row. -/
def Conjuncts.holds (w : Conjuncts) (ev : Event) : Bool := w.clauses.all (·.holds w.args ev)

/-- A value that is bound later does not change the conjuncts before it. -/
theorem Conjuncts.holds_add (w : Conjuncts) (predicate : Predicate) (val : Arg) (ev : Event) :
    (w.add predicate val).holds ev = (w.holds ev && predicate.holds ev val) := by
  have hold : ∀ c ∈ w.clauses, c.holds (w.args ++ [val]) ev = c.holds w.args ev := by
    intro c hc
    obtain ⟨hpos, hle⟩ := w.bound c hc
    rw [Clause.holds, Clause.holds, List.getElem?_append_left (by omega)]
  have hall : w.clauses.all (·.holds (w.args ++ [val]) ev) = w.clauses.all (·.holds w.args ev) := by
    rw [Bool.eq_iff_iff, List.all_eq_true, List.all_eq_true]
    exact forall₂_congr fun c hc => by rw [hold c hc]
  have hnew : Clause.holds (w.args ++ [val]) ev ⟨predicate, w.args.length + 1⟩ =
      predicate.holds ev val := by
    simp [Clause.holds]
  simp only [Conjuncts.holds, Conjuncts.add, List.all_append, List.all_cons, List.all_nil, hnew,
    hall, Bool.and_true]

theorem Conjuncts.holds_addIf (set : Bool) (predicate : Predicate) (val : Arg) (w : Conjuncts)
    (ev : Event) :
    (w.addIf set predicate val).holds ev = (w.holds ev && (!set || predicate.holds ev val)) := by
  cases set with
  | false => simp [addIf]
  | true => simp [addIf, holds_add]

/-- The filter without its search. -/
abbrev unsearched (f : QueryFilter) : QueryFilter := { f with search := [] }

/-- The search of the in-memory logger. -/
def memoryHit (search : GoString) (ev : Event) : Bool :=
  contains (toLower ev.path) (toLower search) || contains (toLower ev.errorMessage) (toLower search)

/-- The search of the statement. -/
def selectHit (search : GoString) (ev : Event) : Bool :=
  ilike ev.path (searchPattern search) || ilike ev.errorMessage (searchPattern search)

theorem matchesFilter_eq (ev : Event) (f : QueryFilter) :
    matchesFilter ev f =
      (matchesFilter ev (unsearched f) && (f.search = [] || memoryHit f.search ev)) := by
  simp only [matchesFilter, memoryHit, Bool.or_assoc, decide_true, Bool.true_or, Bool.and_true]

/-- The conjuncts of a filter are those of the in-memory logger, but for the search. -/
theorem holds_conjuncts (ev : Event) (f : QueryFilter) :
    (conjuncts f).holds ev =
      (matchesFilter ev (unsearched f) && (f.search = [] || selectHit f.search ev)) := by
  simp only [conjuncts, Conjuncts.holds_addIf, Predicate.holds, Op.holds, Column.value, selectHit,
    matchesFilter, Arg.text.injEq, Arg.int.injEq, Arg.bool.injEq, decide_not, Bool.not_not,
    ne_eq, decide_true, Bool.true_or, Bool.and_true]
  simp only [Conjuncts.holds, Conjuncts.none, List.all_nil, Bool.true_and]
  cases f.success with
  | none =>
    simp only [Option.isSome_none, Bool.not_false, Bool.true_or, Bool.and_true]
    ac_rfl
  | some want =>
    simp only [Option.isSome_some, Option.getD_some, Bool.not_true, Bool.false_or]
    ac_rfl

/-! ### Searches -/

omit [UnicodeCase] in
theorem runes_searchPattern (search : GoString) :
    runes (searchPattern search) = Like.around wildcards (runes search) := by
  have hascii : (0x25 : UInt8).toNat < 0x80 := by decide
  have hpercent : continuation 0x25 = none := continuation_of_ascii hascii
  have hlast : runes [0x25] = ['%'] := rfl
  have hpattern : searchPattern search = 0x25 :: (search ++ [0x25]) := rfl
  rw [hpattern, runes_eq_cons (List.cons_ne_nil _ _), decodeRune_ascii hascii, List.drop_one,
    List.tail_cons, runes_append hpercent, hlast]
  rfl

theorem ilike_searchPattern (text search : GoString) :
    ilike text (searchPattern search) =
      Like.fits lowerRune (Like.read wildcards (Like.around wildcards (runes search))) (runes text) := by
  rw [ilike, runes_searchPattern]

theorem contains_toLower (text search : GoString) :
    contains (toLower text) (toLower search) = true ↔
      (runes search).map lowerRune <:+: (runes text).map lowerRune :=
  contains_mapRunes lowerRune text search

/-- A search text without special characters is searched for in the same way. -/
theorem ilike_of_plain {search : GoString} (h : ∀ c ∈ runes search, ¬ wildcards.Special c)
    (text : GoString) :
    ilike text (searchPattern search) = contains (toLower text) (toLower search) := by
  rw [Bool.eq_iff_iff, contains_toLower, ilike_searchPattern, Like.fits_around wildcards lowerRune h]

omit [UnicodeCase] in
theorem runes_ne_nil {s : GoString} (h : s ≠ []) : runes s ≠ [] := by
  rw [runes_eq_cons h]
  exact List.cons_ne_nil _ _

theorem not_contains_nil {search : GoString} (h : search ≠ []) :
    contains (toLower []) (toLower search) = false := by
  rw [← Bool.not_eq_true, contains_toLower, runes_nil, List.map_nil, List.infix_nil, List.map_eq_nil_iff]
  exact runes_ne_nil h

/-- What a pattern finds in the empty text it finds in every text. -/
theorem ilike_of_nil {search : GoString} (h : ilike [] (searchPattern search) = true)
    (text : GoString) : ilike text (searchPattern search) = true := by
  rw [ilike_searchPattern, Like.read_around] at h ⊢
  exact Like.fits_of_fits_nil lowerRune h _

/-- A text that the pattern of a search finds, and the search does not if it has a
special character. -/
def sampleText (search : GoString) : GoString :=
  encodeRunes (Like.sample 'a' (Like.read wildcards (Like.around wildcards (runes search))))

theorem ilike_sampleText (search : GoString) :
    ilike (sampleText search) (searchPattern search) = true := by
  rw [ilike_searchPattern, sampleText, runes_encodeRunes]
  exact Like.fits_sample lowerRune 'a' _

theorem not_contains_sampleText {search : GoString} (h : ∃ c ∈ runes search, wildcards.Special c) :
    contains (toLower (sampleText search)) (toLower search) = false := by
  have hblank : lowerRune 'a' ≠ lowerRune wildcards.one := by
    show 'a' ≠ '_'
    decide
  have hescape : lowerRune wildcards.any ≠ lowerRune wildcards.escape := by
    show '%' ≠ '\\'
    decide
  rw [← Bool.not_eq_true, contains_toLower, sampleText, runes_encodeRunes]
  exact Like.sample_not_infix hblank hescape h

/-! ### The two stores -/

/-- On every list of events with distinct, nonempty ids, the in-memory logger returns
the ids that the row statement of the filter does, in the same order, and its count is
that of the count statement. -/
def SameAnswers (f : QueryFilter) : Prop :=
  ∀ events : List Event, UniqueIDs events → (∀ ev ∈ events, ev.id ≠ []) →
    evalSelect f false events = .ids ((query events f).map Event.id) ∧
      evalSelect f true events = .count (count events f)

theorem evalSelect_rows (f : QueryFilter) (events : List Event) :
    evalSelect f false events =
      .ids ((((sorted (events.filter (conjuncts f).holds)).drop (clampOffset f)).take
        (clampLimit f)).map Event.id) := rfl

theorem evalSelect_count (f : QueryFilter) (events : List Event) :
    evalSelect f true events = .count (events.filter (conjuncts f).holds).length := rfl

/-- The stores agree exactly if the two searches do on every event that the rest of the
filter lets through. -/
theorem sameAnswers_iff_hits (f : QueryFilter) :
    SameAnswers f ↔ ∀ ev : Event, ev.id ≠ [] → matchesFilter ev (unsearched f) = true →
      (f.search = [] || memoryHit f.search ev) = (f.search = [] || selectHit f.search ev) := by
  constructor
  · intro h ev hid hrest
    -- the count over the event alone
    have hcount := (h [ev] (List.nodup_singleton _) (by simpa using hid)).2
    rw [evalSelect_count, count, matchAll, length_sorted, Answer.count.injEq] at hcount
    simp only [List.filter_singleton, holds_conjuncts, matchesFilter_eq ev f, hrest,
      Bool.true_and] at hcount
    revert hcount
    generalize (decide (f.search = []) || memoryHit f.search ev) = a
    generalize (decide (f.search = []) || selectHit f.search ev) = b
    cases a <;> cases b <;> simp
  · intro h events _ hids
    have hfilter : events.filter (conjuncts f).holds = events.filter (matchesFilter · f) := by
      apply List.filter_congr
      intro ev hev
      rw [holds_conjuncts, matchesFilter_eq ev f]
      cases hrest : matchesFilter ev (unsearched f) with
      | false => rfl
      | true => rw [h ev (hids ev hev) hrest]
    rw [evalSelect_rows, evalSelect_count, hfilter, query_eq, count, matchAll, length_sorted]
    exact ⟨rfl, rfl⟩

/-- The search text holds no special character; or no instant lies between the bounds;
or the filter asks for a path in which both searches find the text. -/
def SearchedAlike (f : QueryFilter) : Prop :=
  (∀ c ∈ runes f.search, ¬ wildcards.Special c) ∨
    (f.fromTime ≠ 0 ∧ f.toTime ≠ 0 ∧ f.toTime < f.fromTime) ∨
    (f.path ≠ [] ∧ contains (toLower f.path) (toLower f.search) = true ∧
      ilike f.path (searchPattern f.search) = true)

/-- An event that a filter lets through, with the given message. -/
def fittingEvent (f : QueryFilter) (message : GoString) : Event where
  id := if f.eventID = [] then lit "a" else f.eventID
  timestamp := if f.fromTime = 0 then f.toTime else f.fromTime
  sessionID := f.sessionID
  userSubject := f.userID
  method := f.method
  path := f.path
  routeName := f.routeName
  status := f.status
  success := f.success.getD false
  errorMessage := message

omit [UnicodeCase] in
theorem fittingEvent_id (f : QueryFilter) (message : GoString) : (fittingEvent f message).id ≠ [] := by
  unfold fittingEvent
  dsimp only
  split_ifs with hid
  · decide
  · exact hid

theorem matches_fittingEvent {f : QueryFilter}
    (h : ¬ (f.fromTime ≠ 0 ∧ f.toTime ≠ 0 ∧ f.toTime < f.fromTime)) (message : GoString) :
    matchesFilter (fittingEvent f message) (unsearched f) = true := by
  have hid : f.eventID = [] ∨ (fittingEvent f message).id = f.eventID := by
    by_cases he : f.eventID = []
    · exact Or.inl he
    · exact Or.inr (if_neg he)
  have hfrom : f.fromTime = 0 ∨ f.fromTime ≤ (fittingEvent f message).timestamp := by
    by_cases he : f.fromTime = 0
    · exact Or.inl he
    · exact Or.inr (if_neg he).ge
  have hto : f.toTime = 0 ∨ (fittingEvent f message).timestamp ≤ f.toTime := by
    by_cases hf : f.fromTime = 0
    · exact Or.inr (if_pos hf).le
    · by_cases ht : f.toTime = 0
      · exact Or.inl ht
      · right
        rw [show (fittingEvent f message).timestamp = f.fromTime from if_neg hf]
        by_contra hlt
        exact h ⟨hf, ht, not_le.mp hlt⟩
  have hsuccess : ∀ want, f.success = some want → (fittingEvent f message).success = want := by
    intro want hwant
    simp [fittingEvent, hwant]
  exact matchesFilter_iff.mpr ⟨hid, Or.inr rfl, Or.inr rfl, Or.inr rfl, Or.inr rfl, Or.inr rfl,
    Or.inr rfl, hfrom, hto, hsuccess, Or.inl rfl⟩

/-! ### The result -/

/-- Where the search does not find the text in the path, the pattern alone finds the
sample in the message. -/
theorem hits_sample {f : QueryFilter} (hspecial : ∃ c ∈ runes f.search, wildcards.Special c)
    (hmemory : contains (toLower f.path) (toLower f.search) = false) :
    memoryHit f.search (fittingEvent f (sampleText f.search)) = false ∧
      selectHit f.search (fittingEvent f (sampleText f.search)) = true := by
  rw [memoryHit, selectHit, Bool.or_eq_false_iff, Bool.or_eq_true]
  exact ⟨⟨hmemory, not_contains_sampleText hspecial⟩, Or.inr (ilike_sampleText f.search)⟩

/-- Where the search alone finds the text in the path, the pattern finds it in an empty
message neither. -/
theorem hits_empty {f : QueryFilter}
    (hmemory : contains (toLower f.path) (toLower f.search) = true)
    (hpattern : ilike f.path (searchPattern f.search) = false) :
    memoryHit f.search (fittingEvent f []) = true ∧
      selectHit f.search (fittingEvent f []) = false := by
  have hempty : ilike [] (searchPattern f.search) = false := by
    rw [← Bool.not_eq_true]
    intro hp
    rw [ilike_of_nil hp] at hpattern
    cases hpattern
  rw [memoryHit, selectHit, Bool.or_eq_true, Bool.or_eq_false_iff]
  exact ⟨Or.inl hmemory, hpattern, hempty⟩

/-- The in-memory logger answers as the Postgres store does, but for special characters
in a search: for a filter, all answers are the same exactly if the search text holds
none, or the rest of the filter lets nothing through, or it fixes a path in which both
find the text. -/
theorem sameAnswers_iff (f : QueryFilter) : SameAnswers f ↔ SearchedAlike f := by
  rw [sameAnswers_iff_hits]
  constructor
  · intro h
    by_contra hnot
    simp only [SearchedAlike, not_or, not_forall, not_not] at hnot
    obtain ⟨⟨c, hc, hspecial⟩, htime, hpath⟩ := hnot
    have hsearch : f.search ≠ [] := by
      intro hnil
      rw [hnil] at hc
      cases hc
    have hits (message : GoString) : memoryHit f.search (fittingEvent f message) =
        selectHit f.search (fittingEvent f message) := by
      simpa [hsearch] using h _ (fittingEvent_id f message) (matches_fittingEvent htime message)
    cases hmemory : contains (toLower f.path) (toLower f.search) with
    | false =>
      obtain ⟨hleft, hright⟩ := hits_sample ⟨c, hc, hspecial⟩ hmemory
      exact absurd (hits (sampleText f.search)) (by simp [hleft, hright])
    | true =>
      have hne : f.path ≠ [] := by
        intro hnil
        rw [hnil, not_contains_nil hsearch] at hmemory
        cases hmemory
      have hpattern : ilike f.path (searchPattern f.search) = false := by
        rw [← Bool.not_eq_true]
        exact fun hp => hpath ⟨hne, hmemory, hp⟩
      obtain ⟨hleft, hright⟩ := hits_empty hmemory hpattern
      exact absurd (hits []) (by simp [hleft, hright])
  · rintro (hplain | ⟨hfrom, hto, hlt⟩ | ⟨hne, hmemory, hpattern⟩) ev _ hrest
    · rw [memoryHit, selectHit, ilike_of_plain hplain, ilike_of_plain hplain]
    · -- no instant lies between the bounds
      obtain ⟨-, -, -, -, -, -, -, hlower, hupper, -⟩ := matchesFilter_iff.mp hrest
      exact absurd ((hlower.resolve_left hfrom).trans (hupper.resolve_left hto)) (not_le.mpr hlt)
    · obtain ⟨-, -, hpath, -⟩ := matchesFilter_iff.mp hrest
      rw [memoryHit, selectHit, hpath.resolve_left hne, hmemory, hpattern]
      rfl

end Meaning

/-- The event of a request for `/v1/fixed/a`. -/
def fixedEvent : Event := { id := lit "e1", timestamp := 1, path := lit "/v1/fixed/a" }

/-- A search for an underscore: the statement finds every event, the in-memory logger
none. -/
theorem underscore_found_by_select :
    UniqueIDs [fixedEvent] ∧
      @evalSelect asciiCase { search := lit "_" } false [fixedEvent] = .ids [lit "e1"] ∧
      (@query asciiCase [fixedEvent] { search := lit "_" }).map Event.id = [] ∧
      @evalSelect asciiCase { search := lit "_" } true [fixedEvent] = .count 1 ∧
      @count asciiCase [fixedEvent] { search := lit "_" } = 0 := by
  decide +kernel

end ApiTest.Audit.Postgres
