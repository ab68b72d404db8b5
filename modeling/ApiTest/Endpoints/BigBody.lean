import ApiTest.Endpoints.Pagination
import ApiTest.Endpoints.Streaming
import ApiTest.Json.Grammar
import ApiTest.Text.Hex

/-! `GET /v1/export/big-body` (`pkg/endpoints/export`). Rows are written until the bytes
the writer took reach the target. A second bound counts the rows, from an estimate of
their length. A row is 38 bytes and its comma 1, so ten rows are shorter than the
estimate; every later index has a second digit, and the estimate holds from there on. -/

namespace ApiTest.Endpoints.Export

open Text Audit Net Streaming

def maxBodyKB : ℤ := 10240
def defaultSizeKB : ℤ := 64

/-- `sha256.Sum256`. -/
class SHA256 where
  sum256 : GoString → Vector UInt8 32

/-- The copy of this package; it reads a parameter as the one of `pagination` does. -/
def boundedDefault (raw : GoString) (default upper : ℤ) (name : GoString) : Except GoString ℤ :=
  Pagination.boundedDefault raw default upper name

def writeBadRequest (msg : GoString) : List StreamCall :=
  writeJSON 400 (errorBody (trimSpace msg))

structure BigBodyRow where
  index : ℕ
  value : GoString

/-- `json.Marshal` of a row whose value holds nothing JSON escapes. -/
def BigBodyRow.marshal (row : BigBodyRow) : GoString :=
  lit "\x7b\"index\":" ++ itoa row.index ++ lit ",\"value\":\"" ++ row.value ++ lit "\"\x7d"

def BigBodyRow.json (row : BigBodyRow) : Json.Value :=
  .obj [(lit "index", .num row.index), (lit "value", .str row.value)]

def maxIter (target : ℕ) : ℕ := target / 40 + 64

theorem isLiteral_of_isHex {c : UInt8} (h : Hex.isHex c = true) : Json.isLiteral c = true := by
  simp only [Hex.isHex, Json.isLiteral, Bool.or_eq_true, Bool.and_eq_true, decide_eq_true_eq,
    UInt8.le_iff_toNat_le, UInt8.lt_iff_toNat_lt, ← UInt8.toNat_inj, ne_eq, UInt8.reduceToNat]
    at h ⊢
  omega

section Handler
variable [SHA256]

def deterministicValue (seed : GoString) (index : ℕ) : GoString :=
  Hex.encode ((SHA256.sum256 (seed ++ lit ":" ++ itoa index)).toList.take 8)

def bigBodyRow (seed : GoString) (i : ℕ) : BigBodyRow :=
  { index := i, value := deterministicValue seed i }

/-- The loop with `left` iterations before the cap, and what follows it. `cancelled i`
says whether the context has ended when row `i` is due, `taken i` how many of its bytes
the writer reports. -/
def bigBodyLoop (flusher : Bool) (seed : GoString) (target : ℕ) (cancelled : ℕ → Bool)
    (taken : ℕ → ℕ) : ℕ → ℕ → ℕ → Bool → List StreamCall
  | 0, _, _, _ => [.call (.write (lit "]"))]
  | left + 1, i, written, first =>
    if target ≤ written then [.call (.write (lit "]"))]
    else if cancelled i then []
    else
      let enc := (bigBodyRow seed i).marshal
      let written := if first then written else written + 1
      (if first then [] else [.call (.write (lit ","))]) ++ .call (.write enc) ::
        (if flusher ∧ i % 64 = 0 then [.flush] else []) ++
        bigBodyLoop flusher seed target cancelled taken left (i + 1) (written + taken i) false

theorem noFlush_bigBodyLoop (seed : GoString) (target : ℕ) (cancelled : ℕ → Bool) (taken : ℕ → ℕ)
    (left i written : ℕ) (first : Bool) :
    .flush ∉ bigBodyLoop false seed target cancelled taken left i written first := by
  induction left generalizing i written first with
  | zero => simp [bigBodyLoop]
  | succ left ih =>
    rw [bigBodyLoop]
    split_ifs <;> simp_all

/-- `bigBody`. -/
def bigBody (q : Values) (cancelled : ℕ → Bool) (taken : ℕ → ℕ) : StreamHandler where
  calls flusher :=
    match boundedDefault (q.get (lit "size_kb")) defaultSizeKB maxBodyKB (lit "size_kb") with
    | .error msg => writeBadRequest msg
    | .ok sizeKB =>
      let target := (sizeKB * 1024).toNat
      .call (.writeHeader 200) :: .call (.write (lit "[")) ::
        bigBodyLoop flusher (q.get (lit "seed")) target cancelled taken (maxIter target) 0 1 true
  noFlush := by
    cases boundedDefault (q.get (lit "size_kb")) defaultSizeKB maxBodyKB (lit "size_kb") with
    | error msg => simp [writeBadRequest, writeJSON]
    | ok sizeKB => simpa using noFlush_bigBodyLoop _ _ _ _ _ _ _ _

/-! ### Rows -/

theorem length_deterministicValue (seed : GoString) (i : ℕ) :
    (deterministicValue seed i).length = 16 := by
  rw [deterministicValue, Hex.length_encode, List.length_take, Vector.length_toList]
  rfl

theorem all_isLiteral_deterministicValue (seed : GoString) (i : ℕ) :
    (deterministicValue seed i).all Json.isLiteral = true := by
  rw [List.all_eq_true]
  exact fun c hc => isLiteral_of_isHex (Hex.isHex_of_mem_encode hc)

theorem length_marshal (seed : GoString) (i : ℕ) :
    (bigBodyRow seed i).marshal.length = 37 + (digits i).length := by
  have hopen : (lit "\x7b\"index\":").length = 9 := by decide
  have hmiddle : (lit ",\"value\":\"").length = 10 := by decide
  have hclose : (lit "\"\x7d").length = 2 := by decide
  simp only [BigBodyRow.marshal, bigBodyRow, List.length_append, itoa_natCast, hopen, hmiddle,
    hclose, length_deterministicValue]
  omega

theorem derives_marshal (seed : GoString) (i : ℕ) :
    Json.Derives (bigBodyRow seed i).json (bigBodyRow seed i).marshal := by
  rw [BigBodyRow.marshal, bigBodyRow, itoa_natCast]
  exact .obj_nat_str i (by decide) (by decide) (all_isLiteral_deterministicValue seed i)
    (by decide) (by decide)

/-! ### The text -/

/-- The array with its first `k` rows, before it is closed. -/
def opened (seed : GoString) (k : ℕ) : GoString :=
  lit "[" ++ (lit ",").intercalate ((List.range k).map fun i => (bigBodyRow seed i).marshal)

theorem length_opened_zero (seed : GoString) : (opened seed 0).length = 1 := rfl

theorem opened_succ (seed : GoString) (k : ℕ) :
    opened seed (k + 1) =
      opened seed k ++ (if k = 0 then [] else lit ",") ++ (bigBodyRow seed k).marshal := by
  rw [opened, List.range_succ, List.map_append, List.map_singleton]
  split_ifs with hk
  · rw [hk, List.range_zero, List.map_nil, List.nil_append, List.intercalate_singleton,
      List.append_nil]
    rfl
  · have hne : (List.range k).map (fun i => (bigBodyRow seed i).marshal) ≠ [] := by simpa using hk
    rw [Json.intercalate_concat _ _ hne, opened]
    simp only [List.append_assoc]

theorem length_opened_succ (seed : GoString) (k : ℕ) :
    (opened seed (k + 1)).length =
      (opened seed k).length + (if k = 0 then 0 else 1) + 37 + (digits k).length := by
  have hcomma : (lit ",").length = 1 := by decide
  rw [opened_succ, List.length_append, List.length_append, length_marshal]
  split_ifs
  · rw [List.length_nil]
    omega
  · rw [hcomma]
    omega

/-- Only the first ten rows are shorter than the estimate, each by one byte. -/
theorem le_length_opened (seed : GoString) (k : ℕ) :
    40 * k ≤ (opened seed k).length + min k 10 := by
  induction k with
  | zero => exact Nat.zero_le _
  | succ k ih =>
    have hpos := length_digits_pos k
    have hlong : 10 ≤ k → 2 ≤ (digits k).length := two_le_length_digits
    rw [length_opened_succ]
    split_ifs with hk
    · rw [hk] at hpos ⊢
      rw [length_opened_zero]
      omega
    · omega

/-- The rows after which the text reaches the target. -/
def Reaches (seed : GoString) (target k : ℕ) : Prop :=
  target ≤ (opened seed k).length ∧ ∀ j < k, (opened seed j).length < target

theorem exists_reaches (seed : GoString) (target : ℕ) : ∃ k, Reaches seed target k := by
  have hlong : ∃ k, target ≤ (opened seed k).length := by
    refine ⟨target + 10, ?_⟩
    have hle := le_length_opened seed (target + 10)
    omega
  exact ⟨Nat.find hlong, Nat.find_spec hlong, fun j hj => not_le.mp (Nat.find_min hlong hj)⟩

/-- The row before the last one is below the target, so the estimate has rows to spare. -/
theorem Reaches.lt_maxIter {seed : GoString} {target k : ℕ} (h : Reaches seed target k) :
    k < maxIter target := by
  cases k with
  | zero => exact Nat.succ_pos _
  | succ k =>
    have hbefore := h.2 k (Nat.lt_succ_self k)
    have hle := le_length_opened seed k
    rw [maxIter]
    omega

/-- Up to the largest target an index has six digits. -/
theorem Reaches.length_le {seed : GoString} {target k : ℕ} (h : Reaches seed target k)
    (hpos : 1 < target) (hmax : target ≤ 10240 * 1024) :
    (opened seed k).length ≤ target + 43 := by
  cases k with
  | zero =>
    rw [length_opened_zero]
    omega
  | succ k =>
    have hbefore := h.2 k (Nat.lt_succ_self k)
    have hle := le_length_opened seed k
    have hdigits : (digits k).length ≤ 6 := length_digits_le (by omega)
    rw [length_opened_succ]
    split_ifs <;> omega

/-! ### The loop -/

/-- What one iteration calls. -/
def rowCalls (flusher : Bool) (seed : GoString) (i : ℕ) : List StreamCall :=
  (if i = 0 then [] else [.call (.write (lit ","))]) ++
    .call (.write (bigBodyRow seed i).marshal) :: (if flusher ∧ i % 64 = 0 then [.flush] else [])

/-- The counter is the length of the text so far. It ends the loop after the row that
reaches the target, whatever the cap, as long as the cap has that row. -/
theorem bigBodyLoop_eq (flusher : Bool) {seed : GoString} {target k : ℕ} {cancelled : ℕ → Bool}
    {taken : ℕ → ℕ} (hconnected : ∀ i, cancelled i = false)
    (hfull : ∀ i, taken i = (bigBodyRow seed i).marshal.length) (h : Reaches seed target k)
    {left i : ℕ} (hi : i ≤ k) (hleft : k ≤ i + left) :
    bigBodyLoop flusher seed target cancelled taken left i (opened seed i).length (i = 0) =
      (List.range' i (k - i)).flatMap (rowCalls flusher seed) ++ [.call (.write (lit "]"))] := by
  induction left generalizing i with
  | zero =>
    have hik : k - i = 0 := by omega
    rw [hik]
    rfl
  | succ left ih =>
    rw [bigBodyLoop]
    rcases lt_or_ge i k with hlt | hge
    · have hstep : k - i = k - (i + 1) + 1 := by omega
      have hcount : (if i = 0 then (opened seed i).length else (opened seed i).length + 1) +
          taken i = (opened seed (i + 1)).length := by
        rw [length_opened_succ, hfull, length_marshal]
        split_ifs <;> omega
      have hrest := ih (Nat.succ_le_of_lt hlt : i + 1 ≤ k) (by omega)
      have hfirst : decide (i + 1 = 0) = false := by simp
      rw [hfirst] at hrest
      rw [if_neg (not_le.mpr (h.2 i hlt)), hconnected, if_neg Bool.false_ne_true, hstep,
        List.range'_succ, List.flatMap_cons, List.append_assoc (rowCalls flusher seed i), ← hrest]
      simp only [decide_eq_true_eq, hcount, rowCalls, List.append_assoc, List.cons_append]
    · have hik : i = k := le_antisymm hi hge
      rw [hik, if_pos h.1, Nat.sub_self]
      rfl

/-- The writes of the rows continue the text. -/
theorem opened_append_writes (flusher : Bool) (seed : GoString) (i n : ℕ) :
    opened seed i ++ (writes ((List.range' i n).flatMap (rowCalls flusher seed))).flatten =
      opened seed (i + n) := by
  induction n generalizing i with
  | zero => exact List.append_nil _
  | succ n ih =>
    have hrow : (writes (rowCalls flusher seed i)).flatten =
        (if i = 0 then [] else lit ",") ++ (bigBodyRow seed i).marshal := by
      rw [rowCalls]
      split_ifs <;> simp [writes]
    rw [List.range'_succ, List.flatMap_cons, writes, List.filterMap_append, ← writes, ← writes,
      List.flatten_append, hrow, ← List.append_assoc, ← List.append_assoc, ← opened_succ, ih]
    congr 1
    omega

/-- All rows, from the first one to the end of the array. -/
theorem writes_rows (flusher : Bool) (seed : GoString) (k : ℕ) :
    (writes (.call (.writeHeader 200) :: .call (.write (lit "[")) ::
      ((List.range' 0 k).flatMap (rowCalls flusher seed) ++
        [.call (.write (lit "]"))]))).flatten = opened seed k ++ lit "]" := by
  have hopened := opened_append_writes flusher seed 0 k
  rw [Nat.zero_add] at hopened
  rw [← hopened]
  simp only [writes, List.filterMap_cons, List.filterMap_append, List.flatten_cons,
    List.flatten_append]
  rfl

/-- A client that stays connected and takes every byte receives a complete array of rows
numbered from 0. The row that ends it is the one that reaches the target; any larger cap
on the rows gives the same calls. -/
theorem bigBody_delivers {q : Values} {sizeKB : ℤ} {cancelled : ℕ → Bool} {taken : ℕ → ℕ}
    (hread : Pagination.readInt (q.get (lit "size_kb")) defaultSizeKB = some sizeKB)
    (hlow : 1 ≤ sizeKB) (hhigh : sizeKB ≤ maxBodyKB) (hconnected : ∀ i, cancelled i = false)
    (hfull : ∀ i, taken i = (bigBodyRow (q.get (lit "seed")) i).marshal.length)
    (flusher : Bool) :
    let target := (sizeKB * 1024).toNat
    let body := (writes ((bigBody q cancelled taken).calls flusher)).flatten
    ∃ k, Json.Derives (.arr ((List.range k).map fun i => (bigBodyRow (q.get (lit "seed")) i).json))
        body ∧
      k < maxIter target ∧
      (∀ cap, maxIter target ≤ cap →
        bigBodyLoop flusher (q.get (lit "seed")) target cancelled taken cap 0 1 true =
          bigBodyLoop flusher (q.get (lit "seed")) target cancelled taken (maxIter target) 0 1
            true) ∧
      1024 * sizeKB + 1 ≤ body.length ∧ (body.length : ℤ) ≤ 1024 * sizeKB + 44 := by
  intro target body
  have hsize : boundedDefault (q.get (lit "size_kb")) defaultSizeKB maxBodyKB (lit "size_kb") =
      .ok sizeKB :=
    Pagination.boundedDefault_of_read (lit "size_kb") hread hlow hhigh
  obtain ⟨k, hk⟩ := exists_reaches (q.get (lit "seed")) target
  have hlt := hk.lt_maxIter
  have hloop : ∀ cap, maxIter target ≤ cap →
      bigBodyLoop flusher (q.get (lit "seed")) target cancelled taken cap 0 1 true =
        (List.range' 0 k).flatMap (rowCalls flusher (q.get (lit "seed"))) ++
          [.call (.write (lit "]"))] :=
    fun cap hcap => bigBodyLoop_eq flusher hconnected hfull hk (Nat.zero_le k) (by omega)
  have hbody : body = opened (q.get (lit "seed")) k ++ lit "]" := by
    rw [← writes_rows flusher, ← hloop _ le_rfl]
    simp only [body, bigBody, hsize]
    rfl
  refine ⟨k, ?_, hlt, fun cap hcap => (hloop cap hcap).trans (hloop _ le_rfl).symm, ?_⟩
  · rw [hbody]
    exact .arr_map (List.range k) fun i _ => derives_marshal _ i
  · have hclose : (lit "]").length = 1 := by decide
    have hreached := hk.1
    unfold maxBodyKB at hhigh
    have hle := hk.length_le (by omega) (by omega)
    rw [hbody, List.length_append, hclose]
    omega

end Handler

/-- A digest that is the same for every text. -/
@[reducible] def zeroSHA256 : SHA256 := ⟨fun _ => Vector.replicate 32 0⟩

/-- A request for one KiB to a writer that flushes. -/
theorem one_kib_delivered :
    let q : Values := [(lit "size_kb", [lit "1"]), (lit "seed", [lit "s"])]
    let taken := fun i => (@bigBodyRow zeroSHA256 (lit "s") i).marshal.length
    let body := (writes ((@bigBody zeroSHA256 q (fun _ => false) taken).calls true)).flatten
    Pagination.readInt (q.get (lit "size_kb")) defaultSizeKB = some 1 ∧
    1025 ≤ body.length ∧ body.length ≤ 1068 := by
  intro q taken body
  have hread : Pagination.readInt (q.get (lit "size_kb")) defaultSizeKB = some 1 := by decide
  obtain ⟨k, -, -, -, hlow, hhigh⟩ := @bigBody_delivers zeroSHA256 q 1 (fun _ => false) taken hread
    le_rfl (by decide) (fun _ => rfl) (fun _ => rfl) true
  change (1024 * 1 + 1 : ℤ) ≤ body.length at hlow
  change (body.length : ℤ) ≤ 1024 * 1 + 44 at hhigh
  exact ⟨hread, by omega, by omega⟩

end ApiTest.Endpoints.Export
