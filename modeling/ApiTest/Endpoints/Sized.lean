import ApiTest.Endpoints.Streaming
import ApiTest.Json.Grammar

/-! `GET /v1/sized` (`pkg/endpoints/data`). The body is written in chunks from one
buffer that is filled again for each chunk. The buffer is not a whole number of
alphabets long, so a chunk starts in the middle of one; where, is known from the number
of bytes that were written before. -/

namespace ApiTest.Endpoints.Data

open Text Audit Net Streaming

def sizedAlphabet : GoString := lit "abcdefghijklmnopqrstuvwxyz"

def sizedMax : ℤ := 32 * 2 ^ 20

/-- `sizedAlphabet[k%len(sizedAlphabet)]`. -/
def letter (k : ℕ) : UInt8 := sizedAlphabet.getD (k % sizedAlphabet.length) 0

/-- `buf`, with its length. -/
abbrev Chunk := Vector UInt8 4096

/-- The inner loop from index `i` on. -/
def fillFrom (written chunk : ℕ) (buf : Chunk) (i : ℕ) : Chunk :=
  if i < chunk then fillFrom written chunk (buf.setIfInBounds i (letter (written + i))) (i + 1)
  else buf
termination_by chunk - i

/-- The outer loop: what it writes from `written` bytes on. -/
def writeChunks (n written : ℕ) (buf : Chunk) : List GoString :=
  if written < n then
    let chunk := n - written
    let chunk := if 4096 < chunk then 4096 else chunk
    let buf := fillFrom written chunk buf 0
    buf.toList.take chunk :: writeChunks n (written + chunk) buf
  else []
termination_by n - written
decreasing_by
  split_ifs <;> omega

/-- `sized`. -/
def sized (q : Values) : List StreamCall :=
  match atoi (q.get (lit "bytes")) with
  | (n, none) =>
    if n < 0 then writeJSON 400 (errorBody (lit "bytes must be a non-negative integer"))
    else if sizedMax < n then
      writeJSON 400 (errorBody (lit "bytes " ++ itoa n ++ lit " exceeds max " ++ itoa sizedMax))
    else
      .call (.writeHeader 200) ::
        .call (.write (lit "\x7b\"bytes\":" ++ itoa n ++ lit ",\"body\":\"")) ::
        (if 0 < n then
          (writeChunks n.toNat 0 (Vector.replicate 4096 0)).map fun b => .call (.write b)
        else []) ++
        [.call (.write (lit "\"\x7d"))]
  | (_, some _) => writeJSON 400 (errorBody (lit "bytes must be a non-negative integer"))

/-! ### The loops -/

/-- The inner loop sets the indices from `i` up to the chunk and no others. -/
theorem getElem?_fillFrom (written chunk : ℕ) (buf : Chunk) (i j : ℕ) (hj : j < 4096) :
    (fillFrom written chunk buf i)[j]? =
      if i ≤ j ∧ j < chunk then some (letter (written + j)) else buf[j]? := by
  fun_induction fillFrom written chunk buf i with
  | case1 buf i hi ih =>
    rw [ih, Vector.getElem?_setIfInBounds]
    by_cases hij : i = j
    · subst hij
      simp [hi, hj]
    · rw [if_neg hij]
      exact if_congr (by omega) rfl rfl
  | case2 buf i hi => rw [if_neg (by omega)]

/-- A chunk holds the letters from where the one before it ended. -/
theorem take_fillFrom (written : ℕ) {chunk : ℕ} (buf : Chunk) (hchunk : chunk ≤ 4096) :
    (fillFrom written chunk buf 0).toList.take chunk =
      (List.range' written chunk).map letter := by
  apply List.ext_getElem?
  intro j
  by_cases hj : j < chunk
  · have hget := getElem?_fillFrom written chunk buf 0 j (by omega)
    rw [if_pos ⟨Nat.zero_le j, hj⟩] at hget
    rw [List.getElem?_take, if_pos hj, Vector.getElem?_toList, hget, List.getElem?_map,
      List.getElem?_range' hj, Option.map_some, Nat.one_mul]
  · rw [List.getElem?_take, if_neg hj, List.getElem?_eq_none]
    simpa using hj

/-- The chunks are the letters that are left, whatever the buffer holds. -/
theorem flatten_writeChunks (n written : ℕ) (buf : Chunk) :
    (writeChunks n written buf).flatten = (List.range' written (n - written)).map letter := by
  fun_induction writeChunks n written buf with
  | case1 written buf hlt chunk chunk' buf' ih =>
    have hle : chunk' ≤ 4096 := by
      simp only [chunk']
      split_ifs <;> omega
    have hrest : n - written = chunk' + (n - (written + chunk')) := by
      simp only [chunk', chunk]
      split_ifs <;> omega
    rw [List.flatten_cons, ih, take_fillFrom written buf hle, hrest, ← List.map_append,
      List.range'_append_1]
  | case2 written buf hge =>
    rw [Nat.sub_eq_zero_of_le (not_lt.mp hge)]
    rfl

/-- The loop ends after one write for each 4096 bytes and one for the rest. -/
theorem length_writeChunks (n written : ℕ) (buf : Chunk) :
    (writeChunks n written buf).length = (n - written + 4095) / 4096 := by
  fun_induction writeChunks n written buf with
  | case1 written buf hlt chunk chunk' buf' ih =>
    rw [List.length_cons, ih]
    simp only [chunk', chunk]
    split_ifs <;> omega
  | case2 written buf hge => simp [Nat.sub_eq_zero_of_le (not_lt.mp hge)]

/-! ### The response -/

theorem isLiteral_letter (k : ℕ) : Json.isLiteral (letter k) = true := by
  have hall : ∀ j < 26, Json.isLiteral (sizedAlphabet.getD j 0) = true := by decide
  have hlength : sizedAlphabet.length = 26 := by decide
  rw [letter, hlength]
  exact hall _ (Nat.mod_lt k (by decide))

theorem writes_map_write (bs : List GoString) :
    writes (bs.map fun b => StreamCall.call (.write b)) = bs := by
  rw [writes, List.filterMap_map]
  exact List.filterMap_some

/-- What is written for a size within the bounds. -/
theorem writes_sized {q : Values} {n : ℕ} (hread : atoi (q.get (lit "bytes")) = ((n : ℤ), none))
    (hmax : (n : ℤ) ≤ sizedMax) :
    writes (sized q) = (lit "\x7b\"bytes\":" ++ digits n ++ lit ",\"body\":\"") ::
      writeChunks n 0 (Vector.replicate 4096 0) ++ [lit "\"\x7d"] := by
  have hnonneg : ¬ (n : ℤ) < 0 := by omega
  -- without bytes the loop is skipped, and would have written nothing
  have hloop : (if (0 : ℤ) < n then
      (writeChunks n 0 (Vector.replicate 4096 0)).map fun b => StreamCall.call (.write b) else []) =
      (writeChunks n 0 (Vector.replicate 4096 0)).map fun b => StreamCall.call (.write b) := by
    split_ifs with hpos
    · rfl
    · have hzero : n = 0 := by omega
      rw [hzero, writeChunks, if_neg (Nat.lt_irrefl 0), List.map_nil]
  simp only [sized, hread]
  rw [if_neg hnonneg, if_neg (Int.not_lt.mpr hmax), itoa_natCast, Int.toNat_natCast, hloop]
  rw [writes, List.filterMap_append]
  exact congrArg (fun bs => _ :: bs ++ [lit "\"\x7d"]) (writes_map_write _)

/-- For every size within the bounds the loops end, after as many writes as there are
chunks, and all writes together are the JSON object with the size and the first letters
of the repeated alphabet. -/
theorem sized_body {q : Values} {n : ℕ} (hread : atoi (q.get (lit "bytes")) = ((n : ℤ), none))
    (hmax : (n : ℤ) ≤ sizedMax) :
    ∃ body : GoString, body.length = n ∧
      (∀ i < n, body[i]? = sizedAlphabet[i % 26]?) ∧
      (writeChunks n 0 (Vector.replicate 4096 0)).length = (n + 4095) / 4096 ∧
      (writeChunks n 0 (Vector.replicate 4096 0)).flatten = body ∧
      (writes (sized q)).flatten =
        lit "\x7b\"bytes\":" ++ digits n ++ lit ",\"body\":\"" ++ body ++ lit "\"\x7d" ∧
      Json.Derives (.obj [(lit "bytes", .num n), (lit "body", .str body)])
        (writes (sized q)).flatten := by
  have hchunks := flatten_writeChunks n 0 (Vector.replicate 4096 0)
  have hcount := length_writeChunks n 0 (Vector.replicate 4096 0)
  rw [Nat.sub_zero] at hchunks hcount
  have hwrites : (writes (sized q)).flatten = lit "\x7b\"bytes\":" ++ digits n ++
      lit ",\"body\":\"" ++ (List.range' 0 n).map letter ++ lit "\"\x7d" := by
    rw [writes_sized hread hmax, List.flatten_append, List.flatten_cons, hchunks,
      List.flatten_singleton]
  refine ⟨(List.range' 0 n).map letter, by simp, fun i hi => ?_, hcount, hchunks, hwrites, ?_⟩
  · have hlength : sizedAlphabet.length = 26 := by decide
    have hlt : i % 26 < sizedAlphabet.length := by
      rw [hlength]
      exact Nat.mod_lt i (by decide)
    rw [List.getElem?_map, List.getElem?_range' hi, Option.map_some, Nat.one_mul, Nat.zero_add,
      letter, hlength, List.getD_eq_getElem?_getD, List.getElem?_eq_getElem hlt, Option.getD_some]
  · have hplain : ((List.range' 0 n).map letter).all Json.isLiteral = true := by
      rw [List.all_map, List.all_eq_true]
      exact fun k _ => isLiteral_letter k
    rw [hwrites]
    exact .obj_nat_str n (by decide) (by decide) hplain (by decide) (by decide)

/-- A request for letters that fill a chunk and begin another, where the alphabet goes on. -/
theorem two_chunks_written :
    let q : Values := [(lit "bytes", [lit "4100"])]
    atoi (q.get (lit "bytes")) = (((4100 : ℕ) : ℤ), none) ∧ ((4100 : ℕ) : ℤ) ≤ sizedMax ∧
    (writeChunks 4100 0 (Vector.replicate 4096 0)).length = 2 ∧
    ∃ body : GoString, body.length = 4100 ∧ body[4095]? = some 0x6E ∧ body[4096]? = some 0x6F ∧
      (writes (sized q)).flatten = lit "\x7b\"bytes\":4100,\"body\":\"" ++ body ++ lit "\"\x7d" := by
  intro q
  have hread : atoi (q.get (lit "bytes")) = (((4100 : ℕ) : ℤ), none) := by decide
  have hmax : ((4100 : ℕ) : ℤ) ≤ sizedMax := by decide
  obtain ⟨body, hlength, hget, hcount, -, hwrites, -⟩ := sized_body hread hmax
  have hhead : lit "\x7b\"bytes\":" ++ digits 4100 ++ lit ",\"body\":\"" =
      lit "\x7b\"bytes\":4100,\"body\":\"" := by decide
  refine ⟨hread, hmax, hcount, body, hlength, (hget 4095 (by omega)).trans (by decide),
    (hget 4096 (by omega)).trans (by decide), ?_⟩
  rw [hwrites, hhead]

end ApiTest.Endpoints.Data
