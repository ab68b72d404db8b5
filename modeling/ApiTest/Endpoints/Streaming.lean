import ApiTest.Audit.Event
import ApiTest.Net.Writer

/-! The streaming handlers: `chunked`, `sse` and `ndjson` of
`pkg/endpoints/streaming`, and the opening of the portal's `auditStream`. The
first three write one item after the other and flush after each if the writer
can; `auditStream` refuses to run on a writer that cannot. The words of an item
come from a seeded generator and are a parameter. -/

namespace ApiTest.Endpoints.Streaming

open Text Audit Net

def maxCount : ℤ := 1000
def maxDelayMS : ℤ := 5000
def defaultCount : ℤ := 5

structure StreamQuery where
  count : ℤ
  delayMS : ℤ := 0
  seed : GoString

/-- A bounded parameter; a blank value is the default. -/
def boundedParam (q : Values) (key : String) (max default : ℤ) : Except GoString ℤ :=
  let raw := q.get (lit key)
  if raw = [] then .ok default
  else match atoi raw with
    | (n, none) =>
      if n < 0 then .error (lit key ++ lit " must be a non-negative integer")
      else if max < n then .error (lit key ++ lit " " ++ itoa n ++ lit " exceeds max " ++ itoa max)
      else .ok n
    | (_, some _) => .error (lit key ++ lit " must be a non-negative integer")

/-- `parseStreamQuery`; the error is the message of the 400. -/
def parseStreamQuery (q : Values) : Except GoString StreamQuery := do
  let count ← boundedParam q "count" maxCount defaultCount
  let delayMS ← boundedParam q "delay_ms" maxDelayMS 0
  return { count := count, delayMS := delayMS, seed := q.get (lit "seed") }

/-- An error envelope; the messages hold nothing JSON escapes. -/
def errorBody (msg : GoString) : GoString :=
  lit "\x7b\"error\":\"" ++ msg ++ lit "\"\x7d\n"

/-- A status and one JSON document. -/
def writeJSON (code : ℤ) (body : GoString) : List StreamCall :=
  [.call (.writeHeader code), .call (.write body)]

section Loop
variable (flusher : Bool) (item : ℕ → GoString) (delayMS : ℤ) (waits : ℕ → Bool)

/-- The loop over the items that are left, from item `i`. `waits i` says whether
the delay after item `i` ends before the request is cancelled. -/
def streamLoop : ℕ → ℕ → List StreamCall
  | 0, _ => []
  | left + 1, i =>
    .call (.write (item i)) :: (if flusher then [.flush] else []) ++
      if 0 < delayMS ∧ left ≠ 0 ∧ waits i = false then [] else streamLoop left (i + 1)

end Loop

/-- Without a flusher the loop writes only. -/
theorem noFlush_streamLoop (item : ℕ → GoString) (delayMS : ℤ) (waits : ℕ → Bool) (left i : ℕ) :
    .flush ∉ streamLoop false item delayMS waits left i := by
  induction left generalizing i with
  | zero => simp [streamLoop]
  | succ left ih =>
    rw [streamLoop]
    by_cases hstop : 0 < delayMS ∧ left ≠ 0 ∧ waits i = false
    · rw [if_pos hstop]
      simp
    · rw [if_neg hstop]
      simpa using ih (i + 1)

/-- The body shared by the three handlers. -/
def streamHandler (item : StreamQuery → ℕ → GoString) (q : Values) (waits : ℕ → Bool) :
    StreamHandler where
  calls flusher := match parseStreamQuery q with
    | .error msg => writeJSON 400 (errorBody msg)
    | .ok sq =>
      .call (.writeHeader 200) :: streamLoop flusher (item sq) sq.delayMS waits sq.count.toNat 0
  noFlush := by
    cases parseStreamQuery q with
    | error msg => simp [writeJSON]
    | ok sq => simpa using noFlush_streamLoop (item sq) sq.delayMS waits sq.count.toNat 0

section Handlers
variable (word : GoString → ℕ → GoString) (q : Values) (waits : ℕ → Bool)

def chunked : StreamHandler :=
  streamHandler (fun sq i => lit "chunk " ++ itoa i ++ lit ": " ++ word sq.seed i ++ lit "\n") q waits

def sse : StreamHandler :=
  streamHandler (fun sq i => lit "id: " ++ itoa i ++ lit "\ndata: \x7b\"id\":" ++ itoa i ++
    lit ",\"word\":\"" ++ word sq.seed i ++ lit "\"\x7d\n\n") q waits

def ndjson : StreamHandler :=
  streamHandler (fun sq i => lit "\x7b\"index\":" ++ itoa i ++ lit ",\"word\":\"" ++
    word sq.seed i ++ lit "\"\x7d\n") q waits

end Handlers

/-- `auditStream`: the opening comment and the calls of the poll loop, or the
refusal of a writer that cannot flush. -/
def auditStream (loop : List StreamCall) : StreamHandler where
  calls flusher :=
    if flusher then
      .call (.writeHeader 200) :: .call (.write (lit ": stream open\n")) :: .flush :: loop
    else writeJSON 500 (errorBody (lit "streaming not supported by this writer"))
  noFlush := by simp [writeJSON]

end ApiTest.Endpoints.Streaming
