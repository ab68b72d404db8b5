import ApiTest.Text.GoString

/-! `io.ReadCloser`, the type of a request body. A `Read` fills the buffer it is given
in place, says how many bytes it read, and may return an error together with bytes; a
short read is no error. Errors are any type. -/

namespace ApiTest.Net

open ApiTest.Text

variable {σ ε : Type}

/-- What a `Read` leaves: the buffer of the caller, the number of bytes at its
beginning that were read, and the error. -/
structure ReadResult (ε : Type) where
  buffer : GoString
  n : ℕ
  err : Option ε
  deriving DecidableEq

/-- `p[:n]`. -/
def ReadResult.bytes (res : ReadResult ε) : GoString := res.buffer.take res.n

/-- The method set of a body over its state, with the contract of `io.Reader`: the
buffer keeps its length, and no more bytes are counted than it holds. -/
structure ReadCloser (σ ε : Type) where
  read : GoString → σ → ReadResult ε × σ
  close : σ → Option ε × σ
  length_buffer : ∀ p s, (read p s).1.buffer.length = p.length
  n_le : ∀ p s, (read p s).1.n ≤ p.length

/-- A call on a body. -/
inductive BodyCall where
  | read (p : GoString)
  | close

/-- What the caller sees of a call. -/
inductive BodyResult (ε : Type) where
  | read (res : ReadResult ε)
  | closed (err : Option ε)
  deriving DecidableEq

/-- The bytes a call has read. -/
def BodyResult.bytes : BodyResult ε → GoString
  | .read res => res.bytes
  | .closed _ => []

namespace ReadCloser

variable (R : ReadCloser σ ε)

def call (s : σ) : BodyCall → BodyResult ε × σ
  | .read p => (.read (R.read p s).1, (R.read p s).2)
  | .close => (.closed (R.close s).1, (R.close s).2)

/-- The results of the calls, in order, and the state they leave. -/
def run : σ → List BodyCall → List (BodyResult ε) × σ
  | s, [] => ([], s)
  | s, c :: calls => ((R.call s c).1 :: (run (R.call s c).2 calls).1, (run (R.call s c).2 calls).2)

theorem length_bytes (p : GoString) (s : σ) : (R.read p s).1.bytes.length = (R.read p s).1.n := by
  rw [ReadResult.bytes, List.length_take, R.length_buffer, min_eq_left (R.n_le p s)]

/-- A call has read bytes if and only if it says so. -/
theorem bytes_ne_nil {p : GoString} {s : σ} : (R.read p s).1.bytes ≠ [] ↔ 0 < (R.read p s).1.n := by
  rw [← List.length_pos_iff, length_bytes]

end ReadCloser

/-- All bytes some calls have read. -/
def bytesRead (results : List (BodyResult ε)) : GoString := results.flatMap BodyResult.bytes

end ApiTest.Net
