import Mathlib.Data.List.TakeDrop

/-! A buffer that keeps the beginning of a stream. The stream arrives in chunks of any
size; the buffer takes what it has room for, and notes whether it had to leave
anything out. Whatever the chunks are, it ends up with the first items of the whole
stream, and with the note exactly if there are more. -/

namespace ApiTest.Capped

variable {α : Type*}

structure Buffer (α : Type*) where
  kept : List α := []
  dropped : Bool := false
  deriving DecidableEq

/-- Take the part of a chunk there is room for. -/
def Buffer.push (cap : ℕ) (b : Buffer α) (chunk : List α) : Buffer α where
  kept := b.kept ++ chunk.take (cap - b.kept.length)
  dropped := b.dropped || cap - b.kept.length < chunk.length

/-- What is kept of a whole stream. -/
def keep (cap : ℕ) (stream : List α) : Buffer α := ⟨stream.take cap, cap < stream.length⟩

variable {cap : ℕ} {stream chunk : List α}

@[simp] theorem keep_nil : keep cap ([] : List α) = {} := by
  simp [keep]

/-- The room that is left, whether the cap was reached or not. -/
theorem room_keep : cap - (keep cap stream).kept.length = cap - stream.length := by
  simp only [keep, List.length_take]
  omega

/-- One chunk more. -/
theorem push_keep : (keep cap stream).push cap chunk = keep cap (stream ++ chunk) := by
  rw [Buffer.push, room_keep, keep, keep, List.take_append, List.length_append, ← Bool.decide_or]
  congr 2
  rw [eq_iff_iff]
  omega

/-- All chunks of a stream. -/
theorem foldl_push (chunks : List (List α)) :
    chunks.foldl (Buffer.push cap) (keep cap stream) = keep cap (stream ++ chunks.flatten) := by
  induction chunks generalizing stream with
  | nil => simp
  | cons chunk chunks ih =>
    rw [List.foldl_cons, push_keep, ih, List.flatten_cons, List.append_assoc]

end ApiTest.Capped
