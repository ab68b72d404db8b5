import ApiTest.Audit.Event
import ApiTest.Multimap.Basic

/-! What redaction keeps and what it hides. The keys of a captured map are all
kept; under a key that matches, the only value is `[redacted]`, whatever stood
there, and under any other key the values are kept. Captured maps that differ in
matching values only are therefore equal. -/

namespace ApiTest.Audit

open Text Multimap

variable [UnicodeCase] (redactKeys : List GoString)

theorem sanitize_eq (h : Values) : sanitize h redactKeys =
    h.map fun e => (e.1, if matchesRedactKey e.1 redactKeys then [redacted] else e.2) := by
  apply List.map_congr_left
  intro e _
  dsimp only
  split_ifs <;> rfl

/-- Without keys nothing matches, so the copy made in that case is no exception. -/
theorem sanitizeHeaders_eq (h : Values) :
    sanitizeHeaders h redactKeys = sanitize h redactKeys := by
  unfold sanitizeHeaders
  split_ifs with hkeys
  · subst hkeys
    exact (List.map_id'' (fun _ => rfl) h).symm
  · rfl

theorem sanitizeQuery_eq (q : Values) : sanitizeQuery q redactKeys = sanitize q redactKeys :=
  sanitizeHeaders_eq redactKeys q

/-- The names are kept. -/
@[simp] theorem map_fst_sanitize (h : Values) :
    (sanitize h redactKeys).map Prod.fst = h.map Prod.fst := by
  rw [sanitize_eq, List.map_map]
  rfl

theorem lookup_sanitize (h : Values) (key : GoString) :
    (sanitize h redactKeys).lookup key =
      (h.lookup key).map fun vs => if matchesRedactKey key redactKeys then [redacted] else vs := by
  rw [sanitize_eq]
  exact lookup_map_snd (fun k vs => if matchesRedactKey k redactKeys then [redacted] else vs) h key

/-- Maps that agree apart from values under matching keys are captured alike. -/
theorem sanitize_eq_of_agreeOff {hidden : GoString → Bool} {h h' : Values}
    (hmatch : ∀ k, hidden k = true → matchesRedactKey k redactKeys = true)
    (hagree : AgreeOff hidden h h') : sanitize h redactKeys = sanitize h' redactKeys := by
  rw [sanitize_eq, sanitize_eq]
  refine hagree.map_eq
    (f := fun k vs => (k, if matchesRedactKey k redactKeys then [redacted] else vs)) ?_
  intro k hk vs vs'
  simp only [hmatch k hk, if_true]

end ApiTest.Audit
