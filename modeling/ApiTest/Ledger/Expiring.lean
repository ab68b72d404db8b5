import Mathlib.Data.Int.Notation
import Mathlib.Data.List.Basic

/-! A ledger of used keys whose entries expire. To consume a key is to drop the
entries older than the lifetime, to refuse the key if it is still there, and to
enter it otherwise. An entry stays for its lifetime, so the same key is consumed
again only after that. Along a history of calls in time the ledger holds those of the
keys consumed so far that are within their lifetime, and this decides the next call. -/

namespace ApiTest.Ledger

variable {κ : Type*} [DecidableEq κ]

def evict (ttl now : ℤ) (ledger : List (κ × ℤ)) : List (κ × ℤ) :=
  ledger.filter fun e => now - e.2 ≤ ttl

/-- Whether the key was fresh, and the ledger afterwards. -/
def consume (ttl now : ℤ) (key : κ) (ledger : List (κ × ℤ)) : Bool × List (κ × ℤ) :=
  let kept := evict ttl now ledger
  if kept.any (·.1 = key) then (false, kept) else (true, (key, now) :: kept)

variable {ttl now : ℤ} {key : κ} {ledger : List (κ × ℤ)} {e : κ × ℤ}

omit [DecidableEq κ] in
theorem mem_evict : e ∈ evict ttl now ledger ↔ e ∈ ledger ∧ now - e.2 ≤ ttl := by
  simp [evict]

/-- What is past its lifetime stays so. -/
theorem old_of_le {clock time : ℤ} (h : clock ≤ now) (hold : ttl < clock - time) :
    ttl < now - time := by
  omega

/-- An entry is kept for its lifetime. -/
theorem mem_consume (he : e ∈ ledger) (hage : now - e.2 ≤ ttl) :
    e ∈ (consume ttl now key ledger).2 := by
  have hkept := mem_evict.mpr ⟨he, hage⟩
  simp only [consume]
  split_ifs
  · exact hkept
  · exact List.mem_cons_of_mem _ hkept

/-- A fresh key is entered. -/
theorem recorded_of_fresh (h : (consume ttl now key ledger).1 = true) :
    (key, now) ∈ (consume ttl now key ledger).2 := by
  simp only [consume] at h ⊢
  split_ifs at h ⊢
  exact List.mem_cons_self

/-- The entries of a fresh key are older than the lifetime. -/
theorem age_of_fresh (h : (consume ttl now key ledger).1 = true) (he : e ∈ ledger)
    (hkey : e.1 = key) : ttl < now - e.2 := by
  simp only [consume] at h
  split_ifs at h with hany
  by_contra hage
  apply hany
  rw [List.any_eq_true]
  exact ⟨e, mem_evict.mpr ⟨he, Int.not_lt.mp hage⟩, decide_eq_true hkey⟩

/-! ### Histories -/

/-- At a time the ledger holds entries of a history of consumed keys, and all of those
that are within their lifetime. -/
structure Tracks (ttl clock : ℤ) (history : κ × ℤ → Prop) (ledger : List (κ × ℤ)) : Prop where
  sound : ∀ e ∈ ledger, history e
  complete : ∀ e, history e → clock - e.2 ≤ ttl → e ∈ ledger

variable {clock : ℤ} {history history' : κ × ℤ → Prop}

omit [DecidableEq κ] in
/-- Nothing but time passes. -/
theorem Tracks.wait (h : Tracks ttl clock history ledger) (hnow : clock ≤ now) :
    Tracks ttl now history ledger where
  sound := h.sound
  complete e he hage := h.complete e he (by omega)

/-- A key is fresh exactly if it was not consumed within its lifetime. -/
theorem Tracks.fresh_iff (h : Tracks ttl now history ledger) (key : κ) :
    (consume ttl now key ledger).1 = true ↔ ∀ e, history e → e.1 = key → ttl < now - e.2 := by
  constructor
  · intro hfresh e he hkey
    by_contra hage
    exact hage (age_of_fresh hfresh (h.complete e he (by omega)) hkey)
  · intro hold
    simp only [consume]
    split_ifs with hany
    · obtain ⟨e, he, hkey⟩ := List.any_eq_true.mp hany
      obtain ⟨hmem, hage⟩ := mem_evict.mp he
      have hlate := hold e (h.sound e hmem) (of_decide_eq_true hkey)
      omega
    · rfl

/-- A call adds its key to the history if it was fresh. -/
theorem Tracks.consume (h : Tracks ttl now history ledger) (key : κ)
    (hhistory : ∀ e, history' e ↔
      history e ∨ (consume ttl now key ledger).1 = true ∧ e = (key, now)) :
    Tracks ttl now history' (consume ttl now key ledger).2 := by
  by_cases hany : (evict ttl now ledger).any (·.1 = key) = true
  · have hused : Ledger.consume ttl now key ledger = (false, evict ttl now ledger) := if_pos hany
    simp only [hused, Bool.false_eq_true, false_and, or_false] at hhistory ⊢
    refine ⟨fun e he => (hhistory e).mpr (h.sound e (mem_evict.mp he).1), fun e he hage => ?_⟩
    exact mem_evict.mpr ⟨h.complete e ((hhistory e).mp he) hage, hage⟩
  · have hfresh : Ledger.consume ttl now key ledger = (true, (key, now) :: evict ttl now ledger) :=
      if_neg hany
    simp only [hfresh, true_and] at hhistory ⊢
    refine ⟨fun e he => ?_, fun e he hage => ?_⟩
    · obtain rfl | he := List.mem_cons.mp he
      · exact (hhistory _).mpr (Or.inr rfl)
      · exact (hhistory e).mpr (Or.inl (h.sound e (mem_evict.mp he).1))
    · obtain he | rfl := (hhistory e).mp he
      · exact List.mem_cons_of_mem _ (mem_evict.mpr ⟨h.complete e he hage, hage⟩)
      · exact List.mem_cons_self

/-- Behind a call no entry is past its lifetime. -/
theorem age_of_mem_consume (httl : 0 ≤ ttl) (he : e ∈ (consume ttl now key ledger).2) :
    now - e.2 ≤ ttl := by
  simp only [Ledger.consume] at he
  split_ifs at he
  · exact (mem_evict.mp he).2
  · obtain rfl | he := List.mem_cons.mp he
    · simpa using httl
    · exact (mem_evict.mp he).2

end ApiTest.Ledger
