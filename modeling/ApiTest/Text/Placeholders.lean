import ApiTest.Text.Decimal

/-! Numbered placeholders in a text: a dollar sign and the decimal digits behind it. A
reader goes through the text byte by byte and keeps the numbers it has finished and
the one it is in. What a text adds to the numbers does not depend on where it stands,
provided that it does not start with a digit. -/

namespace ApiTest.Text.Placeholders

def dollar : UInt8 := 0x24

/-- The numbers read so far, and the one that may go on. -/
structure Reader where
  done : List ℕ := []
  current : Option ℕ := none

/-- All numbers, if the text ends here. -/
def Reader.numbers (p : Reader) : List ℕ := p.done ++ p.current.toList

def Reader.step (p : Reader) (c : UInt8) : Reader :=
  if c = dollar then ⟨p.numbers, some 0⟩
  else if isDecimal c then ⟨p.done, p.current.map fun n => n * 10 + (c.toNat - 0x30)⟩
  else ⟨p.numbers, none⟩

def Reader.read (p : Reader) (text : GoString) : Reader := text.foldl Reader.step p

/-- The numbers of the placeholders of a text, in their order. -/
def placeholders (text : GoString) : List ℕ := (Reader.read {} text).numbers

example : placeholders (lit "a = $1 AND (b = $12 OR c < 3)") = [1, 12] := by decide

/-- A text that adds these numbers wherever it stands. -/
def Adds (text : GoString) (numbers : List ℕ) : Prop :=
  ∀ p : Reader, (p.read text).numbers = p.numbers ++ numbers

theorem Adds.placeholders_eq {text : GoString} {numbers : List ℕ} (h : Adds text numbers) :
    placeholders text = numbers := h {}

theorem adds_nil : Adds [] [] := fun p => (List.append_nil p.numbers).symm

theorem Adds.append {s t : GoString} {m n : List ℕ} (hs : Adds s m) (ht : Adds t n) :
    Adds (s ++ t) (m ++ n) := by
  intro p
  rw [Reader.read, List.foldl_append]
  change ((p.read s).read t).numbers = _
  rw [ht, hs, List.append_assoc]

theorem read_plain {text : GoString} (h : dollar ∉ text) (done : List ℕ) :
    Reader.read ⟨done, none⟩ text = ⟨done, none⟩ := by
  induction text with
  | nil => rfl
  | cons c text ih =>
    rw [List.mem_cons, not_or] at h
    have hstep : Reader.step ⟨done, none⟩ c = ⟨done, none⟩ := by
      rw [Reader.step, if_neg (Ne.symm h.1)]
      split_ifs
      · rfl
      · rw [Reader.numbers, Option.toList_none, List.append_nil]
    rw [Reader.read, List.foldl_cons, hstep]
    exact ih h.2

/-- A text without dollar signs that does not start with a digit. -/
def isPlain : GoString → Bool
  | [] => true
  | c :: text => !isDecimal c && (c :: text).all (· ≠ dollar)

theorem isPlain_append {s t : GoString} (hs : isPlain s = true) (hne : s ≠ []) (ht : dollar ∉ t) :
    isPlain (s ++ t) = true := by
  cases s with
  | nil => exact absurd rfl hne
  | cons c s =>
    rw [isPlain, Bool.and_eq_true] at hs
    rw [List.cons_append, isPlain, Bool.and_eq_true, ← List.cons_append, List.all_append,
      Bool.and_eq_true]
    refine ⟨hs.1, hs.2, ?_⟩
    rw [List.all_eq_true]
    intro c hc
    simpa using ne_of_mem_of_not_mem hc ht

theorem adds_plain {text : GoString} (h : isPlain text = true) : Adds text [] := by
  cases text with
  | nil => exact adds_nil
  | cons c text =>
    intro p
    rw [isPlain, Bool.and_eq_true, Bool.not_eq_true', List.all_cons, Bool.and_eq_true,
      decide_eq_true_eq] at h
    obtain ⟨hdigit, hc, htext⟩ := h
    have hnotMem : dollar ∉ text := by
      intro hmem
      simpa using List.all_eq_true.mp htext dollar hmem
    have hstep : p.step c = ⟨p.numbers, none⟩ := by
      rw [Reader.step, if_neg hc, if_neg (by simp [hdigit])]
    rw [Reader.read, List.foldl_cons, hstep]
    change (Reader.read ⟨p.numbers, none⟩ text).numbers = _
    rw [read_plain hnotMem]
    rfl

theorem read_digits (n : ℕ) (done : List ℕ) :
    Reader.read ⟨done, some 0⟩ (digits n) = ⟨done, some n⟩ := by
  induction n using Nat.strong_induction_on with
  | _ n ih =>
    -- the last digit, behind those of `n / 10`
    have hlast : ∀ m, m * 10 + n % 10 = n →
        Reader.read ⟨done, some m⟩ [digitByte (n % 10)] = ⟨done, some n⟩ := by
      intro m hm
      obtain ⟨-, hdigit, hvalue⟩ := digitByte_of_lt (Nat.mod_lt n (by omega : 10 > 0))
      have hdollar : digitByte (n % 10) ≠ dollar := by
        intro h
        rw [h] at hdigit
        exact absurd hdigit (by decide)
      rw [Reader.read, List.foldl_cons, List.foldl_nil, Reader.step, if_neg hdollar, if_pos hdigit,
        Option.map_some, hvalue, hm]
    rw [digits_eq, Reader.read, List.foldl_append]
    change Reader.read (Reader.read _ _) _ = _
    split_ifs with hn
    · exact hlast 0 (by omega)
    · rw [ih (n / 10) (by omega)]
      exact hlast (n / 10) (by omega)

/-- A placeholder adds its number. -/
theorem adds_placeholder (n : ℕ) : Adds (dollar :: digits n) [n] := by
  intro p
  have hstep : p.step dollar = ⟨p.numbers, some 0⟩ := if_pos rfl
  rw [Reader.read, List.foldl_cons, hstep]
  change (Reader.read ⟨p.numbers, some 0⟩ (digits n)).numbers = _
  rw [read_digits]
  rfl

/-- Texts joined by a separator without placeholders. -/
theorem adds_intercalate {ι : Type*} {separator : GoString} (hsep : isPlain separator = true)
    {text : ι → GoString} {numbers : ι → List ℕ} {l : List ι}
    (h : ∀ i ∈ l, Adds (text i) (numbers i)) :
    Adds (separator.intercalate (l.map text)) (l.flatMap numbers) := by
  induction l with
  | nil => exact adds_nil
  | cons i l ih =>
    rw [List.forall_mem_cons] at h
    cases l with
    | nil =>
      rw [List.flatMap_singleton, List.map_singleton, List.intercalate_singleton]
      exact h.1
    | cons j l =>
      rw [List.map_cons, List.map_cons, List.intercalate_cons_cons, List.flatMap_cons]
      have hfirst := h.1.append (adds_plain hsep)
      rw [List.append_nil] at hfirst
      exact hfirst.append (ih h.2)

end ApiTest.Text.Placeholders
