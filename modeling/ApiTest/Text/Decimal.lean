import ApiTest.Text.GoString

/-! Machine integers and their decimal numerals. An `int` has 64 bits and wraps. The
digits of a number are written from the last one on, and reading them from the first
one on gives the number back as long as it is in the range of the reader. -/

namespace ApiTest.Text

/-- The value of an `int` whose mathematical value is `n`. -/
def wrap (n : ℤ) : ℤ := n.bmod (2 ^ 64)

/-- The range of an `int`. -/
def IsInt (n : ℤ) : Prop := -2 ^ 63 ≤ n ∧ n < 2 ^ 63

theorem wrap_eq {n : ℤ} (h : IsInt n) : wrap n = n := by
  obtain ⟨hlow, hhigh⟩ := h
  apply Int.bmod_eq_of_le <;> omega

/-- The byte of a decimal digit. -/
def digitByte (d : ℕ) : UInt8 := UInt8.ofNat (0x30 + d)

def isDecimal (c : UInt8) : Bool := 0x30 ≤ c && c ≤ 0x39

theorem digitByte_of_lt {d : ℕ} (h : d < 10) :
    d.digitChar.toNat.toUInt8 = digitByte d ∧ isDecimal (digitByte d) = true ∧
      (digitByte d).toNat - 0x30 = d :=
  (show ∀ d < 10, d.digitChar.toNat.toUInt8 = digitByte d ∧ isDecimal (digitByte d) = true ∧
    (digitByte d).toNat - 0x30 = d by decide) d h

/-- The last digit comes off the end. -/
theorem digits_eq (n : ℕ) :
    digits n = (if n < 10 then [] else digits (n / 10)) ++ [digitByte (n % 10)] := by
  unfold digits
  rw [Nat.toDigits_eq_if (by omega)]
  split_ifs with h
  · rw [List.map_singleton, (digitByte_of_lt h).1, Nat.mod_eq_of_lt h, List.nil_append]
  · rw [List.map_append, List.map_singleton, (digitByte_of_lt (Nat.mod_lt n (by omega))).1]

theorem digits_ne_nil (n : ℕ) : digits n ≠ [] := by
  rw [digits_eq]
  exact List.append_ne_nil_of_right_ne_nil _ (List.cons_ne_nil _ _)

theorem itoa_ne_nil (n : ℤ) : itoa n ≠ [] := by
  unfold itoa
  split_ifs
  · exact List.cons_ne_nil _ _
  · exact digits_ne_nil _

theorem isDecimal_of_mem_digits {n : ℕ} {c : UInt8} (h : c ∈ digits n) : isDecimal c = true := by
  induction n using Nat.strong_induction_on with
  | _ n ih =>
    rw [digits_eq, List.mem_append, List.mem_singleton] at h
    rcases h with h | rfl
    · split_ifs at h with hn
      · cases h
      · exact ih (n / 10) (by omega) h
    · exact (digitByte_of_lt (Nat.mod_lt n (by omega))).2.1

/-! ### Lengths -/

theorem length_digits (n : ℕ) :
    (digits n).length = (if n < 10 then 0 else (digits (n / 10)).length) + 1 := by
  rw [digits_eq, List.length_append]
  split_ifs <;> rfl

theorem length_digits_pos (n : ℕ) : 0 < (digits n).length :=
  List.length_pos_iff.mpr (digits_ne_nil n)

theorem two_le_length_digits {n : ℕ} (h : 10 ≤ n) : 2 ≤ (digits n).length := by
  rw [length_digits, if_neg (not_lt.mpr h)]
  exact Nat.succ_le_succ (length_digits_pos _)

theorem length_digits_le {n k : ℕ} (h : n < 10 ^ (k + 1)) : (digits n).length ≤ k + 1 := by
  induction k generalizing n with
  | zero => rw [length_digits, if_pos (by simpa using h)]
  | succ k ih =>
    have hdiv : n / 10 < 10 ^ (k + 1) := by
      rw [Nat.pow_succ] at h
      exact Nat.div_lt_of_lt_mul (by omega)
    rw [length_digits]
    split_ifs
    · omega
    · exact Nat.succ_le_succ (ih hdiv)

/-! ### Reading -/

/-- The second part is read on from the value of the first, unless that is an error. -/
theorem parseUintFrom_append (n : ℕ) (s t : GoString) :
    parseUintFrom n (s ++ t) =
      if (parseUintFrom n s).2 = none then parseUintFrom (parseUintFrom n s).1 t
      else parseUintFrom n s := by
  induction s generalizing n with
  | nil => rfl
  | cons c s ih =>
    simp only [List.cons_append, parseUintFrom]
    by_cases hdigit : 0x30 ≤ c ∧ c ≤ 0x39
    · simp only [if_pos hdigit]
      by_cases hrange : maxUint64 < n * 10 + (c.toNat - 0x30)
      · simp only [if_pos hrange, reduceCtorEq, if_false]
      · simp only [if_neg hrange]
        exact ih _
    · simp only [if_neg hdigit, reduceCtorEq, if_false]

theorem parseUintFrom_digits {n : ℕ} (h : n ≤ maxUint64) :
    parseUintFrom 0 (digits n) = (n, none) := by
  induction n using Nat.strong_induction_on with
  | _ n ih =>
    obtain ⟨-, hdigit, hvalue⟩ := digitByte_of_lt (Nat.mod_lt n (by omega : 10 > 0))
    have hlast : ∀ m, m * 10 + n % 10 = n →
        parseUintFrom m [digitByte (n % 10)] = (n, none) := by
      intro m hm
      rw [isDecimal, Bool.and_eq_true, decide_eq_true_eq, decide_eq_true_eq] at hdigit
      rw [parseUintFrom, if_pos hdigit, hvalue, hm]
      simp only [parseUintFrom, if_neg (not_lt.mpr h)]
    rw [digits_eq]
    split_ifs with hn
    · rw [List.nil_append, hlast 0 (by omega)]
    · rw [parseUintFrom_append, ih (n / 10) (by omega) (by omega), if_pos rfl, hlast (n / 10) (by omega)]

theorem parseUint_digits_eq (n : ℕ) : parseUint (digits n) = parseUintFrom 0 (digits n) := by
  cases hdigits : digits n with
  | nil => exact absurd hdigits (digits_ne_nil n)
  | cons c cs => rfl

theorem parseUint_digits {n : ℕ} (h : n ≤ maxUint64) : parseUint (digits n) = (n, none) :=
  (parseUint_digits_eq n).trans (parseUintFrom_digits h)

theorem atoi_digits_eq (n : ℕ) : atoi (digits n) = signed false (parseUint (digits n)) := by
  cases hdigits : digits n with
  | nil => exact absurd hdigits (digits_ne_nil n)
  | cons c cs =>
    -- a digit is not a sign
    have hc : isDecimal c = true := isDecimal_of_mem_digits (hdigits ▸ List.mem_cons_self)
    unfold atoi
    split
    next heq =>
      cases heq
      exact absurd hc (by decide)
    next heq =>
      cases heq
      exact absurd hc (by decide)
    next => rfl

theorem atoi_digits {n : ℕ} (h : n < 2 ^ 63) : atoi (digits n) = ((n : ℤ), none) := by
  rw [atoi_digits_eq, parseUint_digits (h.le.trans (by decide))]
  simp only [signed, Bool.false_eq_true, if_false, if_neg (not_le.mpr h)]

/-- `Atoi` undoes `Itoa`. -/
theorem atoi_itoa {n : ℤ} (h : IsInt n) : atoi (itoa n) = (n, none) := by
  obtain ⟨hlow, hhigh⟩ := h
  unfold itoa
  split_ifs with hneg
  · have habs : n.natAbs ≤ 2 ^ 63 := by omega
    rw [atoi, parseUint_digits (habs.trans (by decide))]
    simp only [signed, if_true, if_neg (not_lt.mpr habs)]
    congr 1
    omega
  · rw [atoi_digits (by omega), Int.natAbs_of_nonneg (by omega)]

/-! ### Numerals out of range -/

theorem parseUintFrom_digits_large {n : ℕ} (h : maxUint64 < n) :
    parseUintFrom 0 (digits n) = (maxUint64, some .outOfRange) := by
  induction n using Nat.strong_induction_on with
  | _ n ih =>
    have hmax : 10 ≤ maxUint64 := by decide
    rw [digits_eq, if_neg (by omega), parseUintFrom_append]
    by_cases hprefix : maxUint64 < n / 10
    · rw [ih (n / 10) (by omega) hprefix]
      exact if_neg (Option.some_ne_none _)
    · -- the last digit is the one that is too much
      obtain ⟨-, hdigit, hvalue⟩ := digitByte_of_lt (Nat.mod_lt n (by omega : 10 > 0))
      rw [isDecimal, Bool.and_eq_true, decide_eq_true_eq, decide_eq_true_eq] at hdigit
      rw [parseUintFrom_digits (not_lt.mp hprefix), if_pos rfl, parseUintFrom, if_pos hdigit, hvalue]
      exact if_pos (by omega)

theorem atoi_digits_large {n : ℕ} (h : 2 ^ 63 ≤ n) :
    atoi (digits n) = (2 ^ 63 - 1, some .outOfRange) := by
  rw [atoi_digits_eq]
  obtain hn | hn := le_or_gt n maxUint64
  · rw [parseUint_digits hn]
    simp only [signed, Bool.false_eq_true, if_false, if_pos h]
  · rw [parseUint_digits_eq, parseUintFrom_digits_large hn]
    rfl

theorem itoa_natCast (n : ℕ) : itoa n = digits n := by
  rw [itoa, if_neg (by omega), Int.natAbs_natCast]

end ApiTest.Text
