import Mathlib.Data.List.Infix

/-! Patterns of SQL's `LIKE`. A pattern is read as a list of tokens: any run of
characters, any one character, or a given one; the escape character makes the next
one stand for itself. Characters are compared after a folding, the identity for
`LIKE` and lower-casing for `ILIKE`. Between two wildcards a text without special
characters is searched for as it is. A text with one is not: there is always a text
that fits the pattern and does not hold the search text. -/

namespace ApiTest.Like

variable {α β : Type*}

/-- What a pattern is made of. -/
inductive Token (α : Type*) where
  | any
  | one
  | char (c : α)
  deriving DecidableEq, Repr

/-- The special characters. -/
structure Wildcards (α : Type*) where
  any : α
  one : α
  escape : α

def Wildcards.Special (w : Wildcards α) (c : α) : Prop := c = w.any ∨ c = w.one ∨ c = w.escape

instance [DecidableEq α] (w : Wildcards α) : DecidablePred w.Special :=
  fun _ => inferInstanceAs (Decidable (_ ∨ _))

/-! ### Reading -/

section Read
variable [DecidableEq α] (w : Wildcards α)

/-- The tokens of a pattern. An escape with nothing behind it, which a server
refuses, is read as itself. -/
def read : List α → List (Token α)
  | [] => []
  | [c] => if c = w.any then [.any] else if c = w.one then [.one] else [.char c]
  | c :: d :: s =>
    if c = w.any then .any :: read (d :: s)
    else if c = w.one then .one :: read (d :: s)
    else if c = w.escape then .char d :: read s
    else .char c :: read (d :: s)

theorem read_any (s : List α) : read w (w.any :: s) = .any :: read w s := by
  cases s with
  | nil => simp [read]
  | cons d s => simp [read]

variable {w}

theorem read_one {s : List α} (h : w.one ≠ w.any) : read w (w.one :: s) = .one :: read w s := by
  cases s with
  | nil => simp [read, h]
  | cons d s => simp [read, h]

theorem read_escape {d : α} {s : List α} (hany : w.escape ≠ w.any) (hone : w.escape ≠ w.one) :
    read w (w.escape :: d :: s) = .char d :: read w s := by
  simp [read, hany, hone]

theorem read_cons {c : α} {s : List α} (h : ¬ w.Special c) : read w (c :: s) = .char c :: read w s := by
  simp only [Wildcards.Special, not_or] at h
  cases s with
  | nil => simp [read, h.1, h.2.1]
  | cons d s => simp [read, h.1, h.2.1, h.2.2]

/-- Text without special characters is read as itself. -/
theorem read_append {s : List α} (h : ∀ c ∈ s, ¬ w.Special c) (t : List α) :
    read w (s ++ t) = s.map .char ++ read w t := by
  induction s with
  | nil => rfl
  | cons c s ih =>
    rw [List.forall_mem_cons] at h
    rw [List.cons_append, read_cons h.1, ih h.2, List.map_cons, List.cons_append]

end Read

/-! ### Matching -/

section Match
variable [DecidableEq β] (fold : α → β)

/-- The whole text fits the tokens. -/
def fits : List (Token α) → List α → Bool
  | [], s => s.isEmpty
  | .any :: p, s => s.tails.any (fits p)
  | .one :: p, s =>
    match s with
    | [] => false
    | _ :: s => fits p s
  | .char c :: p, s =>
    match s with
    | [] => false
    | d :: s => fold c = fold d && fits p s

theorem fits_any {p : List (Token α)} {s : List α} :
    fits fold (.any :: p) s = true ↔ ∃ a b, s = a ++ b ∧ fits fold p b = true := by
  simp only [fits, List.any_eq_true, List.mem_tails]
  constructor
  · rintro ⟨b, ⟨a, rfl⟩, hb⟩
    exact ⟨a, b, rfl, hb⟩
  · rintro ⟨a, b, rfl, hb⟩
    exact ⟨b, List.suffix_append a b, hb⟩

theorem fits_any_nil {s : List α} : fits fold [.any] s = true := by
  rw [fits_any]
  exact ⟨s, [], (List.append_nil s).symm, rfl⟩

/-- What fits the empty text after a leading wildcard fits every text. -/
theorem fits_of_fits_nil {p : List (Token α)} (h : fits fold (.any :: p) [] = true) (s : List α) :
    fits fold (.any :: p) s = true := by
  obtain ⟨a, b, hab, hb⟩ := (fits_any fold).mp h
  obtain ⟨rfl, rfl⟩ := List.append_eq_nil_iff.mp hab.symm
  exact (fits_any fold).mpr ⟨s, [], (List.append_nil s).symm, hb⟩

theorem fits_chars {cs : List α} {p : List (Token α)} {s : List α} :
    fits fold (cs.map .char ++ p) s = true ↔
      ∃ a b, s = a ++ b ∧ a.map fold = cs.map fold ∧ fits fold p b = true := by
  induction cs generalizing s with
  | nil => simp
  | cons c cs ih =>
    rw [List.map_cons, List.cons_append]
    cases s with
    | nil => simp [fits]
    | cons d s =>
      simp only [fits, Bool.and_eq_true, decide_eq_true_eq, ih]
      constructor
      · rintro ⟨hd, a, b, rfl, ha, hb⟩
        exact ⟨d :: a, b, rfl, by rw [List.map_cons, List.map_cons, ha, hd], hb⟩
      · rintro ⟨a, b, hab, ha, hb⟩
        cases a with
        | nil => cases ha
        | cons x a =>
          rw [List.cons_append, List.cons.injEq] at hab
          rw [List.map_cons, List.map_cons, List.cons.injEq] at ha
          obtain ⟨rfl, rfl⟩ := hab
          exact ⟨ha.1.symm, a, b, rfl, ha.2, hb⟩

end Match

/-! ### Searching -/

section Search
variable [DecidableEq α] [DecidableEq β] (w : Wildcards α) (fold : α → β)

/-- The pattern `%s%`. -/
def around (s : List α) : List α := w.any :: (s ++ [w.any])

theorem read_around (s : List α) : read w (around w s) = .any :: read w (s ++ [w.any]) :=
  read_any w _

/-- Without special characters the pattern is a search. -/
theorem fits_around {s : List α} (h : ∀ c ∈ s, ¬ w.Special c) (t : List α) :
    fits fold (read w (around w s)) t = true ↔ s.map fold <:+: t.map fold := by
  have hlast : read w [w.any] = [.any] := read_any w []
  rw [read_around, read_append h, hlast, fits_any]
  constructor
  · rintro ⟨a, b, rfl, hb⟩
    obtain ⟨x, y, rfl, hx, -⟩ := (fits_chars fold).mp hb
    exact ⟨a.map fold, y.map fold, by rw [← hx]; simp⟩
  · rintro ⟨a, b, hab⟩
    rw [List.append_assoc] at hab
    obtain ⟨t₁, t₂, rfl, -, ht⟩ := List.map_eq_append_iff.mp hab.symm
    obtain ⟨x, y, rfl, hx, -⟩ := List.map_eq_append_iff.mp ht
    exact ⟨t₁, x ++ y, rfl, (fits_chars fold).mpr ⟨x, y, rfl, hx, fits_any_nil fold⟩⟩

/-- A text that fits: nothing for a run, the given character for any one. -/
def sample (blank : α) : List (Token α) → List α
  | [] => []
  | .any :: p => sample blank p
  | .one :: p => blank :: sample blank p
  | .char c :: p => c :: sample blank p

omit [DecidableEq α] in
theorem fits_sample (blank : α) (p : List (Token α)) : fits fold p (sample blank p) = true := by
  induction p with
  | nil => rfl
  | cons token p ih =>
    cases token with
    | any => exact (fits_any fold).mpr ⟨[], _, rfl, ih⟩
    | one => exact ih
    | char c => simp [sample, fits, ih]

variable {w fold} {blank : α}

omit [DecidableEq β] in
/-- A special character makes the sample shorter than the search text, or different
in its place. -/
theorem sample_read (hblank : fold blank ≠ fold w.one) (hescape : fold w.any ≠ fold w.escape)
    (s : List α) :
    (sample blank (read w (s ++ [w.any]))).length < s.length ∨
      ((sample blank (read w (s ++ [w.any]))).length = s.length ∧
        ((∃ c ∈ s, w.Special c) →
          (sample blank (read w (s ++ [w.any]))).map fold ≠ s.map fold)) := by
  -- on the search text; an escape takes the character behind it along
  induction hn : s.length using Nat.strong_induction_on generalizing s with
  | _ n ih =>
    subst hn
    cases s with
    | nil =>
      right
      simp [read, sample]
    | cons c s =>
      have hrest := ih s.length (Nat.lt_succ_self _) s rfl
      by_cases hspecial : w.Special c
      · by_cases hany : c = w.any
        · left
          rw [hany, List.cons_append, read_any, sample, List.length_cons]
          omega
        by_cases hone : c = w.one
        · rw [hone, List.cons_append, read_one (hone ▸ hany), sample, List.length_cons,
            List.length_cons]
          obtain hlt | ⟨heq, -⟩ := hrest
          · left
            omega
          · right
            refine ⟨by omega, fun _ hsame => ?_⟩
            exact hblank (List.cons.inj hsame).1
        · have hc : c = w.escape := (hspecial.resolve_left hany).resolve_left hone
          subst hc
          cases s with
          | nil =>
            right
            rw [List.cons_append, List.nil_append, read_escape hany hone, read]
            refine ⟨rfl, fun _ hsame => ?_⟩
            exact hescape (List.cons.inj hsame).1
          | cons d s =>
            left
            have hrest := ih s.length (by simp only [List.length_cons]; omega) s rfl
            rw [List.cons_append, List.cons_append, read_escape hany hone, sample, List.length_cons,
              List.length_cons, List.length_cons]
            omega
      · rw [List.cons_append, read_cons hspecial, sample, List.length_cons, List.length_cons]
        obtain hlt | ⟨heq, hne⟩ := hrest
        · left
          omega
        · right
          refine ⟨by omega, ?_⟩
          rintro ⟨x, hx, hxs⟩ hsame
          obtain rfl | hx := List.mem_cons.mp hx
          · exact hspecial hxs
          · exact hne ⟨x, hx, hxs⟩ (List.cons.inj hsame).2

omit [DecidableEq β] in
/-- The sample of a search with a special character does not hold the search text. -/
theorem sample_not_infix (hblank : fold blank ≠ fold w.one) (hescape : fold w.any ≠ fold w.escape)
    {s : List α} (h : ∃ c ∈ s, w.Special c) :
    ¬ s.map fold <:+: (sample blank (read w (around w s))).map fold := by
  rw [read_around, sample]
  intro hsub
  have hlength := hsub.length_le
  rw [List.length_map, List.length_map] at hlength
  obtain hlt | ⟨heq, hne⟩ := sample_read hblank hescape s
  · omega
  · exact hne h (hsub.eq_of_length (by simp [heq])).symm

end Search

end ApiTest.Like
