import Mathlib.Data.List.TakeWhile
import ApiTest.Text.GoString

/-! More of Go's `strings` package: prefixes, upper case, white space and case
folding. White space is the Unicode property, a fixed list of runes, so trimming
strips the encodings of these runes from both ends. Case folding is needed only
against ASCII patterns, whose foldings above ASCII are the Kelvin sign and the
long s. -/

namespace ApiTest.Text

/-- `strings.HasPrefix`. -/
def hasPrefix (s sub : GoString) : Bool := decide (sub <+: s)

/-- `strings.Cut` at a byte: what stands before its first occurrence and what
stands after it. -/
def cut (c : UInt8) (s : GoString) : GoString × GoString :=
  (s.takeWhile (· ≠ c), (s.dropWhile (· ≠ c)).tail)

theorem cut_append {c : UInt8} {s : GoString} (h : c ∉ s) (t : GoString) :
    cut c (s ++ c :: t) = (s, t) := by
  have hall : ∀ x ∈ s, decide (x ≠ c) = true := by
    intro x hx
    simpa using ne_of_mem_of_not_mem hx h
  rw [cut, List.takeWhile_append_of_pos hall, List.dropWhile_append_of_pos hall]
  simp

theorem cut_of_notMem {c : UInt8} {s : GoString} (h : c ∉ s) : cut c s = (s, []) := by
  have hall : ∀ x ∈ s, decide (x ≠ c) = true := by
    intro x hx
    simpa using ne_of_mem_of_not_mem hx h
  rw [cut, List.takeWhile_eq_self_iff.mpr hall, List.dropWhile_eq_nil_iff.mpr hall, List.tail_nil]

/-- A part that is written with its separator or left out is read back. -/
theorem cut_append_ite {c : UInt8} {s : GoString} (h : c ∉ s) (p : Prop) [Decidable p]
    (t : GoString) : cut c (s ++ if p then c :: t else []) = (s, if p then t else []) := by
  split_ifs
  · exact cut_append h t
  · rw [List.append_nil, cut_of_notMem h]

theorem notMem_cut (c : UInt8) (s : GoString) : c ∉ (cut c s).1 := by
  intro h
  simpa using List.mem_takeWhile_imp h

/-- A string with the separator is its two parts around it. -/
theorem cut_of_mem {c : UInt8} {s : GoString} (h : c ∈ s) :
    s = (cut c s).1 ++ c :: (cut c s).2 := by
  obtain ⟨a, b, rfl, ha⟩ := List.eq_append_cons_of_mem h
  rw [cut_append ha]

theorem mem_of_mem_cut {c x : UInt8} {s : GoString} (h : x ∈ (cut c s).2) : x ∈ s :=
  (List.dropWhile_suffix _).subset (List.mem_of_mem_tail h)

theorem length_cut (c : UInt8) (s : GoString) :
    (cut c s).1.length ≤ s.length ∧ (c ∈ s → (cut c s).1.length < s.length) := by
  refine ⟨(List.takeWhile_prefix _).length_le, fun h => ?_⟩
  have hlength := congrArg List.length (cut_of_mem h)
  rw [List.length_append, List.length_cons] at hlength
  omega

/-- The `unicode.ToUpper` table above ASCII. -/
class UnicodeUpper where
  upper : Char → Char

/-- The table without a single case pair above ASCII. -/
@[reducible] def asciiUpper : UnicodeUpper := ⟨id⟩

/-- `strings.ToUpper`. -/
def toUpper [UnicodeUpper] (s : GoString) : GoString :=
  mapRunes (fun c => if c.toNat < 0x80 then c.toUpper else UnicodeUpper.upper c) s

example : @toUpper asciiUpper (lit "get") = lit "GET" := by decide

/-! ### White space -/

/-- The encodings of the runes `unicode.IsSpace` holds for. -/
def spaceRunes : List GoString :=
  [[0x20], [0x09], [0x0A], [0x0B], [0x0C], [0x0D], [0xC2, 0x85], [0xC2, 0xA0],
    [0xE1, 0x9A, 0x80], [0xE2, 0x80, 0x80], [0xE2, 0x80, 0x81], [0xE2, 0x80, 0x82],
    [0xE2, 0x80, 0x83], [0xE2, 0x80, 0x84], [0xE2, 0x80, 0x85], [0xE2, 0x80, 0x86],
    [0xE2, 0x80, 0x87], [0xE2, 0x80, 0x88], [0xE2, 0x80, 0x89], [0xE2, 0x80, 0x8A],
    [0xE2, 0x80, 0xA8], [0xE2, 0x80, 0xA9], [0xE2, 0x80, 0xAF], [0xE2, 0x81, 0x9F],
    [0xE3, 0x80, 0x80]]

/-- Strip the given runes from the front, at most `fuel` of them. -/
def trimFrom (runes : List GoString) : ℕ → GoString → GoString
  | 0, s => s
  | fuel + 1, s =>
    match runes.find? (· <+: s) with
    | some r => trimFrom runes fuel (s.drop r.length)
    | none => s

/-- `strings.TrimSpace`. -/
def trimSpace (s : GoString) : GoString :=
  let front := trimFrom spaceRunes s.length s
  (trimFrom (spaceRunes.map List.reverse) front.length front.reverse).reverse

@[simp] theorem trimSpace_nil : trimSpace [] = [] := rfl

theorem ne_nil_of_trimSpace {s : GoString} (h : trimSpace s ≠ []) : s ≠ [] := by
  rintro rfl
  exact h trimSpace_nil

theorem trimFrom_of_head {runes : List GoString} {s : GoString}
    (h : ∀ r ∈ runes, ∃ b rest, r = b :: rest ∧ s.head? ≠ some b) (fuel : ℕ) :
    trimFrom runes fuel s = s := by
  cases fuel with
  | zero => rfl
  | succ fuel =>
    have hnone : runes.find? (· <+: s) = none := by
      rw [List.find?_eq_none]
      intro r hr hpre
      obtain ⟨b, rest, rfl, hb⟩ := h r hr
      obtain ⟨t, rfl⟩ := of_decide_eq_true hpre
      exact hb rfl
    rw [trimFrom, hnone]

/-- Bytes of visible ASCII. -/
def isVisible (b : UInt8) : Bool := 0x21 ≤ b && b < 0x7F

/-- Visible text has nothing to trim. -/
theorem trimSpace_of_visible {s : GoString} (h : ∀ b ∈ s, isVisible b = true) :
    trimSpace s = s := by
  have hhead : ∀ {runes : List GoString} {t : GoString}, (∀ b ∈ t, isVisible b = true) →
      (runes.all fun r => r.head?.any (!isVisible ·)) = true →
      ∀ r ∈ runes, ∃ b rest, r = b :: rest ∧ t.head? ≠ some b := by
    intro runes t ht hrunes r hr
    have hr' := List.all_eq_true.mp hrunes r hr
    cases r with
    | nil => exact absurd hr' (by decide)
    | cons b rest =>
      refine ⟨b, rest, rfl, fun hmem => ?_⟩
      have hvisible := ht b (List.mem_of_mem_head? hmem)
      simp [hvisible] at hr'
  rw [trimSpace, trimFrom_of_head (hhead h (by decide +kernel)),
    trimFrom_of_head (hhead (by simpa using h) (by decide +kernel)), List.reverse_reverse]

example : trimSpace (lit " \t key \n") = lit "key" := by decide

/-! ### Case folding -/

/-- A rune that folds to the ASCII character `t`. -/
def foldsTo (c t : Char) : Bool :=
  c.toLower == t.toLower || (c.toNat == 0x212A && t.toLower == 'k') ||
    (c.toNat == 0x17F && t.toLower == 's')

/-- `strings.EqualFold` with an ASCII second argument, given by its characters. -/
def equalFold : GoString → List Char → Bool
  | [], [] => true
  | [], _ :: _ => false
  | _ :: _, [] => false
  | b :: s, t :: ts =>
    let (c, width) := decodeRune (b :: s)
    foldsTo c t && equalFold ((b :: s).drop width) ts

example : equalFold (lit "bEARER ") "Bearer ".toList = true := by decide

/-- A multi-byte rune is not ASCII. -/
theorem ascii_of_decodeRune {b : UInt8} {rest : GoString}
    (h : (decodeRune (b :: rest)).1.toNat < 0x80) : b.toNat < 0x80 := by
  by_contra hb
  have hscalar (low width v : ℕ) (hlow : 0x80 ≤ low) : ¬ (scalar low width v).1.toNat < 0x80 := by
    unfold scalar
    split_ifs with hv
    · show ¬ (Char.ofNat v).toNat < 0x80
      rw [Char.ofNat, dif_pos hv.2]
      show ¬ v < 0x80
      omega
    · decide
  apply absurd h
  simp only [decodeRune, if_neg hb]
  repeat' split
  all_goals first | decide | exact hscalar _ _ _ (by decide)

theorem toNat_toLower_lt {c : Char} (h : c.toLower.toNat < 0x80) : c.toNat < 0x80 := by
  unfold Char.toLower at h
  split_ifs at h with hc
  · exact lt_of_le_of_lt (UInt32.le_iff_toNat_le.mp hc.2) (by decide)
  · exact h

theorem toNat_ofNat_ascii {n : ℕ} (h : n < 0x80) : (Char.ofNat n).toNat = n := by
  have hv : n.isValidChar := Or.inl (by omega)
  rw [Char.ofNat, dif_pos hv]
  rfl

theorem decodeRune_ascii {b : UInt8} (hb : b.toNat < 0x80) (rest : GoString) :
    decodeRune (b :: rest) = (Char.ofNat b.toNat, 1) := by
  simp [decodeRune, hb]

theorem utf8EncodeChar_ascii {c : Char} (h : c.toNat < 0x80) :
    String.utf8EncodeChar c = [c.toNat.toUInt8] := by
  rw [String.utf8EncodeChar, if_pos (show c.val.toNat ≤ 0x7F from Nat.lt_succ_iff.mp h)]
  rfl

/-- ASCII characters are mapped one by one. -/
theorem mapRunes_cons (f : Char → Char) {b : UInt8} (hb : b.toNat < 0x80) (rest : GoString) :
    mapRunes f (b :: rest) =
      String.utf8EncodeChar (f (Char.ofNat b.toNat)) ++ mapRunes f rest := by
  unfold mapRunes
  rw [List.length_cons, mapRunesFrom]
  simp only [decodeRune_ascii hb, List.drop_succ_cons, List.drop_zero]

theorem mapRunes_id_cons {b : UInt8} (hb : b.toNat < 0x80) (rest : GoString) :
    mapRunes id (b :: rest) = b :: mapRunes id rest := by
  have hchar := toNat_ofNat_ascii hb
  rw [mapRunes_cons id hb, id, utf8EncodeChar_ascii (hchar.symm ▸ hb), hchar]
  simp

theorem mapRunes_id_ascii {s : GoString} (h : ∀ b ∈ s, b.toNat < 0x80) : mapRunes id s = s := by
  induction s with
  | nil => rfl
  | cons b s ih =>
    obtain ⟨hb, hrest⟩ := List.forall_mem_cons.mp h
    rw [mapRunes_id_cons hb, ih hrest]

section
variable [UnicodeCase]

/-- ASCII characters are lowered one by one. -/
theorem toLower_cons {b : UInt8} (hb : b.toNat < 0x80) (rest : GoString) :
    toLower (b :: rest) = (Char.ofNat b.toNat).toLower.toNat.toUInt8 :: toLower rest := by
  have hlower : ∀ n < 0x80, (Char.ofNat n).toLower.toNat < 0x80 := by decide
  rw [toLower, mapRunes_cons _ hb, lowerRune, toNat_ofNat_ascii hb, if_pos hb,
    utf8EncodeChar_ascii (hlower _ hb)]
  rfl

/-- No rune is dropped, whatever the table says. -/
theorem toLower_ne_nil {s : GoString} (h : s ≠ []) : toLower s ≠ [] := by
  cases s with
  | nil => exact absurd rfl h
  | cons b rest => exact List.append_ne_nil_of_left_ne_nil String.utf8EncodeChar_ne_nil _

/-- A string that folds to an ASCII pattern without `k` and `s` is lowered to the
lowered pattern. -/
theorem hasPrefix_toLower_of_equalFold {pattern : List Char}
    (hplain : ∀ t ∈ pattern, t.toLower.toNat < 0x80 ∧ t.toLower ≠ 'k' ∧ t.toLower ≠ 's')
    {s : GoString} (h : equalFold (s.take pattern.length) pattern) :
    pattern.map (·.toLower.toNat.toUInt8) <+: toLower s := by
  induction pattern generalizing s with
  | nil => exact List.nil_prefix
  | cons t pattern ih =>
    cases s with
    | nil => cases h
    | cons b rest =>
      simp only [List.forall_mem_cons] at hplain
      obtain ⟨⟨hascii, hk, hs⟩, hplain⟩ := hplain
      rw [List.length_cons, List.take_succ_cons, equalFold, Bool.and_eq_true] at h
      obtain ⟨hfold, hrest⟩ := h
      have hlower : (decodeRune (b :: rest.take pattern.length)).1.toLower = t.toLower := by
        simpa [foldsTo, hk, hs] using hfold
      have hb : b.toNat < 0x80 := ascii_of_decodeRune (toNat_toLower_lt (hlower ▸ hascii))
      rw [decodeRune_ascii hb] at hlower hrest
      rw [toLower_cons hb, hlower, List.map_cons, List.cons_prefix_cons]
      exact ⟨rfl, ih hplain hrest⟩

end
end ApiTest.Text
