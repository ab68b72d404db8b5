import ApiTest.Text.Strings

/-! UTF-8. The encoding of a character starts with a byte that no encoding
continues with, so characters can be found again in any place of a text:
decoding undoes encoding, and one text stands somewhere in another as bytes
exactly if it does as characters. -/

namespace ApiTest.Text

/-- The bytes `10xxxxxx` that only continue a character. -/
def isContinuation (b : UInt8) : Bool := 0x80 ≤ b && b ≤ 0xBF

/-- The UTF-8 encoding of a text. -/
def encodeRunes (cs : List Char) : GoString := cs.flatMap String.utf8EncodeChar

@[simp] theorem encodeRunes_nil : encodeRunes [] = [] := rfl

@[simp] theorem encodeRunes_cons (c : Char) (cs : List Char) :
    encodeRunes (c :: cs) = String.utf8EncodeChar c ++ encodeRunes cs := rfl

@[simp] theorem encodeRunes_append (cs ds : List Char) :
    encodeRunes (cs ++ ds) = encodeRunes cs ++ encodeRunes ds := List.flatMap_append

theorem toNat_ofNat_byte {n : ℕ} (h : n < 256) : (UInt8.ofNat n).toNat = n := by
  rw [UInt8.toNat_ofNat', Nat.mod_eq_of_lt h]

theorem isContinuation_ofNat {n : ℕ} (h : n < 64) : isContinuation (UInt8.ofNat (n + 128)) = true := by
  have hn := toNat_ofNat_byte (n := n + 128) (by omega)
  simp only [isContinuation, Bool.and_eq_true, decide_eq_true_eq, UInt8.le_iff_toNat_le, hn]
  exact ⟨Nat.le_add_left _ _, show n + 128 ≤ 191 by omega⟩

theorem isContinuation_lead {n : ℕ} (h : 192 ≤ n) (hn : n < 256) :
    isContinuation (UInt8.ofNat n) = false := by
  have hbyte := toNat_ofNat_byte hn
  simp only [isContinuation, Bool.and_eq_false_iff, decide_eq_false_iff_not,
    UInt8.le_iff_toNat_le, hbyte]
  exact Or.inr (show ¬ n ≤ 191 by omega)

/-- The encoding of a character: a byte that starts one, and bytes that continue
it. -/
theorem utf8EncodeChar_eq_cons (c : Char) :
    ∃ lead rest, String.utf8EncodeChar c = lead :: rest ∧ isContinuation lead = false ∧
      (∀ b ∈ rest, isContinuation b = true) ∧ (lead.toNat < 0x80 ↔ c.toNat < 0x80) := by
  have hc : c.toNat = c.val.toNat := rfl
  unfold String.utf8EncodeChar
  dsimp only
  rw [hc]
  generalize hv : c.val.toNat = v
  have hmax : v < 0x110000 := by
    have hvalid : v.isValidChar := hv ▸ c.valid
    unfold Nat.isValidChar at hvalid
    omega
  split_ifs with h1 h2 h3
  · refine ⟨_, _, rfl, ?_, by simp, ?_⟩
    · simp only [isContinuation, Bool.and_eq_false_iff, decide_eq_false_iff_not,
        UInt8.le_iff_toNat_le, toNat_ofNat_byte (show v < 256 by omega)]
      exact Or.inl (show ¬ 128 ≤ v by omega)
    · rw [toNat_ofNat_byte (by omega)]
  · refine ⟨_, _, rfl, isContinuation_lead (by omega) (by omega), ?_, ?_⟩
    · simp only [List.mem_cons, List.not_mem_nil, or_false, forall_eq]
      exact isContinuation_ofNat (by omega)
    · rw [toNat_ofNat_byte (by omega)]
      omega
  · refine ⟨_, _, rfl, isContinuation_lead (by omega) (by omega), ?_, ?_⟩
    · simp only [List.mem_cons, List.not_mem_nil, or_false, forall_eq_or_imp, forall_eq]
      exact ⟨isContinuation_ofNat (by omega), isContinuation_ofNat (by omega)⟩
    · rw [toNat_ofNat_byte (by omega)]
      omega
  · refine ⟨_, _, rfl, isContinuation_lead (by omega) (by omega), ?_, ?_⟩
    · simp only [List.mem_cons, List.not_mem_nil, or_false, forall_eq_or_imp, forall_eq]
      exact ⟨isContinuation_ofNat (by omega), isContinuation_ofNat (by omega),
        isContinuation_ofNat (by omega)⟩
    · rw [toNat_ofNat_byte (by omega)]
      omega

/-! ### Runes of a string -/

/-- At most `fuel` runes of a string. -/
def runesFrom : ℕ → GoString → List Char
  | 0, _ => []
  | _ + 1, [] => []
  | fuel + 1, b :: rest =>
    let (c, width) := decodeRune (b :: rest)
    c :: runesFrom fuel ((b :: rest).drop width)

/-- The conversion `[]rune(s)`. -/
def runes (s : GoString) : List Char := runesFrom s.length s

theorem mapRunes_eq (f : Char → Char) (s : GoString) :
    mapRunes f s = encodeRunes ((runes s).map f) := by
  have hfrom : ∀ fuel s, mapRunesFrom f fuel s = encodeRunes ((runesFrom fuel s).map f) := by
    intro fuel
    induction fuel with
    | zero => exact fun _ => rfl
    | succ fuel ih =>
      intro s
      cases s with
      | nil => rfl
      | cons b rest => simp only [mapRunesFrom, runesFrom, List.map_cons, encodeRunes_cons, ih]
  exact hfrom s.length s

/-- Replacing what is not UTF-8 puts no ASCII byte in front. -/
theorem head_mapRunes_id {s : GoString} {c : UInt8} (hc : c.toNat < 0x80)
    (h : s.head? ≠ some c) : (mapRunes id s).head? ≠ some c := by
  cases s with
  | nil => exact h
  | cons b rest =>
    by_cases hb : b.toNat < 0x80
    · rw [mapRunes_id_cons hb]
      exact h
    · obtain ⟨lead, bytes, hbytes, -, -, hascii⟩ :=
        utf8EncodeChar_eq_cons (decodeRune (b :: rest)).1
      have hrune : mapRunes id (b :: rest) = String.utf8EncodeChar (decodeRune (b :: rest)).1 ++
          mapRunesFrom id rest.length ((b :: rest).drop (decodeRune (b :: rest)).2) := rfl
      rw [hrune, hbytes, List.cons_append, List.head?_cons]
      rintro ⟨⟩
      exact hb (ascii_of_decodeRune (hascii.mp hc))

/-! ### Decoding -/

theorem continuation_ofNat {n : ℕ} (h : n < 64) : continuation (UInt8.ofNat (n + 128)) = some n := by
  have hn := toNat_ofNat_byte (n := n + 128) (by omega)
  rw [continuation, if_pos, hn, Nat.add_sub_cancel]
  simpa [isContinuation] using isContinuation_ofNat h

theorem continuation_of_ascii {b : UInt8} (h : b.toNat < 0x80) : continuation b = none := by
  rw [continuation, if_neg]
  rintro ⟨hb, -⟩
  rw [UInt8.le_iff_toNat_le] at hb
  exact absurd hb (not_le.mpr h)

theorem scalar_self {low width : ℕ} {c : Char} (h : low ≤ c.toNat) :
    scalar low width c.toNat = (c, width) := by
  rw [scalar, if_pos ⟨h, c.valid⟩, Char.ofNat_toNat]

/-- The encoding of a character is decoded as it, whatever follows. -/
theorem decodeRune_encode (c : Char) (rest : GoString) :
    decodeRune (String.utf8EncodeChar c ++ rest) = (c, (String.utf8EncodeChar c).length) := by
  have hscalar (low width v : ℕ) (hlow : low ≤ c.toNat) (hv : v = c.toNat) :
      scalar low width v = (c, width) := hv ▸ scalar_self hlow
  have hmax : c.toNat < 0x110000 := by
    have hvalid : c.toNat.isValidChar := c.valid
    unfold Nat.isValidChar at hvalid
    omega
  unfold String.utf8EncodeChar
  dsimp only
  rw [show c.val.toNat = c.toNat from rfl]
  split_ifs with h1 h2 h3
  · simp only [List.cons_append, List.nil_append, decodeRune,
      toNat_ofNat_byte (show c.toNat < 256 by omega)]
    rw [if_pos (by omega), Char.ofNat_toNat]
    rfl
  · simp only [List.cons_append, List.nil_append, decodeRune, List.map_cons,
      continuation_ofNat (Nat.mod_lt _ (show 0 < 64 by decide)),
      toNat_ofNat_byte (show c.toNat / 64 % 32 + 192 < 256 by omega)]
    rw [if_neg (by omega), if_pos (by omega), hscalar _ _ _ (by omega) (by omega)]
    rfl
  · simp only [List.cons_append, List.nil_append, decodeRune, List.map_cons,
      continuation_ofNat (Nat.mod_lt _ (show 0 < 64 by decide)),
      toNat_ofNat_byte (show c.toNat / 4096 % 16 + 224 < 256 by omega)]
    rw [if_neg (by omega), if_neg (by omega), if_pos (by omega), hscalar _ _ _ (by omega) (by omega)]
    rfl
  · simp only [List.cons_append, List.nil_append, decodeRune, List.map_cons,
      continuation_ofNat (Nat.mod_lt _ (show 0 < 64 by decide)),
      toNat_ofNat_byte (show c.toNat / 262144 % 8 + 240 < 256 by omega)]
    rw [if_neg (by omega), if_neg (by omega), if_neg (by omega), if_pos (by omega),
      hscalar _ _ _ (by omega) (by omega)]
    rfl

/-- A byte that continues no character does not change how the bytes before it are
decoded. -/
theorem decodeRune_append {s : GoString} (hs : s ≠ []) {b : UInt8} (hb : continuation b = none)
    (t : GoString) : decodeRune (s ++ b :: t) = decodeRune s := by
  match s with
  | [x] => simp [decodeRune, hb]
  | [x, y] => cases hy : continuation y <;> simp [decodeRune, hb, hy]
  | [x, y, z] =>
    cases hy : continuation y <;> cases hz : continuation z <;> simp [decodeRune, hb, hy, hz]
  | x :: y :: z :: w :: rest =>
    cases hy : continuation y <;> cases hz : continuation z <;> cases hw : continuation w <;>
      simp [decodeRune, hy, hz, hw]

theorem width_scalar {low width n v : ℕ} (h : 1 ≤ width) (hn : width ≤ n) :
    1 ≤ (scalar low width v).2 ∧ (scalar low width v).2 ≤ n := by
  unfold scalar
  split_ifs
  · exact ⟨h, hn⟩
  · exact ⟨le_rfl, h.trans hn⟩

/-- A rune takes at least one byte, and none that is not there. -/
theorem width_decodeRune {s : GoString} (hs : s ≠ []) :
    1 ≤ (decodeRune s).2 ∧ (decodeRune s).2 ≤ s.length := by
  match s with
  | [b] =>
    simp only [decodeRune, List.map_nil]
    split_ifs <;> exact ⟨le_rfl, le_rfl⟩
  | [b, x] =>
    cases hx : continuation x <;> simp only [decodeRune, List.map_cons, List.map_nil, hx] <;>
      split_ifs <;> first | exact ⟨le_rfl, by simp⟩ | exact width_scalar (by decide) (by simp)
  | [b, x, y] =>
    cases hx : continuation x <;> cases hy : continuation y <;>
      simp only [decodeRune, List.map_cons, List.map_nil, hx, hy] <;>
      split_ifs <;> first | exact ⟨le_rfl, by simp⟩ | exact width_scalar (by decide) (by simp)
  | b :: x :: y :: z :: rest =>
    cases hx : continuation x <;> cases hy : continuation y <;> cases hz : continuation z <;>
      simp only [decodeRune, List.map_cons, hx, hy, hz] <;>
      split_ifs <;> first | exact ⟨le_rfl, by simp⟩ | exact width_scalar (by decide) (by simp)

theorem runesFrom_succ (fuel : ℕ) (b : UInt8) (rest : GoString) :
    runesFrom (fuel + 1) (b :: rest) =
      (decodeRune (b :: rest)).1 :: runesFrom fuel ((b :: rest).drop (decodeRune (b :: rest)).2) := rfl

theorem runesFrom_of_le {fuel : ℕ} {s : GoString} (h : s.length ≤ fuel) :
    runesFrom fuel s = runes s := by
  -- on the text: what is left after a rune is shorter
  induction hn : s.length using Nat.strong_induction_on generalizing fuel s with
  | _ n ih =>
    cases s with
    | nil => cases fuel <;> rfl
    | cons b rest =>
      obtain ⟨hpos, hle⟩ := width_decodeRune (List.cons_ne_nil b rest)
      have hdrop : ((b :: rest).drop (decodeRune (b :: rest)).2).length < n := by
        rw [List.length_drop]
        omega
      cases fuel with
      | zero => cases h
      | succ fuel =>
        have hleft : ((b :: rest).drop (decodeRune (b :: rest)).2).length ≤ rest.length := by
          rw [List.length_drop]
          simp only [List.length_cons]
          omega
        rw [List.length_cons, Nat.succ_le_succ_iff] at h
        rw [runes, List.length_cons, runesFrom_succ, runesFrom_succ, ih _ hdrop (hleft.trans h) rfl, ih _ hdrop hleft rfl]

theorem runes_eq_cons {s : GoString} (hs : s ≠ []) :
    runes s = (decodeRune s).1 :: runes (s.drop (decodeRune s).2) := by
  cases s with
  | nil => exact absurd rfl hs
  | cons b rest =>
    obtain ⟨hpos, hle⟩ := width_decodeRune (List.cons_ne_nil b rest)
    have hleft : ((b :: rest).drop (decodeRune (b :: rest)).2).length ≤ rest.length := by
      rw [List.length_drop]
      simp only [List.length_cons]
      omega
    rw [← runesFrom_of_le hleft, ← runesFrom_succ, runes, List.length_cons]

@[simp] theorem runes_nil : runes [] = [] := rfl

theorem runes_encode_append (c : Char) (s : GoString) :
    runes (String.utf8EncodeChar c ++ s) = c :: runes s := by
  obtain ⟨lead, rest, hbytes, -⟩ := utf8EncodeChar_eq_cons c
  rw [runes_eq_cons (by simp [hbytes]), decodeRune_encode, List.drop_left]

/-- Decoding undoes encoding. -/
theorem runes_encodeRunes (cs : List Char) : runes (encodeRunes cs) = cs := by
  induction cs with
  | nil => rfl
  | cons c cs ih => rw [encodeRunes_cons, runes_encode_append, ih]

/-- The text before a byte that continues no character is decoded by itself. -/
theorem runes_append {b : UInt8} (hb : continuation b = none) (s t : GoString) :
    runes (s ++ b :: t) = runes s ++ runes (b :: t) := by
  induction hn : s.length using Nat.strong_induction_on generalizing s with
  | _ n ih =>
    by_cases hs : s = []
    · simp [hs]
    · obtain ⟨hpos, hle⟩ := width_decodeRune hs
      have hdrop : (s ++ b :: t).drop (decodeRune s).2 = s.drop (decodeRune s).2 ++ b :: t :=
        List.drop_append_of_le_length hle
      have hshort : (s.drop (decodeRune s).2).length < n := by
        rw [List.length_drop]
        omega
      rw [runes_eq_cons (by simp), decodeRune_append hs hb, hdrop, ih _ hshort _ rfl,
        runes_eq_cons hs, List.cons_append]

/-! ### Finding a text in another -/

/-- A byte that continues no character begins one. -/
theorem encodeRunes_split {cs : List Char} {x rest : GoString} {b : UInt8}
    (hb : isContinuation b = false) (h : encodeRunes cs = x ++ b :: rest) :
    ∃ before after, cs = before ++ after ∧ x = encodeRunes before := by
  induction cs generalizing x with
  | nil =>
    have := congrArg List.length h
    simp at this
  | cons c cs ih =>
    obtain ⟨lead, bytes, hbytes, -, hcont, -⟩ := utf8EncodeChar_eq_cons c
    cases x with
    | nil => exact ⟨[], c :: cs, rfl, rfl⟩
    | cons y x =>
      rw [encodeRunes_cons, hbytes, List.cons_append, List.cons_append, List.cons.injEq] at h
      obtain ⟨rfl, h⟩ := h
      obtain ⟨x', rfl, hrest⟩ | ⟨bytes', hsplit, hrest⟩ := List.append_eq_append_iff.mp h
      · obtain ⟨before, after, rfl, rfl⟩ := ih hrest
        exact ⟨c :: before, after, rfl, by rw [encodeRunes_cons, hbytes, List.cons_append]⟩
      · -- the byte would be one that continues the first character
        cases bytes' with
        | nil =>
          rw [List.append_nil] at hsplit
          refine ⟨[c], cs, rfl, ?_⟩
          rw [encodeRunes_cons, hbytes, hsplit, encodeRunes_nil, List.append_nil]
        | cons b' bytes' =>
          have hsame : b = b' := (List.cons.inj hrest).1
          have hmem : b ∈ bytes := by simp [hsplit, hsame]
          rw [hcont b hmem] at hb
          cases hb

theorem prefix_of_encodeRunes {cs ds : List Char} {y : GoString}
    (h : encodeRunes cs = encodeRunes ds ++ y) : ds <+: cs := by
  induction ds generalizing cs with
  | nil => exact List.nil_prefix
  | cons d ds ih =>
    obtain ⟨lead, bytes, hbytes, -⟩ := utf8EncodeChar_eq_cons d
    cases cs with
    | nil =>
      have := congrArg List.length h
      simp [hbytes] at this
    | cons c cs =>
      rw [encodeRunes_cons, encodeRunes_cons, List.append_assoc] at h
      have hrune := congrArg decodeRune h
      rw [decodeRune_encode, decodeRune_encode, Prod.mk.injEq] at hrune
      obtain ⟨rfl, -⟩ := hrune
      exact List.cons_prefix_cons.mpr ⟨rfl, ih (List.append_cancel_left h)⟩

/-- One text stands in another as bytes exactly if it does as characters. -/
theorem encodeRunes_infix {cs ds : List Char} : encodeRunes ds <:+: encodeRunes cs ↔ ds <:+: cs := by
  constructor
  · rintro ⟨x, y, h⟩
    cases ds with
    | nil => exact List.nil_infix
    | cons d ds =>
      obtain ⟨lead, bytes, hbytes, hlead, -⟩ := utf8EncodeChar_eq_cons d
      have hsplit : encodeRunes cs = x ++ lead :: (bytes ++ (encodeRunes ds ++ y)) := by
        rw [← h, encodeRunes_cons, hbytes]
        simp
      obtain ⟨before, after, rfl, rfl⟩ := encodeRunes_split hlead hsplit
      rw [encodeRunes_append, List.append_assoc] at h
      exact (prefix_of_encodeRunes (List.append_cancel_left h).symm).isInfix.trans
        (List.suffix_append before after).isInfix
  · rintro ⟨before, after, rfl⟩
    exact ⟨encodeRunes before, encodeRunes after, by simp⟩

/-- `strings.Contains` on the results of `strings.Map`. -/
theorem contains_mapRunes (f : Char → Char) (s sub : GoString) :
    contains (mapRunes f s) (mapRunes f sub) = true ↔ (runes sub).map f <:+: (runes s).map f := by
  rw [contains, decide_eq_true_iff, mapRunes_eq, mapRunes_eq, encodeRunes_infix]

/-- A rune of each orbit of `unicode.SimpleFold`. -/
class UnicodeFold where
  fold : Char → Char

/-- The orbits within ASCII. -/
@[reducible] def asciiFold : UnicodeFold := ⟨Char.toLower⟩

/-- `strings.EqualFold`. -/
def equalFoldRunes [UnicodeFold] (s t : GoString) : Bool :=
  (runes s).map UnicodeFold.fold == (runes t).map UnicodeFold.fold

end ApiTest.Text
