import Mathlib.Data.List.Sort
import ApiTest.Multimap.Basic
import ApiTest.Net.URL

/-! Query strings: `url.ParseQuery` and `Values.Encode`. A query string is cut at
its ampersands; a piece with a semicolon or a broken escape is dropped. Encoding
writes the pairs in the order of their keys, and parsing what was encoded gives
the same values under every key. -/

namespace ApiTest.Net

open ApiTest.Text Multimap

def ampersand : UInt8 := 0x26
def semicolon : UInt8 := 0x3B
def equals : UInt8 := 0x3D

/-- `url.QueryUnescape`: a plus is a blank, the rest is decoded as in a path. -/
def queryUnescape (s : GoString) : Option GoString :=
  unescape (s.map fun c => if c = plus then space else c)

/-- `url.QueryEscape`. -/
def queryEscape (s : GoString) : GoString := escape .queryComponent s

/-- One piece of a query string: a key and a value, or nothing. -/
def parsePair (piece : GoString) : Option (GoString × GoString) :=
  if semicolon ∈ piece then none
  else if piece = [] then none
  else
    let (key, value) := cut equals piece
    (queryUnescape key).bind fun key => (queryUnescape value).map fun value => (key, value)

/-- `url.ParseQuery` without its error, as `URL.Query` uses it. -/
def parseQuery (raw : GoString) : List (GoString × List GoString) :=
  ofPairs ((raw.splitOn ampersand).filterMap parsePair)

/-- The pairs of a multimap in the order `Values.Encode` writes them. -/
def encodedPairs (m : List (GoString × List GoString)) : List (GoString × GoString) :=
  toPairs (m.insertionSort fun a b => a.1 ≤ b.1)

def writePair (p : GoString × GoString) : GoString := queryEscape p.1 ++ equals :: queryEscape p.2

/-- `Values.Encode`. -/
def encodeQuery (m : List (GoString × List GoString)) : GoString :=
  [ampersand].intercalate ((encodedPairs m).map writePair)

example : parseQuery (lit "a=1&b=x+y&a=%32&c;d=0") =
    [(lit "a", [lit "1", lit "2"]), (lit "b", [lit "x y"])] := by decide

/-! ### Round trip -/

/-- The bytes an escaped component consists of. -/
def isComponentByte (c : UInt8) : Bool := c == plus || c == percent || !shouldEscape c .queryComponent

theorem isComponentByte_of_mem {s : GoString} {c : UInt8} (h : c ∈ queryEscape s) :
    isComponentByte c = true := by
  obtain ⟨b, -, hc⟩ := List.mem_flatMap.mp h
  unfold isComponentByte
  obtain ⟨rfl, -⟩ | rfl | halnum | ⟨rfl, hescape⟩ := mem_escapeByte hc
  · rfl
  · rfl
  · rw [shouldEscape_of_isAlnum halnum, Bool.not_false, Bool.or_true]
  · rw [hescape, Bool.not_false, Bool.or_true]

theorem isComponentByte_ne {c : UInt8} (h : isComponentByte c = true) :
    c ≠ ampersand ∧ c ≠ semicolon ∧ c ≠ equals ∧ c ≠ hash ∧ isCTL c = false := by
  have hctl : isCTL c = false :=
    forall_byte (p := fun c => isComponentByte c = true → isCTL c = false) (by decide +kernel) c h
  have hne : ∀ {d}, isComponentByte d = false → c ≠ d := by
    rintro d hd rfl
    rw [h] at hd
    cases hd
  exact ⟨hne rfl, hne rfl, hne rfl, hne rfl, hctl⟩

theorem queryUnescape_queryEscape (s : GoString) : queryUnescape (queryEscape s) = some s := by
  -- reading a plus as a blank undoes the one difference to escaping in a path
  have hbyte : ∀ c : UInt8,
      (escapeByte .queryComponent c).map (fun b => if b = plus then space else b) =
        if c = space then [space] else if shouldEscape c .queryComponent then
          [percent, hexDigit (c / 16), hexDigit (c % 16)] else [c] := by
    intro c
    have hplain {b : UInt8} (hb : isAlnum b = true) : b ≠ plus := by
      rintro rfl
      cases hb
    obtain ⟨hhigh, hlow⟩ := isAlnum_hexDigit c
    unfold escapeByte
    simp only [and_true]
    split_ifs with hspace hescape
    · rfl
    · simp [hplain hhigh, hplain hlow, show percent ≠ plus by decide]
    · have hplus : c ≠ plus := by
        rintro rfl
        exact hescape rfl
      simp [hplus]
  unfold queryUnescape
  induction s with
  | nil => rfl
  | cons c s ih =>
    rw [queryEscape, escape, List.flatMap_cons, List.map_append, hbyte]
    rw [queryEscape, escape] at ih
    obtain ⟨hhigh, hlow, hvalue⟩ := hexValue_hexDigit c
    split_ifs with hspace hescape
    · rw [List.singleton_append, unescape_cons (by decide), ih, hspace]
      rfl
    · simp only [List.cons_append, List.nil_append, unescape_escape, hhigh, hlow, hvalue, ih,
        Option.map_some]
    · rw [List.singleton_append, unescape_cons, ih]
      · rfl
      · rintro rfl
        exact hescape rfl

theorem parsePair_writePair (p : GoString × GoString) : parsePair (writePair p) = some p := by
  have hkey : equals ∉ queryEscape p.1 := fun h => (isComponentByte_ne (isComponentByte_of_mem h)).2.2.1 rfl
  have hsemi : semicolon ∉ writePair p := by
    rw [writePair, List.mem_append, List.mem_cons]
    rintro (h | h | h)
    · exact (isComponentByte_ne (isComponentByte_of_mem h)).2.1 rfl
    · exact absurd h (by decide)
    · exact (isComponentByte_ne (isComponentByte_of_mem h)).2.1 rfl
  have hne : writePair p ≠ [] := by simp [writePair]
  rw [parsePair, if_neg hsemi, if_neg hne]
  simp only [writePair, cut_append hkey, queryUnescape_queryEscape, Option.bind_some,
    Option.map_some]

/-- The pieces of an encoded query are its pairs. -/
theorem pieces_encodeQuery (m : List (GoString × List GoString)) :
    ((encodeQuery m).splitOn ampersand).filterMap parsePair = encodedPairs m := by
  unfold encodeQuery
  generalize encodedPairs m = pairs
  cases pairs with
  | nil => rfl
  | cons p pairs =>
    have hnotMem : ∀ piece ∈ (p :: pairs).map writePair, ampersand ∉ piece := by
      intro piece hpiece
      obtain ⟨q, -, rfl⟩ := List.mem_map.mp hpiece
      rw [writePair, List.mem_append, List.mem_cons]
      rintro (h | h | h)
      · exact (isComponentByte_ne (isComponentByte_of_mem h)).1 rfl
      · exact absurd h (by decide)
      · exact (isComponentByte_ne (isComponentByte_of_mem h)).1 rfl
    rw [List.splitOn_intercalate ampersand hnotMem (by simp), List.filterMap_map]
    simp [parsePair_writePair]

/-- Parsing an encoded query gives back the values of every key. -/
theorem lookup_parseQuery_encodeQuery {m : List (GoString × List GoString)}
    (h : (m.map Prod.fst).Nodup) (k : GoString) :
    ((parseQuery (encodeQuery m)).lookup k).getD [] = (m.lookup k).getD [] := by
  have hperm := List.perm_insertionSort (fun a b : GoString × List GoString => a.1 ≤ b.1) m
  rw [parseQuery, pieces_encodeQuery, lookup_ofPairs, encodedPairs,
    valuesOf_toPairs ((hperm.map _).nodup_iff.mpr h), lookup_perm h hperm.symm]

theorem mem_intercalate {sep c : UInt8} {parts : List GoString}
    (h : c ∈ [sep].intercalate parts) : c = sep ∨ ∃ part ∈ parts, c ∈ part := by
  induction parts with
  | nil => cases h
  | cons part rest ih =>
    match rest with
    | [] => exact Or.inr ⟨part, List.mem_cons_self, by simpa using h⟩
    | next :: rest =>
      rw [List.intercalate_cons_cons, List.mem_append, List.mem_append, List.mem_singleton] at h
      obtain (h | h) | h := h
      · exact Or.inr ⟨part, List.mem_cons_self, h⟩
      · exact Or.inl h
      · exact (ih h).imp_right fun ⟨p, hp, hc⟩ => ⟨p, List.mem_cons_of_mem _ hp, hc⟩

/-- An encoded query holds no byte that would end it. -/
theorem encodeQuery_bytes (m : List (GoString × List GoString)) :
    ∀ c ∈ encodeQuery m, c ≠ hash ∧ isCTL c = false := by
  intro c hc
  have hcomponent : ∀ s, c ∈ queryEscape s → c ≠ hash ∧ isCTL c = false := fun s h =>
    (isComponentByte_ne (isComponentByte_of_mem h)).2.2.2
  obtain rfl | ⟨piece, hpiece, hc⟩ := mem_intercalate hc
  · decide
  · obtain ⟨p, -, rfl⟩ := List.mem_map.mp hpiece
    rw [writePair, List.mem_append, List.mem_cons] at hc
    obtain h | rfl | h := hc
    · exact hcomponent _ h
    · decide
    · exact hcomponent _ h

/-! ### Queries written without escaping -/

/-- A byte that stands for itself in a query and separates nothing. -/
def isQueryPlain (c : UInt8) : Bool :=
  c ≠ ampersand && c ≠ semicolon && c ≠ equals && c ≠ percent && c ≠ plus

theorem ne_of_isQueryPlain {c : UInt8} (h : isQueryPlain c = true) :
    c ≠ ampersand ∧ c ≠ semicolon ∧ c ≠ equals ∧ c ≠ percent ∧ c ≠ plus := by
  simpa [isQueryPlain, and_assoc] using h

theorem queryUnescape_plain {s : GoString} (h : s.all isQueryPlain = true) :
    queryUnescape s = some s := by
  rw [List.all_eq_true] at h
  have hmap : s.map (fun c => if c = plus then space else c) = s := by
    refine (List.map_congr_left fun c hc => ?_).trans (List.map_id s)
    exact if_neg (ne_of_isQueryPlain (h c hc)).2.2.2.2
  rw [queryUnescape, hmap, unescape_of_not_mem fun hc => (ne_of_isQueryPlain (h _ hc)).2.2.2.1 rfl]

/-- A pair as `fmt` writes it. -/
def plainPair (p : GoString × GoString) : GoString := p.1 ++ equals :: p.2

/-- A key or a value that needs no escaping. -/
def PlainPair (p : GoString × GoString) : Prop :=
  p.1.all isQueryPlain = true ∧ p.2.all isQueryPlain = true

theorem parsePair_plainPair {p : GoString × GoString} (h : PlainPair p) :
    parsePair (plainPair p) = some p := by
  have hbytes : ∀ c ∈ p.1 ++ p.2, isQueryPlain c = true := by
    intro c hc
    obtain hc | hc := List.mem_append.mp hc
    · exact List.all_eq_true.mp h.1 c hc
    · exact List.all_eq_true.mp h.2 c hc
  have hkey : equals ∉ p.1 := fun hc =>
    (ne_of_isQueryPlain (List.all_eq_true.mp h.1 _ hc)).2.2.1 rfl
  have hsemi : semicolon ∉ plainPair p := by
    rw [plainPair, List.mem_append, List.mem_cons]
    rintro (hc | hc | hc)
    · exact (ne_of_isQueryPlain (hbytes _ (List.mem_append_left _ hc))).2.1 rfl
    · exact absurd hc (by decide)
    · exact (ne_of_isQueryPlain (hbytes _ (List.mem_append_right _ hc))).2.1 rfl
  rw [parsePair, if_neg hsemi, if_neg (by simp [plainPair])]
  simp only [plainPair, cut_append hkey, queryUnescape_plain h.1, queryUnescape_plain h.2,
    Option.bind_some, Option.map_some]

/-- Pairs written side by side are read as they are. -/
theorem parseQuery_plain {pairs : List (GoString × GoString)} (hne : pairs ≠ [])
    (h : ∀ p ∈ pairs, PlainPair p) :
    parseQuery ([ampersand].intercalate (pairs.map plainPair)) = ofPairs pairs := by
  have hnotMem : ∀ piece ∈ pairs.map plainPair, ampersand ∉ piece := by
    intro piece hpiece
    obtain ⟨p, hp, rfl⟩ := List.mem_map.mp hpiece
    rw [plainPair, List.mem_append, List.mem_cons]
    rintro (hc | hc | hc)
    · exact (ne_of_isQueryPlain (List.all_eq_true.mp (h p hp).1 _ hc)).1 rfl
    · exact absurd hc (by decide)
    · exact (ne_of_isQueryPlain (List.all_eq_true.mp (h p hp).2 _ hc)).1 rfl
  have hread : (pairs.map plainPair).filterMap parsePair = pairs := by
    rw [List.filterMap_map]
    refine (List.filterMap_congr fun p hp => ?_).trans List.filterMap_some
    exact parsePair_plainPair (h p hp)
  rw [parseQuery, List.splitOn_intercalate ampersand hnotMem (by simpa using hne), hread]

end ApiTest.Net
