import ApiTest.Text.Strings

/-! Connection strings of keywords and values (`host=db user='a b'`). A key is the
text up to the next equals sign; its value is bare and ends at a separator, or
quoted and ends at its quote, with a backslash before any byte that is meant
literally. Nothing has to stand between a closing quote and the next key, so a key
begins the string, follows a separator, or is glued to a quote. -/

namespace ApiTest.Text.KeywordValue

/-- Blank, tab, line feed, vertical tab, form feed and carriage return. -/
def isSep (c : UInt8) : Bool := c == 0x20 || (0x09 ≤ c && c ≤ 0x0D)

def equalsSign : UInt8 := 0x3D
def quote : UInt8 := 0x27
def escapeSign : UInt8 := 0x5C

/-- A bare value and what follows the separator that ends it. -/
def readBare : GoString → Option (GoString × GoString)
  | [] => some ([], [])
  | [c] => if isSep c then some ([], []) else if c = escapeSign then none else some ([c], [])
  | c :: d :: s =>
    if isSep c then some ([], d :: s)
    else if c = escapeSign then (readBare s).map fun r => (d :: r.1, r.2)
    else (readBare (d :: s)).map fun r => (c :: r.1, r.2)

/-- A quoted value after its opening quote, and what follows the closing one. -/
def readQuoted : GoString → Option (GoString × GoString)
  | [] => none
  | [c] => if c = quote then some ([], []) else none
  | c :: d :: s =>
    if c = quote then some ([], d :: s)
    else if c = escapeSign then (readQuoted s).map fun r => (d :: r.1, r.2)
    else (readQuoted (d :: s)).map fun r => (c :: r.1, r.2)

/-- A value, whether it was quoted, and what follows it. -/
def readValue (s : GoString) : Option (GoString × Bool × GoString) :=
  match s.dropWhile isSep with
  | [] => some ([], false, [])
  | c :: rest =>
    if c = quote then (readQuoted rest).map fun r => (r.1, true, r.2)
    else (readBare (c :: rest)).map fun r => (r.1, false, r.2)

/-- A key as it is written, its value, and whether the key is glued to the quote
of the value before it. -/
structure Setting where
  glued : Bool
  key : GoString
  value : GoString
  deriving DecidableEq, Repr

def trimSep (s : GoString) : GoString :=
  ((s.dropWhile isSep).reverse.dropWhile isSep).reverse

/-- The key a setting is stored under. -/
def Setting.name (e : Setting) : GoString := trimSep e.key

/-- At most `fuel` settings; `none` is an error. -/
def settingsFrom : ℕ → Bool → GoString → Option (List Setting)
  | _, _, [] => some []
  | 0, _, _ :: _ => none
  | fuel + 1, glued, c :: s =>
    if equalsSign ∉ c :: s then none
    else
      let (key, rest) := cut equalsSign (c :: s)
      match readValue rest with
      | none => none
      | some (value, quoted, rest) =>
        (settingsFrom fuel quoted rest).map (⟨glued, key, value⟩ :: ·)

/-- The settings of a connection string, in order; each takes at least a byte. -/
def settings (s : GoString) : Option (List Setting) := settingsFrom s.length false s

/-- The value under a name: a later setting replaces an earlier one. -/
def get (entries : List Setting) (name : GoString) : GoString :=
  ((entries.reverse.find? fun e => e.name = name).map Setting.value).getD []

example : (settings (lit "host=db user='a b'password=x\\ y")).map
    (List.map fun e => (e.glued, e.name, e.value)) =
      some [(false, lit "host", lit "db"), (false, lit "user", lit "a b"),
        (true, lit "password", lit "x y")] := by decide

/-! ### Where keys stand -/

/-- Separators stand around the name of a key. -/
theorem eq_trimSep (s : GoString) :
    ∃ trail, s = s.takeWhile isSep ++ trimSep s ++ trail ∧ ∀ c ∈ trail, isSep c = true := by
  refine ⟨((s.dropWhile isSep).reverse.takeWhile isSep).reverse, ?_,
    fun c hc => List.mem_takeWhile_imp (List.mem_reverse.mp hc)⟩
  rw [trimSep, List.append_assoc, ← List.reverse_append, List.takeWhile_append_dropWhile,
    List.reverse_reverse, List.takeWhile_append_dropWhile]

/-- The text ends with a separator. -/
def EndsSep (s : GoString) : Prop := ∃ t c, s = t ++ [c] ∧ isSep c = true

theorem EndsSep.append (s : GoString) {t : GoString} (h : EndsSep t) : EndsSep (s ++ t) := by
  obtain ⟨t, c, rfl, hc⟩ := h
  exact ⟨s ++ t, c, by simp, hc⟩

theorem endsSep_takeWhile {s : GoString} (h : s.takeWhile isSep ≠ []) :
    EndsSep (s.takeWhile isSep) :=
  ⟨_, _, (List.dropLast_append_getLast h).symm, List.mem_takeWhile_imp (List.getLast_mem h)⟩

/-- A bare value ends the string or is followed by a separator. -/
theorem readBare_eq_some {s value rest : GoString} (h : readBare s = some (value, rest)) :
    ∃ raw, s = raw ++ rest ∧ (rest = [] ∨ EndsSep raw) := by
  fun_induction readBare s generalizing value with
  | case1 =>
    cases h
    exact ⟨[], rfl, Or.inl rfl⟩
  | case2 c hc =>
    cases h
    exact ⟨[c], rfl, Or.inl rfl⟩
  | case3 => cases h
  | case4 c =>
    cases h
    exact ⟨[c], rfl, Or.inl rfl⟩
  | case5 c d s hc =>
    cases h
    exact ⟨[c], rfl, Or.inr ⟨[], c, rfl, hc⟩⟩
  | case6 d s hc ih =>
    obtain ⟨r, hr, hpair⟩ := Option.map_eq_some_iff.mp h
    cases hpair
    obtain ⟨raw, rfl, hend⟩ := ih hr
    exact ⟨escapeSign :: d :: raw, rfl, hend.imp_right (EndsSep.append [escapeSign, d])⟩
  | case7 c d s hsep hesc ih =>
    obtain ⟨r, hr, hpair⟩ := Option.map_eq_some_iff.mp h
    cases hpair
    obtain ⟨raw, hraw, hend⟩ := ih hr
    exact ⟨c :: raw, by rw [hraw]; rfl, hend.imp_right (EndsSep.append [c])⟩

theorem readQuoted_eq_some {s value rest : GoString} (h : readQuoted s = some (value, rest)) :
    ∃ raw, s = raw ++ rest := by
  fun_induction readQuoted s generalizing value with
  | case1 => cases h
  | case2 =>
    cases h
    exact ⟨[quote], rfl⟩
  | case3 => cases h
  | case4 d s =>
    cases h
    exact ⟨[quote], rfl⟩
  | case5 d s hc ih =>
    obtain ⟨r, hr, hpair⟩ := Option.map_eq_some_iff.mp h
    cases hpair
    obtain ⟨raw, rfl⟩ := ih hr
    exact ⟨escapeSign :: d :: raw, rfl⟩
  | case6 c d s hquote hesc ih =>
    obtain ⟨r, hr, hpair⟩ := Option.map_eq_some_iff.mp h
    cases hpair
    obtain ⟨raw, hraw⟩ := ih hr
    exact ⟨c :: raw, by rw [hraw]; rfl⟩

/-- What follows a value that was not quoted is nothing or comes after a
separator. -/
theorem readValue_eq_some {s value rest : GoString} {quoted : Bool}
    (h : readValue s = some (value, quoted, rest)) :
    ∃ raw, s = raw ++ rest ∧ (quoted = false → rest = [] ∨ EndsSep raw) := by
  unfold readValue at h
  have hsplit := List.takeWhile_append_dropWhile (p := isSep) (l := s)
  split at h
  next hnil =>
    cases h
    exact ⟨s, by simp, fun _ => Or.inl rfl⟩
  next c t ht =>
    split_ifs at h with hquote
    · obtain ⟨r, hr, hpair⟩ := Option.map_eq_some_iff.mp h
      cases hpair
      obtain ⟨raw, hraw⟩ := readQuoted_eq_some hr
      refine ⟨s.takeWhile isSep ++ c :: raw, ?_, by simp⟩
      rw [List.append_assoc, List.cons_append, ← hraw, ← ht, hsplit]
    · obtain ⟨r, hr, hpair⟩ := Option.map_eq_some_iff.mp h
      cases hpair
      obtain ⟨raw, hraw, hend⟩ := readBare_eq_some hr
      refine ⟨s.takeWhile isSep ++ raw, ?_, fun _ => hend.imp_right (EndsSep.append _)⟩
      rw [List.append_assoc, ← hraw, ← ht, hsplit]

/-- Each key stands in the string, before its equals sign; one that is not glued
to a quote begins the string or follows a separator. -/
theorem mem_settingsFrom {fuel : ℕ} {glued : Bool} {s : GoString} {entries : List Setting}
    (h : settingsFrom fuel glued s = some entries) {e : Setting} (he : e ∈ entries) :
    ∃ pre post, s = pre ++ e.key ++ equalsSign :: post ∧
      (e.glued = false → (pre = [] ∧ glued = false) ∨ EndsSep pre) := by
  induction fuel generalizing glued s entries with
  | zero =>
    cases s with
    | nil =>
      cases h
      cases he
    | cons c s => cases h
  | succ fuel ih =>
    cases s with
    | nil =>
      cases h
      cases he
    | cons c s =>
      simp only [settingsFrom] at h
      split_ifs at h with hassign
      have hcut := cut_of_mem hassign
      split at h
      next => cases h
      next value quoted rest hvalue =>
        obtain ⟨raw, hraw, hend⟩ := readValue_eq_some hvalue
        obtain ⟨later, hlater, rfl⟩ := Option.map_eq_some_iff.mp h
        obtain rfl | he := List.mem_cons.mp he
        · exact ⟨[], _, hcut, fun hglued => Or.inl ⟨rfl, hglued⟩⟩
        · obtain ⟨pre, post, hrest, hpre⟩ := ih hlater he
          refine ⟨(cut equalsSign (c :: s)).1 ++ equalsSign :: (raw ++ pre), post, ?_, ?_⟩
          · refine hcut.trans ?_
            rw [hraw, hrest]
            simp
          · intro hglued
            right
            have hfront : EndsSep (raw ++ pre) := by
              obtain ⟨rfl, hbare⟩ | hsep := hpre hglued
              · rw [List.append_nil]
                exact (hend hbare).resolve_left (by simp [hrest])
              · exact EndsSep.append _ hsep
            exact EndsSep.append _ (EndsSep.append [equalsSign] hfront)

end ApiTest.Text.KeywordValue
