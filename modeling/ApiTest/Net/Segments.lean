import ApiTest.Net.Precedence
import ApiTest.Net.URL

/-! Paths written part by part. A path whose parts hold no slash splits back into
them, and `path.Clean` leaves it alone exactly if no part is `.` or `..`; otherwise
it has fewer parts afterwards. The parts may be escaped texts, from which the mux
reads the texts themselves, and which it binds to the wildcards of a pattern. -/

namespace ApiTest.Net

open ApiTest.Text

/-! ### Parts behind slashes -/

/-- The path of the given parts. -/
def joined (parts : List GoString) : GoString := parts.flatMap (slash :: ·)

@[simp] theorem joined_nil : joined [] = [] := rfl

@[simp] theorem joined_cons (part : GoString) (parts : List GoString) :
    joined (part :: parts) = slash :: part ++ joined parts := rfl

theorem joined_eq {parts : List GoString} (hne : parts ≠ []) :
    joined parts = slash :: [slash].intercalate parts := by
  induction parts with
  | nil => exact absurd rfl hne
  | cons part parts ih =>
    cases parts with
    | nil => simp
    | cons next parts => simp [ih (by simp)]

theorem splitOn_joined {parts : List GoString} (hne : parts ≠ [])
    (hslash : ∀ part ∈ parts, slash ∉ part) : (joined parts).splitOn slash = [] :: parts := by
  rw [joined_eq hne, splitOn_cons_slash, List.splitOn_intercalate slash hslash hne]

/-! ### Cleaning -/

/-- The parts that `path.Clean` reads as the directory itself and the one above. -/
def IsDots (part : GoString) : Prop := part = lit "." ∨ part = lit ".."

instance : DecidablePred IsDots := fun _ => inferInstanceAs (Decidable (_ ∨ _))

theorem foldl_pushPart {parts : List GoString} (h : ∀ part ∈ parts, part ≠ [] ∧ ¬ IsDots part)
    (stack : List GoString) : parts.foldl pushPart stack = parts.reverse ++ stack := by
  induction parts generalizing stack with
  | nil => rfl
  | cons part parts ih =>
    rw [List.forall_mem_cons] at h
    obtain ⟨⟨hne, hdots⟩, hparts⟩ := h
    rw [IsDots, not_or] at hdots
    rw [List.foldl_cons, pushPart, if_neg (by simp [hne, hdots.1]), if_neg hdots.2, ih hparts,
      List.reverse_cons, List.append_assoc, List.singleton_append]

theorem length_pushPart (stack : List GoString) (part : GoString) :
    (pushPart stack part).length ≤ stack.length + 1 ∧
      (IsDots part → (pushPart stack part).length ≤ stack.length) := by
  unfold pushPart
  split_ifs with hskip hup
  · exact ⟨Nat.le_succ _, fun _ => le_rfl⟩
  · rw [List.length_tail]
    exact ⟨by omega, fun _ => by omega⟩
  · refine ⟨le_rfl, fun hdots => ?_⟩
    obtain hdot | hdot := hdots
    · exact absurd (Or.inr hdot) hskip
    · exact absurd hdot hup

/-- Every part adds one to the stack at most, and the dots none. -/
theorem length_foldl_pushPart (parts stack : List GoString) :
    (parts.foldl pushPart stack).length ≤ stack.length + parts.length ∧
      ((∃ part ∈ parts, IsDots part) →
        (parts.foldl pushPart stack).length < stack.length + parts.length) := by
  induction parts generalizing stack with
  | nil => simp
  | cons part parts ih =>
    obtain ⟨hpush, hdots⟩ := length_pushPart stack part
    obtain ⟨hle, hlt⟩ := ih (pushPart stack part)
    rw [List.foldl_cons, List.length_cons]
    refine ⟨by omega, ?_⟩
    rintro ⟨d, hd, hdd⟩
    obtain rfl | hd := List.mem_cons.mp hd
    · have := hdots hdd
      omega
    · have := hlt ⟨d, hd, hdd⟩
      omega

section Clean
variable {parts : List GoString} (hne : parts ≠ []) (hparts : ∀ part ∈ parts, IsPart part)
include hne hparts

theorem cleanParts_joined (h : ∀ part ∈ parts, ¬ IsDots part) : cleanParts (joined parts) = parts := by
  rw [cleanParts, splitOn_joined hne fun part hpart => (hparts part hpart).2, List.foldl_cons]
  show (parts.foldl pushPart []).reverse = parts
  rw [foldl_pushPart (fun part hpart => ⟨(hparts part hpart).1, h part hpart⟩), List.append_nil,
    List.reverse_reverse]

theorem length_cleanParts_joined (h : ∃ part ∈ parts, IsDots part) :
    (cleanParts (joined parts)).length < parts.length := by
  have hlt := (length_foldl_pushPart parts []).2 h
  rw [List.length_nil, Nat.zero_add] at hlt
  rw [cleanParts, List.length_reverse, splitOn_joined hne fun part hpart => (hparts part hpart).2]
  exact hlt

theorem getLast_joined : (joined parts).getLast? ≠ some slash := by
  obtain ⟨init, last, rfl⟩ := (List.eq_nil_or_concat parts).resolve_left hne
  obtain ⟨hlast, hslash⟩ := hparts last (by simp)
  have hjoined : joined (init ++ [last]) = (joined init ++ [slash]) ++ last := by simp [joined]
  rw [List.concat_eq_append, hjoined, List.getLast?_append_of_ne_nil _ hlast]
  exact fun he => hslash (List.mem_of_getLast? he)

/-- A path of parts is clean exactly if none of them are dots. -/
theorem cleanPath_joined_iff :
    cleanPath (joined parts) = joined parts ↔ ∀ part ∈ parts, ¬ IsDots part := by
  have hclean : cleanPath (joined parts) =
      slash :: [slash].intercalate (cleanParts (joined parts)) := by
    simp [cleanPath, getLast_joined hne hparts]
  constructor
  · intro h part hpart hdots
    -- a shorter list of parts cannot be written as the same path
    have hlt := length_cleanParts_joined hne hparts ⟨part, hpart, hdots⟩
    have hsplit := congrArg (List.splitOn slash) (hclean.symm.trans h)
    rw [splitOn_joined hne fun part hpart => (hparts part hpart).2, splitOn_cons_slash] at hsplit
    have hsame := (List.cons.inj hsplit).2
    by_cases hnil : cleanParts (joined parts) = []
    · rw [hnil] at hsame
      have hempty : ([] : GoString) ∈ parts := hsame ▸ List.mem_singleton_self _
      exact (hparts _ hempty).1 rfl
    · rw [List.splitOn_intercalate slash (fun part hpart => (isPart_of_mem_cleanParts hpart).2) hnil]
        at hsame
      rw [hsame] at hlt
      exact lt_irrefl _ hlt
  · intro h
    rw [hclean, cleanParts_joined hne hparts h, joined_eq hne]

end Clean

/-! ### Escaped parts -/

/-- A path needs fewer escapes than a segment of it. -/
theorem shouldEscape_path {c : UInt8} (h : shouldEscape c .pathSegment = false) :
    shouldEscape c .path = false := by
  unfold shouldEscape at h ⊢
  split_ifs at h ⊢ <;> simp_all

/-- A byte of a path segment, in its escaped form. -/
theorem escapeByte_segment (c : UInt8) :
    (escapeByte .pathSegment c).all (isEncodedByte · .path) = true ∧
      slash ∉ escapeByte .pathSegment c ∧ escapeByte .pathSegment c ≠ [] ∧
      (shouldEscape c .pathSegment = false → escapeByte .pathSegment c = [c] ∧ c ≠ percent) := by
  refine ⟨List.all_eq_true.mpr fun b hb => ?_, fun hb => ?_, ?_, fun hescape => ⟨?_, ?_⟩⟩
  · obtain ⟨-, hmode⟩ | rfl | halnum | ⟨rfl, hescape⟩ := mem_escapeByte hb
    · cases hmode
    · rfl
    · exact isEncodedByte_of_not_shouldEscape (shouldEscape_of_isAlnum halnum _)
    · exact isEncodedByte_of_not_shouldEscape (shouldEscape_path hescape)
  · obtain ⟨-, hmode⟩ | hpercent | halnum | ⟨rfl, hescape⟩ := mem_escapeByte hb
    · cases hmode
    · exact absurd hpercent (by decide)
    · cases halnum
    · cases hescape
  · unfold escapeByte
    split_ifs <;> exact List.cons_ne_nil _ _
  · rw [escapeByte, if_neg (fun h => nomatch h.2), if_neg (by rw [hescape]; decide)]
  · rintro rfl
    cases hescape

theorem pathEscape_cons (c : UInt8) (s : GoString) :
    pathEscape (c :: s) = escapeByte .pathSegment c ++ pathEscape s := rfl

theorem unescape_pathEscape (s : GoString) : unescape (pathEscape s) = some s :=
  unescape_of_escape (by decide) s

theorem pathEscape_injective : Function.Injective pathEscape := by
  intro s t h
  have := unescape_pathEscape s
  rw [h, unescape_pathEscape t] at this
  exact (Option.some.inj this).symm

/-- A text of bytes that need no escape is its own escaped form. -/
theorem pathEscape_eq_self {s : GoString} (h : s.all (!shouldEscape · .pathSegment) = true) :
    pathEscape s = s := by
  induction s with
  | nil => rfl
  | cons c s ih =>
    simp only [List.all_cons, Bool.and_eq_true, Bool.not_eq_true'] at h
    rw [pathEscape_cons, ih h.2, ((escapeByte_segment c).2.2.2 h.1).1, List.singleton_append]

theorem isPart_pathEscape {s : GoString} (h : s ≠ []) : IsPart (pathEscape s) := by
  constructor
  · intro he
    exact h (pathEscape_injective (show pathEscape s = pathEscape [] from he))
  · intro hmem
    obtain ⟨c, -, hc⟩ := List.mem_flatMap.mp hmem
    exact (escapeByte_segment c).2.1 hc

/-- Dots are escaped as themselves. -/
theorem isDots_pathEscape {s : GoString} : IsDots (pathEscape s) ↔ IsDots s := by
  have hdot : pathEscape s = lit "." ↔ s = lit "." := pathEscape_injective.eq_iff (b := lit ".")
  have hdots : pathEscape s = lit ".." ↔ s = lit ".." := pathEscape_injective.eq_iff (b := lit "..")
  rw [IsDots, IsDots, hdot, hdots]

/-- The path of the escaped forms of the given texts. -/
def escapedPathOf (texts : List GoString) : GoString := joined (texts.map pathEscape)

section Escaped
variable {texts : List GoString} (hne : texts ≠ []) (htexts : ∀ text ∈ texts, IsPart text)

theorem validEncoded_escapedPathOf (texts : List GoString) :
    validEncoded (escapedPathOf texts) .path = true := by
  rw [validEncoded, List.all_eq_true]
  intro c hc
  obtain ⟨part, hpart, hc⟩ := List.mem_flatMap.mp hc
  obtain ⟨text, -, rfl⟩ := List.mem_map.mp hpart
  obtain rfl | hc := List.mem_cons.mp hc
  · decide
  · obtain ⟨b, -, hb⟩ := List.mem_flatMap.mp hc
    exact List.all_eq_true.mp (escapeByte_segment b).1 c hb

theorem unescape_escapedPathOf (texts : List GoString) :
    unescape (escapedPathOf texts) = some (joined texts) := by
  induction texts with
  | nil => rfl
  | cons text texts ih =>
    have hsegment : unescape (pathEscape text ++ escapedPathOf texts) = some (text ++ joined texts) := by
      cases texts with
      | nil => simpa [escapedPathOf] using unescape_pathEscape text
      | cons next texts =>
        have hrest := ih
        simp only [escapedPathOf, List.map_cons, joined_cons, List.cons_append,
          unescape_cons (show slash ≠ percent by decide), Option.map_eq_some_iff] at hrest
        obtain ⟨rest, hrest, heq⟩ := hrest
        simp only [escapedPathOf, List.map_cons, joined_cons, List.cons_append, unescape_append_slash,
          unescape_pathEscape, hrest, Option.bind_some, Option.map_some, heq]
    show unescape (slash :: (pathEscape text ++ escapedPathOf texts)) = _
    rw [unescape_cons (by decide), hsegment, Option.map_some]
    rfl

include htexts

theorem isPart_of_mem_escaped : ∀ part ∈ texts.map pathEscape, IsPart part := by
  intro part hpart
  obtain ⟨text, htext, rfl⟩ := List.mem_map.mp hpart
  exact isPart_pathEscape (htexts text htext).1

include hne

theorem rooted_joined : Rooted (joined texts) := by
  cases texts with
  | nil => exact absurd rfl hne
  | cons text texts =>
    obtain ⟨htext, hslash⟩ := htexts text List.mem_cons_self
    rw [joined_cons, List.cons_append]
    apply rooted_cons
    rw [List.head?_append_of_ne_nil _ htext]
    exact fun he => hslash (List.mem_of_head? he)

theorem rooted_escapedPathOf : Rooted (escapedPathOf texts) :=
  rooted_joined (by simpa using hne) (isPart_of_mem_escaped htexts)

theorem cleanPath_escapedPathOf_iff :
    cleanPath (escapedPathOf texts) = escapedPathOf texts ↔ ∀ text ∈ texts, ¬ IsDots text := by
  rw [escapedPathOf, cleanPath_joined_iff (by simpa using hne) (isPart_of_mem_escaped htexts)]
  simp [isDots_pathEscape]

/-- The mux reads the texts from the path of their escaped forms. -/
theorem requestSegments_escapedPathOf : requestSegments (escapedPathOf texts) = texts := by
  have hparts := isPart_of_mem_escaped htexts
  rw [requestSegments, escapedPathOf, splitOn_joined (by simpa using hne)
    fun part hpart => (hparts part hpart).2, List.tail_cons]
  clear hparts hne
  induction texts with
  | nil => rfl
  | cons text texts ih =>
    rw [List.forall_mem_cons] at htexts
    rw [List.map_cons, segmentsOf, if_neg fun he => (isPart_pathEscape htexts.1.1).1 he.1,
      pathUnescape_of_unescape (unescape_pathEscape text), ih htexts.2]

/-- Such a path is read as the texts, and stays what it was. -/
theorem parse_escapedPathOf [HostSyntax] :
    ∃ u, parse (escapedPathOf texts) = some u ∧ u.Local ∧ u.path = joined texts ∧
      u.escapedPath = escapedPathOf texts ∧ u.rawQuery = [] := by
  have hrooted := rooted_escapedPathOf hne htexts
  have hvalid := validEncoded_escapedPathOf texts
  have hunescape := unescape_escapedPathOf texts
  have hbytes : ∀ c ∈ escapedPathOf texts, c ≠ question ∧ c ≠ hash ∧ isCTL c = false :=
    fun c hc => isEncodedByte_path (List.all_eq_true.mp hvalid c hc)
  have hhash : cut hash (escapedPathOf texts) = (escapedPathOf texts, []) :=
    cut_of_notMem fun hc => (hbytes _ hc).2.1 rfl
  have hquestion : cut question (escapedPathOf texts) = (escapedPathOf texts, []) :=
    cut_of_notMem fun hc => (hbytes _ hc).1 rfl
  have hparse := (parse_rooted hrooted (u := _)).mpr ⟨by
    rw [hhash, List.any_eq_false]
    intro c hc
    simp [(hbytes c hc).2.2], joined texts, by rw [hhash, hquestion]; exact hunescape, [],
    by rw [hhash]; rfl, rfl⟩
  refine ⟨_, hparse, local_of_parse hrooted hparse (rooted_joined hne htexts), rfl, ?_, ?_⟩
  · refine URL.escapedPath_of_validEncoded hrooted hvalid hunescape ?_
    simp only [hhash, hquestion]
  · simp only [hhash, hquestion]

end Escaped

/-! ### Parts escaped byte by byte -/

/-- The mux decodes a path part by part. -/
theorem requestSegments_joined {parts : List GoString} (hne : parts ≠ [])
    (hparts : ∀ part ∈ parts, IsPart part) :
    requestSegments (joined parts) = parts.map pathUnescape := by
  rw [requestSegments, splitOn_joined hne fun part hpart => (hparts part hpart).2, List.tail_cons]
  clear hne
  induction parts with
  | nil => rfl
  | cons part parts ih =>
    rw [List.forall_mem_cons] at hparts
    rw [segmentsOf, if_neg fun he => hparts.1.1 he.1, ih hparts.2, List.map_cons]

/-- A text with every byte escaped. -/
def percentAll (s : GoString) : GoString :=
  s.flatMap fun c => [percent, hexDigit (c / 16), hexDigit (c % 16)]

theorem percentAll_cons (c : UInt8) (s : GoString) :
    percentAll (c :: s) = percent :: hexDigit (c / 16) :: hexDigit (c % 16) :: percentAll s := rfl

theorem unescape_percentAll (s : GoString) : unescape (percentAll s) = some s := by
  induction s with
  | nil => rfl
  | cons c s ih =>
    obtain ⟨hhigh, hlow, hbyte⟩ := hexValue_hexDigit c
    simp only [percentAll_cons, unescape_escape, hhigh, hlow, ih, Option.map_some, hbyte]

/-- No text is read as a directory in this form. -/
theorem isPart_percentAll {s : GoString} (h : s ≠ []) :
    IsPart (percentAll s) ∧ ¬ IsDots (percentAll s) := by
  have hslash : slash ∉ percentAll s := by
    intro hmem
    obtain ⟨c, -, hc⟩ := List.mem_flatMap.mp hmem
    obtain ⟨hhigh, hlow⟩ := isAlnum_hexDigit c
    simp only [List.mem_cons, List.not_mem_nil, or_false] at hc
    obtain hc | hc | hc := hc
    · exact absurd hc (by decide)
    · rw [← hc] at hhigh
      cases hhigh
    · rw [← hc] at hlow
      cases hlow
  cases s with
  | nil => exact absurd rfl h
  | cons c s =>
    refine ⟨⟨by simp [percentAll_cons], hslash⟩, ?_⟩
    rintro (hdot | hdots)
    · exact absurd (congrArg List.head? hdot) (show some percent ≠ (lit ".").head? by decide)
    · exact absurd (congrArg List.head? hdots) (show some percent ≠ (lit "..").head? by decide)

/-! ### Path values -/

/-- What a multi-segment wildcard takes: the rest of the path behind its slash. -/
def multiValue : List GoString → GoString
  | [] => []
  | [q] => if q = [slash] then [] else q
  | q :: qs => q ++ slash :: multiValue qs

/-- The wildcards of a pattern with the segments they take; the one of a trailing
slash takes none. -/
def boundValues : List Segment → List GoString → List (GoString × GoString)
  | .literal _ :: segments, _ :: qs => boundValues segments qs
  | .wild name :: segments, q :: qs => (name, q) :: boundValues segments qs
  | .multi name :: _, qs => if name = [] then [] else [(name, multiValue qs)]
  | _, _ => []

/-- The values the handler of a request finds with `Request.PathValue`. -/
def ServeMux.pathValues {η : Type} (mux : ServeMux η) (r : Request) : List (GoString × GoString) :=
  match mux.find r.host r.method (requestSegments r.escapedPath) with
  | none => []
  | some (p, _) => boundValues p.segments (requestSegments r.escapedPath)

theorem ServeMux.pathValues_eq {η : Type} {mux : ServeMux η} {r : Request} {e : Pattern × η}
    (hfind : mux.find r.host r.method (requestSegments r.escapedPath) = some e) :
    mux.pathValues r = boundValues e.1.segments (requestSegments r.escapedPath) := by
  rw [pathValues, hfind]

/-! ### Names -/

/-- Every name is a wildcard's. -/
@[reducible] def allNames : WildcardNames := ⟨fun _ => true⟩

section Names
variable [WildcardNames]

theorem parseWildcard_allNames {seen : List GoString} {last : Bool} {part : GoString} {s : Segment}
    (h : parseWildcard seen last part = some s) : @parseWildcard allNames seen last part = some s := by
  simp only [parseWildcard] at h ⊢
  split_ifs at h with hends hend hlast hmulti hbad hname <;> cases h
  · rw [if_neg hends, if_pos hend, if_pos hlast]
  · rw [if_neg hends, if_neg hend, if_pos hmulti, if_neg]
    rintro (hlast | hnil | hvalid | hseen)
    · exact hbad (Or.inl hlast)
    · exact hbad (Or.inr (Or.inl hnil))
    · cases hvalid
    · exact hbad (Or.inr (Or.inr (Or.inr hseen)))
  · rw [if_neg hends, if_neg hend, if_neg hmulti, if_neg]
    rintro (hnil | hvalid | hseen)
    · exact hname (Or.inl hnil)
    · cases hvalid
    · exact hname (Or.inr (Or.inr hseen))

theorem parseSegments_allNames {parts seen : List GoString} {segments : List Segment}
    (h : parseSegments seen parts = some segments) :
    @parseSegments allNames seen parts = some segments := by
  induction parts generalizing seen segments with
  | nil => exact h
  | cons part parts ih =>
    unfold parseSegments at h ⊢
    split_ifs at h ⊢ with hend hbrace
    · exact h
    · split at h
      next => cases h
      next s hs =>
        obtain ⟨segs, hsegs, rfl⟩ := Option.map_eq_some_iff.mp h
        simp only [parseWildcard_allNames hs, ih hsegs, Option.map_some]
    · obtain ⟨segs, hsegs, rfl⟩ := Option.map_eq_some_iff.mp h
      rw [ih hsegs, Option.map_some]

/-- Which names are allowed decides only whether a pattern is read. -/
theorem parsePattern_allNames {s : GoString} {p : Pattern} (h : parsePattern s = some p) :
    @parsePattern allNames s = some p := by
  unfold parsePattern at h ⊢
  dsimp only at h ⊢
  split_ifs at h ⊢
  obtain ⟨segments, hsegments, rfl⟩ := Option.map_eq_some_iff.mp h
  rw [parseSegments_allNames hsegments, Option.map_some]

end Names

end ApiTest.Net
