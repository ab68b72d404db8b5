import ApiTest.Net.Query
import ApiTest.Text.Hex

/-! `http.Redirect` and the way browsers read its `Location`. A target that reads
as a URL without scheme and host has its path cleaned; anything else is passed on
as it is. Browsers drop tabs and line breaks and take a backslash for a slash, so
a location that starts with one slash here can start with two there, and then
names another host. For rooted targets this is decided by the first part of the
path that survives cleaning, or by the bytes after the slash. -/

namespace ApiTest.Net

open ApiTest.Text

def backslash : UInt8 := 0x5C

/-- `hexEscapeNonASCII`; the digits are those of `strconv`, in lower case. -/
def hexEscapeNonASCII (s : GoString) : GoString :=
  s.flatMap fun c => if c < 0x80 then [c] else [percent, Hex.digit (c / 16), Hex.digit (c % 16)]

/-- The directory of a rooted path, with its slash. -/
def dirOf (path : GoString) : GoString := (path.reverse.dropWhile (· ≠ slash)).reverse

/-- The `Location` that `http.Redirect` sets for a request to `oldPath`. -/
def redirectLocation [HostSyntax] (oldPath target : GoString) : GoString :=
  match parse target with
  | none => hexEscapeNonASCII target
  | some u =>
    if u.scheme ≠ [] ∨ u.host ≠ [] then hexEscapeNonASCII target
    else
      let target := if target.head? = some slash then target
        else dirOf (if oldPath = [] then [slash] else oldPath) ++ target
      hexEscapeNonASCII
        (cleanPath (target.takeWhile (· ≠ question)) ++ target.dropWhile (· ≠ question))

/-! ### Browsers -/

/-- TAB, LF and CR, which browsers drop from a URL. -/
def isDropped (c : UInt8) : Bool := c == 0x09 || c == 0x0A || c == 0x0D

/-- A location as browsers read it. -/
def browserText (s : GoString) : GoString :=
  (s.filter (!isDropped ·)).map fun c => if c = backslash then slash else c

/-- The first byte that is not dropped is read as a slash. -/
def opensSlash (s : GoString) : Bool :=
  (s.find? (!isDropped ·)).any fun c => c == slash || c == backslash

theorem browserText_cons_slash (s : GoString) :
    browserText (slash :: s) = slash :: browserText s := rfl

theorem head_browserText (s : GoString) :
    (browserText s).head? = some slash ↔ opensSlash s = true := by
  rw [browserText, opensSlash, List.head?_map, List.head?_filter]
  cases s.find? (!isDropped ·) with
  | none => simp
  | some c =>
    by_cases hc : c = backslash
    · simp [hc]
    · simp [hc]

/-- A location that starts with a slash stays on its host unless a second one
follows. -/
theorem rooted_browserText (s : GoString) :
    Rooted (browserText (slash :: s)) ↔ opensSlash s = false := by
  rw [browserText_cons_slash, ← Bool.not_eq_true, ← head_browserText]
  constructor
  · intro h
    obtain ⟨rest, heq, hrest⟩ := h.eq_cons
    rwa [(List.cons.inj heq).2]
  · exact rooted_cons

theorem opensSlash_append {s : GoString} {c : UInt8} (h : s.find? (!isDropped ·) = some c)
    (t : GoString) : opensSlash (s ++ t) = (c == slash || c == backslash) := by
  rw [opensSlash, List.find?_append, h]
  rfl

theorem opensSlash_append_of_none {s : GoString} (h : s.find? (!isDropped ·) = none)
    (t : GoString) : opensSlash (s ++ t) = opensSlash t := by
  rw [opensSlash, List.find?_append, h, Option.none_or, opensSlash]

/-- Escaping bytes above ASCII does not change what a location opens with. -/
theorem opensSlash_hexEscapeNonASCII (s : GoString) :
    opensSlash (hexEscapeNonASCII s) = opensSlash s := by
  induction s with
  | nil => rfl
  | cons c s ih =>
    rw [hexEscapeNonASCII] at ih
    rw [hexEscapeNonASCII, List.flatMap_cons, show c :: s = [c] ++ s from rfl]
    by_cases hascii : c < 0x80
    · rw [if_pos hascii]
      cases hfind : [c].find? (!isDropped ·) with
      | none => rw [opensSlash_append_of_none hfind, opensSlash_append_of_none hfind, ih]
      | some b => rw [opensSlash_append hfind, opensSlash_append hfind]
    · have hbyte : ∀ c : UInt8, ¬ c < 0x80 → [c].find? (!isDropped ·) = some c ∧
          (c == slash || c == backslash) = false := forall_byte (by decide +kernel)
      obtain ⟨hfind, hc⟩ := hbyte c hascii
      rw [if_neg hascii, opensSlash_append hfind, hc]
      rfl

/-! ### Rooted targets -/

/-- The first part of a cleaned path does not begin with a backslash; if there is
nothing in it but dropped bytes, no slash follows it. -/
def firstPartStays (path : GoString) : Bool :=
  match cleanParts path with
  | [] => true
  | first :: more =>
    match first.find? (!isDropped ·) with
    | some c => c != backslash
    | none => more.isEmpty && path.getLast? != some slash

/-- A target stays on its host: it reads as a URL and the first part of its path
stays, or it does not and no second slash follows the first one. -/
def targetStays [HostSyntax] (target : GoString) : Bool :=
  if (parse target).isSome then firstPartStays (target.takeWhile (· ≠ question))
  else !opensSlash target.tail

/-- The query of a location does not open with a slash. -/
theorem opensSlash_query (s : GoString) : opensSlash (s.dropWhile (· ≠ question)) = false := by
  cases h : s.dropWhile (· ≠ question) with
  | nil => rfl
  | cons c rest =>
    have hc : c = question := by
      have hhead := List.head?_dropWhile_not (fun c => decide (c ≠ question)) s
      rw [h] at hhead
      simpa using hhead
    rw [hc]
    rfl

theorem cleanPath_eq_cons (p : GoString) :
    cleanPath p = slash :: ([slash].intercalate (cleanParts p) ++
      if p.getLast? = some slash ∧ cleanParts p ≠ [] then [slash] else []) := by
  simp only [cleanPath]
  split_ifs <;> simp

/-- A cleaned path with a query opens with a second slash unless its first part
stays. -/
theorem opensSlash_clean (path query : GoString) (hquery : opensSlash query = false) :
    opensSlash ([slash].intercalate (cleanParts path) ++
      (if path.getLast? = some slash ∧ cleanParts path ≠ [] then [slash] else []) ++ query) =
    !firstPartStays path := by
  have hslash : ∀ s, opensSlash (slash :: s) = true := fun _ => rfl
  have hparts : ∀ part ∈ cleanParts path, IsPart part := fun _ => isPart_of_mem_cleanParts
  unfold firstPartStays
  cases hclean : cleanParts path with
  | nil => simpa using hquery
  | cons first more =>
    rw [hclean] at hparts
    have hfirst := (hparts first List.mem_cons_self).2
    -- what follows the first part
    obtain ⟨rest, hrest⟩ : ∃ rest, [slash].intercalate (first :: more) = first ++ rest ∧
        (more = [] → rest = []) ∧ (more ≠ [] → ∃ t, rest = slash :: t) := by
      cases more with
      | nil => exact ⟨[], by simp⟩
      | cons next more => exact ⟨slash :: [slash].intercalate (next :: more), by simp⟩
    obtain ⟨hjoin, hnil, hcons⟩ := hrest
    rw [hjoin]
    cases hfind : first.find? (!isDropped ·) with
    | some c =>
      have hc : c ≠ slash := ne_of_mem_of_not_mem (List.mem_of_find?_eq_some hfind) hfirst
      rw [List.append_assoc, List.append_assoc, opensSlash_append hfind]
      simp [hfind, beq_false_of_ne hc, bne]
    | none =>
      rw [List.append_assoc, List.append_assoc, opensSlash_append_of_none hfind]
      by_cases hmore : more = []
      · rw [hnil hmore]
        by_cases hlast : path.getLast? = some slash
        · simp [hfind, hlast, hslash]
        · simp [hfind, hlast, hmore, hquery]
      · obtain ⟨t, ht⟩ := hcons hmore
        simp [hfind, ht, hslash, hmore]

/-- A browser stays on the host of a redirect with a rooted target exactly if the
target stays. -/
theorem rooted_browserText_redirectLocation [HostSyntax] (oldPath : GoString) {target : GoString}
    (h : Rooted target) :
    Rooted (browserText (redirectLocation oldPath target)) ↔ targetStays target = true := by
  obtain ⟨rest, htarget, hrest⟩ := h.eq_cons
  have hescape : ∀ s, hexEscapeNonASCII (slash :: s) = slash :: hexEscapeNonASCII s := fun _ => rfl
  unfold redirectLocation targetStays
  cases hparse : parse target with
  | none =>
    rw [htarget, hescape, rooted_browserText, opensSlash_hexEscapeNonASCII]
    simp
  | some u =>
    obtain ⟨-, path, -, fragment, -, hu⟩ := (parse_rooted h).mp hparse
    have hlocal : ¬ (u.scheme ≠ [] ∨ u.host ≠ []) := by
      rw [hu]
      simp
    simp only [if_neg hlocal, if_pos h.1, Option.isSome_some, if_true]
    rw [cleanPath_eq_cons, List.cons_append, hescape, rooted_browserText,
      opensSlash_hexEscapeNonASCII, opensSlash_clean _ _ (opensSlash_query target),
      Bool.not_eq_false']

/-! ### The query of a location -/

/-- The raw query of a URL text. -/
def queryOf (s : GoString) : GoString := (cut question (cut hash s).1).2

theorem hexEscapeNonASCII_append (s t : GoString) :
    hexEscapeNonASCII (s ++ t) = hexEscapeNonASCII s ++ hexEscapeNonASCII t := List.flatMap_append

/-- Escaping adds no question mark and no hash. -/
theorem mem_of_mem_hexEscapeNonASCII {c : UInt8} (hc : c = question ∨ c = hash) {s : GoString}
    (h : c ∈ hexEscapeNonASCII s) : c ∈ s := by
  have hbyte : ∀ x : UInt8,
      (question ∈ (if x < 0x80 then [x] else [percent, Hex.digit (x / 16), Hex.digit (x % 16)]) →
        question = x) ∧
      (hash ∈ (if x < 0x80 then [x] else [percent, Hex.digit (x / 16), Hex.digit (x % 16)]) →
        hash = x) := forall_byte (by decide +kernel)
  obtain ⟨x, hx, hmem⟩ := List.mem_flatMap.mp h
  obtain rfl | rfl := hc
  · rwa [(hbyte x).1 hmem]
  · rwa [(hbyte x).2 hmem]

theorem mem_foldl_pushPart {parts stack : List GoString} {part : GoString}
    (h : part ∈ parts.foldl pushPart stack) : part ∈ stack ∨ part ∈ parts := by
  induction parts generalizing stack with
  | nil => exact .inl h
  | cons first parts ih =>
    obtain hstack | hparts := ih h
    · unfold pushPart at hstack
      split_ifs at hstack
      · exact .inl hstack
      · exact .inl (List.mem_of_mem_tail hstack)
      · obtain rfl | hold := List.mem_cons.mp hstack
        · exact .inr List.mem_cons_self
        · exact .inl hold
    · exact .inr (List.mem_cons_of_mem _ hparts)

/-- A cleaned path consists of slashes and bytes of the path. -/
theorem mem_of_mem_cleanPath {c : UInt8} (hc : c ≠ slash) {p : GoString} (h : c ∈ cleanPath p) : c ∈ p := by
  rw [cleanPath_eq_cons, List.mem_cons, List.mem_append] at h
  obtain rfl | h | h := h
  · exact absurd rfl hc
  · obtain rfl | ⟨part, hpart, hmem⟩ := mem_intercalate h
    · exact absurd rfl hc
    · obtain hnil | hsplit := mem_foldl_pushPart (List.mem_reverse.mp hpart)
      · cases hnil
      · exact (part_of_mem_splitOn hsplit).1 hmem
  · split_ifs at h
    · exact absurd (List.mem_singleton.mp h) hc
    · cases h

theorem mem_of_mem_dirOf {c : UInt8} {p : GoString} (h : c ∈ dirOf p) : c ∈ p :=
  List.mem_reverse.mp ((List.dropWhile_suffix _).subset (List.mem_reverse.mp h))

/-- A location is some text without a question mark and the rest of the target, escaped. -/
theorem redirectLocation_eq [HostSyntax] {oldPath : GoString} (hold : question ∉ oldPath ∧ hash ∉ oldPath)
    {target : GoString} (htarget : hash ∉ target) :
    ∃ front, redirectLocation oldPath target =
        hexEscapeNonASCII (front ++ target.dropWhile (· ≠ question)) ∧
      question ∉ front ∧ hash ∉ front := by
  have hwhole : ∃ front, hexEscapeNonASCII target =
      hexEscapeNonASCII (front ++ target.dropWhile (· ≠ question)) ∧ question ∉ front ∧ hash ∉ front := by
    refine ⟨target.takeWhile (· ≠ question), by rw [List.takeWhile_append_dropWhile],
      notMem_cut question target, fun h => htarget ((List.takeWhile_prefix _).subset h)⟩
  have hcleaned : ∀ path, question ∉ path → hash ∉ path →
      question ∉ cleanPath path ∧ hash ∉ cleanPath path := fun path hq hh =>
    ⟨fun h => hq (mem_of_mem_cleanPath (by decide) h), fun h => hh (mem_of_mem_cleanPath (by decide) h)⟩
  have htake : hash ∉ target.takeWhile (· ≠ question) := fun h =>
    htarget ((List.takeWhile_prefix _).subset h)
  unfold redirectLocation
  cases hparse : parse target with
  | none => exact hwhole
  | some u =>
    dsimp only
    split_ifs with hremote hrooted hempty
    · exact hwhole
    · exact ⟨_, rfl, hcleaned _ (notMem_cut question target) htake⟩
    · -- a relative target behind the root
      have hdir : dirOf [slash] = [slash] := by decide
      rw [hdir]
      refine ⟨cleanPath (([slash] ++ target).takeWhile (· ≠ question)), rfl,
        hcleaned _ (notMem_cut question ([slash] ++ target)) ?_⟩
      intro h
      rcases List.mem_append.mp ((List.takeWhile_prefix _).subset h) with hslash | ht
      · exact absurd (List.mem_singleton.mp hslash) (by decide)
      · exact htarget ht
    · have hall : ∀ x ∈ dirOf oldPath, decide (x ≠ question) = true := by
        intro x hx
        simpa using ne_of_mem_of_not_mem (mem_of_mem_dirOf hx) hold.1
      refine ⟨cleanPath ((dirOf oldPath ++ target).takeWhile (· ≠ question)), ?_,
        hcleaned _ (notMem_cut question (dirOf oldPath ++ target)) ?_⟩
      · rw [List.dropWhile_append_of_pos hall]
      · intro h
        rcases List.mem_append.mp ((List.takeWhile_prefix _).subset h) with hdir | ht
        · exact hold.2 (mem_of_mem_dirOf hdir)
        · exact htarget ht

/-- `http.Redirect` keeps the query of a target without a fragment, but for its escaping. -/
theorem queryOf_redirectLocation [HostSyntax] {oldPath : GoString}
    (hold : question ∉ oldPath ∧ hash ∉ oldPath) {target : GoString} (htarget : hash ∉ target) :
    queryOf (redirectLocation oldPath target) = hexEscapeNonASCII (cut question target).2 := by
  obtain ⟨front, heq, hquestion, hhash⟩ := redirectLocation_eq hold htarget
  have hnohash : hash ∉ redirectLocation oldPath target := by
    rw [heq]
    intro h
    rcases List.mem_append.mp (mem_of_mem_hexEscapeNonASCII (.inr rfl) h) with hfront | hrest
    · exact hhash hfront
    · exact htarget ((List.dropWhile_suffix _).subset hrest)
  have hfront : question ∉ hexEscapeNonASCII front := fun h =>
    hquestion (mem_of_mem_hexEscapeNonASCII (.inl rfl) h)
  rw [queryOf, cut_of_notMem hnohash, heq, hexEscapeNonASCII_append]
  by_cases hmem : question ∈ target
  · obtain ⟨a, b, rfl, ha⟩ := List.eq_append_cons_of_mem hmem
    have hall : ∀ x ∈ a, decide (x ≠ question) = true := by
      intro x hx
      simpa using ne_of_mem_of_not_mem hx ha
    rw [List.dropWhile_append_of_pos hall, List.dropWhile_cons_of_neg (by simp), cut_append ha]
    exact congrArg Prod.snd (cut_append hfront (hexEscapeNonASCII b))
  · have hnil : target.dropWhile (· ≠ question) = [] :=
      List.dropWhile_eq_nil_iff.mpr fun x hx => by simpa using ne_of_mem_of_not_mem hx hmem
    rw [hnil, cut_of_notMem hmem, show hexEscapeNonASCII [] = [] from rfl, List.append_nil,
      cut_of_notMem hfront]

end ApiTest.Net
