import ApiTest.Net.ServeMux
import ApiTest.Text.Strings

/-! URLs as `net/url` reads and writes them. `parse` cuts off the fragment, then
the query, and decodes what is left as the path; it refuses control characters
and broken escapes. How a host is spelled depends on the release of the toolchain
and is a parameter. The results are about references that start with a single
slash, the only ones a server builds from paths of its own: what parses, and what
is read back from the written form. -/

namespace ApiTest.Net

open ApiTest.Text

def question : UInt8 := 0x3F
def hash : UInt8 := 0x23
def colon : UInt8 := 0x3A
def space : UInt8 := 0x20
def plus : UInt8 := 0x2B

/-! ### Escaping -/

/-- The parts of a URL that differ in what has to be escaped. -/
inductive Mode where
  | path
  | pathSegment
  | host
  | userPassword
  | queryComponent
  | fragment
  deriving DecidableEq, Repr

/-- The bytes `$&+,/:;=?@`. -/
def reservedBytes : List UInt8 :=
  [0x24, 0x26, 0x2B, 0x2C, 0x2F, 0x3A, 0x3B, 0x3D, 0x3F, 0x40]

/-- The bytes `-_.~`. -/
def markBytes : List UInt8 := [0x2D, 0x5F, 0x2E, 0x7E]

/-- The bytes `!$&'()*+,;=:[]<>"` of a host. -/
def hostBytes : List UInt8 :=
  [0x21, 0x24, 0x26, 0x27, 0x28, 0x29, 0x2A, 0x2B, 0x2C, 0x3B, 0x3D, 0x3A, 0x5B, 0x5D, 0x3C,
    0x3E, 0x22]

/-- `shouldEscape`. -/
def shouldEscape (c : UInt8) (mode : Mode) : Bool :=
  if isLetter c || isDigit c then false
  else if mode = .host && hostBytes.contains c then false
  else if markBytes.contains c then false
  else if reservedBytes.contains c then
    match mode with
    | .path => c == question
    | .pathSegment => c == slash || c == 0x3B || c == 0x2C || c == question
    | .userPassword => c == 0x40 || c == slash || c == question || c == colon
    | .fragment => false
    | .queryComponent => true
    | .host => true
  else if mode = .fragment && [0x21, 0x28, 0x29, 0x2A].contains c then false
  else true

/-- The upper-case hexadecimal digit of a value below 16. -/
def hexDigit (n : UInt8) : UInt8 := if n < 10 then 0x30 + n else 0x37 + n

def escapeByte (mode : Mode) (c : UInt8) : GoString :=
  if c = space ∧ mode = .queryComponent then [plus]
  else if shouldEscape c mode then [percent, hexDigit (c / 16), hexDigit (c % 16)]
  else [c]

/-- `escape`. -/
def escape (mode : Mode) (s : GoString) : GoString := s.flatMap (escapeByte mode)

/-- `url.PathEscape`. -/
def pathEscape (s : GoString) : GoString := escape .pathSegment s

example : pathEscape (lit "a/b%c d.e") = lit "a%2Fb%25c%20d.e" := by decide

/-- A fact about every byte, checked for all of them. -/
theorem forall_byte {p : UInt8 → Prop} [DecidablePred p]
    (h : ((List.range 256).all fun n => decide (p n.toUInt8)) = true) (c : UInt8) : p c := by
  rw [List.all_eq_true] at h
  have hc := h c.toNat (List.mem_range.mpr c.toNat_lt)
  simpa using hc

theorem hexValue_hexDigit (c : UInt8) :
    hexValue (hexDigit (c / 16)) = some (c / 16) ∧ hexValue (hexDigit (c % 16)) = some (c % 16) ∧
      c / 16 * 16 + c % 16 = c :=
  forall_byte (p := fun c => hexValue (hexDigit (c / 16)) = some (c / 16) ∧
    hexValue (hexDigit (c % 16)) = some (c % 16) ∧ c / 16 * 16 + c % 16 = c)
    (by decide +kernel) c

def isAlnum (c : UInt8) : Bool := isLetter c || isDigit c

theorem isAlnum_hexDigit (c : UInt8) :
    isAlnum (hexDigit (c / 16)) = true ∧ isAlnum (hexDigit (c % 16)) = true :=
  forall_byte (p := fun c => isAlnum (hexDigit (c / 16)) = true ∧ isAlnum (hexDigit (c % 16)) = true)
    (by decide +kernel) c

theorem shouldEscape_of_isAlnum {c : UInt8} (h : isAlnum c = true) (mode : Mode) :
    shouldEscape c mode = false := by
  unfold shouldEscape
  exact if_pos h

/-- What the escaped form of a byte consists of: a plus for a blank of a query, the bytes
of an escape sequence, or the byte itself. -/
theorem mem_escapeByte {mode : Mode} {c b : UInt8} (h : b ∈ escapeByte mode c) :
    b = plus ∧ mode = .queryComponent ∨ b = percent ∨ isAlnum b = true ∨
      b = c ∧ shouldEscape c mode = false := by
  obtain ⟨hhigh, hlow⟩ := isAlnum_hexDigit c
  unfold escapeByte at h
  split_ifs at h with hspace hescape
  · exact Or.inl ⟨List.mem_singleton.mp h, hspace.2⟩
  · simp only [List.mem_cons, List.not_mem_nil, or_false] at h
    obtain rfl | rfl | rfl := h
    · exact Or.inr (Or.inl rfl)
    · exact Or.inr (Or.inr (Or.inl hhigh))
    · exact Or.inr (Or.inr (Or.inl hlow))
  · exact Or.inr (Or.inr (Or.inr ⟨List.mem_singleton.mp h, Bool.not_eq_true _ ▸ hescape⟩))

/-- An escaped byte is read as the byte, in every mode where a blank is not
written as a plus. -/
theorem unescape_escapeByte {mode : Mode} (hmode : mode ≠ .queryComponent) (c : UInt8)
    (rest : GoString) :
    unescape (escapeByte mode c ++ rest) = (unescape rest).map (c :: ·) := by
  unfold escapeByte
  rw [if_neg (fun h => hmode h.2)]
  obtain ⟨hhigh, hlow, hvalue⟩ := hexValue_hexDigit c
  split_ifs with hescape
  · simp only [List.cons_append, List.nil_append, unescape_escape, hhigh, hlow, hvalue]
  · rw [List.singleton_append, unescape_cons]
    rintro rfl
    exact hescape (by cases mode <;> rfl)

theorem unescape_of_escape {mode : Mode} (hmode : mode ≠ .queryComponent) (s : GoString) :
    unescape (escape mode s) = some s := by
  induction s with
  | nil => rfl
  | cons c s ih =>
    rw [escape, List.flatMap_cons, unescape_escapeByte hmode]
    rw [escape] at ih
    rw [ih, Option.map_some]

/-! ### Reading -/

structure Userinfo where
  username : GoString
  password : Option GoString
  deriving DecidableEq, Repr

/-- `url.URL`; `rootless` is the text after the scheme if no slash follows it. -/
structure URL where
  scheme : GoString := []
  rootless : GoString := []
  user : Option Userinfo := none
  host : GoString := []
  path : GoString := []
  rawPath : GoString := []
  omitHost : Bool := false
  forceQuery : Bool := false
  rawQuery : GoString := []
  fragment : GoString := []
  rawFragment : GoString := []
  deriving DecidableEq, Repr

/-- `parseHost`: the decoded host under a scheme, `none` for an error. -/
class HostSyntax where
  parseHost : GoString → GoString → Option GoString

/-- A syntax without any host. -/
@[reducible] def noHosts : HostSyntax := ⟨fun _ _ => none⟩

def isCTL (c : UInt8) : Bool := c < 0x20 || c == 0x7F

def isSchemeByte (c : UInt8) : Bool :=
  isLetter c || isDigit c || c == 0x2B || c == 0x2D || c == 0x2E

/-- `getScheme`: the scheme, empty without one, and the rest. A colon in front is
an error. -/
def getScheme (raw : GoString) : Option (GoString × GoString) :=
  let scheme := raw.takeWhile isSchemeByte
  match raw.dropWhile isSchemeByte with
  | [] => some ([], raw)
  | c :: rest =>
    if c ≠ colon then some ([], raw)
    else if scheme = [] then none
    else if scheme.head?.any isLetter then some (scheme, rest)
    else some ([], raw)

def lowerASCII (s : GoString) : GoString :=
  s.map fun c => if 0x41 ≤ c ∧ c ≤ 0x5A then c + 0x20 else c

/-- The bytes `-._:~!$&'()*+,;=%@` that userinfo may hold besides letters and
digits. -/
def userinfoBytes : List UInt8 :=
  [0x2D, 0x2E, 0x5F, 0x3A, 0x7E, 0x21, 0x24, 0x26, 0x27, 0x28, 0x29, 0x2A, 0x2B, 0x2C, 0x3B,
    0x3D, 0x25, 0x40]

/-- The userinfo before the last `@` of an authority. -/
def parseUserinfo (userinfo : GoString) : Option Userinfo :=
  if !userinfo.all fun c => isLetter c || isDigit c || userinfoBytes.contains c then none
  else
    let (username, password) := cut colon userinfo
    (unescape username).bind fun username =>
      if colon ∉ userinfo then some ⟨username, none⟩
      else (unescape password).map fun password => ⟨username, some password⟩

/-- `parseAuthority`. -/
def parseAuthority [HostSyntax] (scheme authority : GoString) :
    Option (Option Userinfo × GoString) :=
  let (hostBack, userBack) := cut 0x40 authority.reverse
  (HostSyntax.parseHost scheme hostBack.reverse).bind fun host =>
    if 0x40 ∉ authority then some (none, host)
    else (parseUserinfo userBack.reverse).map fun user => (some user, host)

/-- `URL.setPath`: the decoded path, and the raw one if it is not the default
encoding. -/
def URL.setPath (u : URL) (p : GoString) : Option URL :=
  (unescape p).map fun path =>
    { u with path := path, rawPath := if p = escape .path path then [] else p }

/-- `URL.setFragment`. -/
def URL.setFragment (u : URL) (f : GoString) : Option URL :=
  (unescape f).map fun fragment =>
    { u with
      fragment := fragment
      rawFragment := if f = escape .fragment fragment then [] else f }

/-- `url.Parse` after the fragment has been cut off. The query is forced if
nothing follows its question mark. -/
def parseBody [HostSyntax] (raw : GoString) : Option URL :=
  if raw.any isCTL then none
  else if raw = lit "*" then some { path := lit "*" }
  else match getScheme raw with
    | none => none
    | some (scheme, all) =>
      let scheme := lowerASCII scheme
      let (rest, rawQuery) := cut question all
      let u : URL := { scheme, rawQuery, forceQuery := question ∈ all ∧ rawQuery = [] }
      if rest.head? ≠ some slash then
        if scheme ≠ [] then some { u with rootless := rest }
        else if colon ∈ (cut slash rest).1 then none
        else u.setPath rest
      else if (scheme ≠ [] ∨ ¬ [slash, slash, slash] <+: rest) ∧ [slash, slash] <+: rest then
        let authority := (rest.drop 2).takeWhile (· ≠ slash)
        match parseAuthority scheme authority with
        | none => none
        | some (user, host) =>
          { u with user := user, host := host }.setPath ((rest.drop 2).dropWhile (· ≠ slash))
      else { u with omitHost := scheme ≠ [] }.setPath rest

/-- `url.Parse`. -/
def parse [HostSyntax] (raw : GoString) : Option URL :=
  let (body, fragment) := cut hash raw
  (parseBody body).bind fun u => if fragment = [] then some u else u.setFragment fragment

/-! ### Writing -/

/-- A byte `validEncoded` lets stand in an encoded path. -/
def isEncodedByte (c : UInt8) (mode : Mode) : Bool :=
  [0x21, 0x24, 0x26, 0x27, 0x28, 0x29, 0x2A, 0x2B, 0x2C, 0x3B, 0x3D, 0x3A, 0x40, 0x5B, 0x5D,
    percent].contains c || !shouldEscape c mode

/-- `validEncoded`. -/
def validEncoded (s : GoString) (mode : Mode) : Bool := s.all (isEncodedByte · mode)

/-- `URL.EscapedPath`. -/
def URL.escapedPath (u : URL) : GoString :=
  if u.rawPath ≠ [] ∧ validEncoded u.rawPath .path ∧ unescape u.rawPath = some u.path then u.rawPath
  else if u.path = lit "*" then lit "*"
  else escape .path u.path

/-- `URL.EscapedFragment`. -/
def URL.escapedFragment (u : URL) : GoString :=
  if u.rawFragment ≠ [] ∧ validEncoded u.rawFragment .fragment ∧
      unescape u.rawFragment = some u.fragment then u.rawFragment
  else escape .fragment u.fragment

def Userinfo.string (user : Userinfo) : GoString :=
  escape .userPassword user.username ++
    (user.password.map fun p => colon :: escape .userPassword p).getD []

/-- What `URL.String` writes between scheme and path. -/
def URL.authority (u : URL) : GoString :=
  if u.host = [] ∧ u.user = none ∧ (u.scheme = [] ∨ u.omitHost) then []
  else (if u.host ≠ [] ∨ u.path ≠ [] ∨ u.user ≠ none then [slash, slash] else []) ++
    (u.user.map fun user => user.string ++ [0x40]).getD [] ++ escape .host u.host

/-- The path as `URL.String` writes it behind the text `front`. A path that would
be read as something else is marked. -/
def URL.writtenPath (u : URL) (front : GoString) : GoString :=
  let path := u.escapedPath
  if u.omitHost ∧ u.host = [] ∧ u.user = none ∧ [slash, slash] <+: path then
    lit "%2F" ++ path.tail
  else if path ≠ [] ∧ path.head? ≠ some slash ∧ u.host ≠ [] then slash :: path
  else if front = [] ∧ colon ∈ (cut slash path).1 then lit "./" ++ path
  else path

/-- `URL.String`. -/
def URL.string (u : URL) : GoString :=
  let scheme := if u.scheme ≠ [] then u.scheme ++ [colon] else []
  let hier := if u.rootless ≠ [] then scheme ++ u.rootless
    else scheme ++ u.authority ++ u.writtenPath (scheme ++ u.authority)
  let query := if u.forceQuery ∨ u.rawQuery ≠ [] then question :: u.rawQuery else []
  let fragment := if u.fragment ≠ [] then hash :: u.escapedFragment else []
  hier ++ query ++ fragment

/-- `URL.Redacted`. -/
def URL.redacted (u : URL) : GoString :=
  match u.user with
  | some ⟨username, some _⟩ => { u with user := some ⟨username, some (lit "xxxxx")⟩ }.string
  | _ => u.string

/-! ### Rooted references -/

/-- A reference that starts with a slash and not with two. -/
def Rooted (s : GoString) : Prop := s.head? = some slash ∧ s[1]? ≠ some slash

instance : DecidablePred Rooted := fun _ => inferInstanceAs (Decidable (_ ∧ _))

theorem Rooted.eq_cons {s : GoString} (h : Rooted s) :
    ∃ rest, s = slash :: rest ∧ rest.head? ≠ some slash := by
  obtain ⟨rest, rfl⟩ := List.head?_eq_some_iff.mp h.1
  exact ⟨rest, rfl, by simpa [List.head?_eq_getElem?] using h.2⟩

theorem rooted_cons {rest : GoString} (h : rest.head? ≠ some slash) : Rooted (slash :: rest) :=
  ⟨rfl, by simpa [List.head?_eq_getElem?] using h⟩

theorem Rooted.not_prefix {s : GoString} (h : Rooted s) : ¬ [slash, slash] <+: s := by
  obtain ⟨rest, rfl, hrest⟩ := h.eq_cons
  rw [List.cons_prefix_cons]
  rintro ⟨-, t, rfl⟩
  exact hrest rfl

/-- What stands before a byte other than the slash is rooted too. -/
theorem Rooted.cut {s : GoString} (h : Rooted s) {c : UInt8} (hc : c ≠ slash) :
    Rooted (cut c s).1 := by
  obtain ⟨rest, rfl, hrest⟩ := h.eq_cons
  rw [ApiTest.Text.cut, List.takeWhile_cons_of_pos (by simpa using hc.symm)]
  apply rooted_cons
  cases rest with
  | nil => simp
  | cons x rest =>
    rw [List.takeWhile_cons]
    split_ifs
    · exact hrest
    · simp

theorem getScheme_rooted {s : GoString} (h : Rooted s) : getScheme s = some ([], s) := by
  obtain ⟨rest, rfl, -⟩ := h.eq_cons
  rfl

section
variable [HostSyntax]

/-- A rooted reference has neither scheme nor host; its path ends at the question
mark. -/
theorem parseBody_rooted {body : GoString} (h : Rooted body) :
    parseBody body = if body.any isCTL then none
      else ({ rawQuery := (cut question body).2,
              forceQuery := question ∈ body ∧ (cut question body).2 = [] } : URL).setPath
        (cut question body).1 := by
  have hstar : body ≠ lit "*" := by
    obtain ⟨rest, rfl, -⟩ := h.eq_cons
    intro he
    exact absurd (List.cons.inj he).1 (by decide)
  have hpath := h.cut (show question ≠ slash by decide)
  have hhead : ¬ (cut question body).1.head? ≠ some slash := not_not.mpr hpath.1
  have hhost : ¬ ((lowerASCII [] ≠ [] ∨ ¬ [slash, slash, slash] <+: (cut question body).1) ∧
      [slash, slash] <+: (cut question body).1) := fun hp => hpath.not_prefix hp.2
  simp only [parseBody, getScheme_rooted h, if_neg hstar, if_neg hhead, if_neg hhost]
  rfl

/-- What a rooted reference is read as. -/
theorem parse_rooted {s : GoString} (h : Rooted s) {u : URL} :
    parse s = some u ↔
      (cut hash s).1.any isCTL = false ∧
      ∃ path, unescape (cut question (cut hash s).1).1 = some path ∧
      ∃ fragment, unescape (cut hash s).2 = some fragment ∧
      u = { rawQuery := (cut question (cut hash s).1).2
            forceQuery := question ∈ (cut hash s).1 ∧ (cut question (cut hash s).1).2 = []
            path := path
            rawPath := if (cut question (cut hash s).1).1 = escape .path path then []
              else (cut question (cut hash s).1).1
            fragment := fragment
            rawFragment := if (cut hash s).2 = escape .fragment fragment then []
              else (cut hash s).2 } := by
  rw [parse]
  dsimp only
  rw [parseBody_rooted (h.cut (by decide))]
  cases hctl : (cut hash s).1.any isCTL with
  | true => simp
  | false =>
    cases hpath : unescape (cut question (cut hash s).1).1 with
    | none => simp [URL.setPath, hpath]
    | some path =>
      simp only [URL.setPath, hpath, Option.map_some, Bool.false_eq_true, if_false,
        Option.bind_some, true_and, Option.some.injEq, exists_eq_left']
      by_cases hfrag : (cut hash s).2 = []
      · rw [hfrag, if_pos rfl]
        constructor
        · intro hu
          exact ⟨[], rfl, (Option.some.inj hu).symm⟩
        · rintro ⟨fragment, hf, rfl⟩
          cases hf
          rfl
      · rw [if_neg hfrag, URL.setFragment]
        constructor
        · intro hu
          obtain ⟨fragment, hf, rfl⟩ := Option.map_eq_some_iff.mp hu
          exact ⟨fragment, hf, rfl⟩
        · rintro ⟨fragment, hf, rfl⟩
          rw [hf, Option.map_some]

end

/-! ### Reading back what was written -/

/-- A byte that may stand in an encoded path ends neither path nor query. -/
theorem isEncodedByte_path {c : UInt8} (h : isEncodedByte c .path = true) :
    c ≠ question ∧ c ≠ hash ∧ isCTL c = false := by
  have hctl : isCTL c = false :=
    forall_byte (p := fun c => isEncodedByte c .path = true → isCTL c = false) (by decide +kernel) c h
  refine ⟨?_, ?_, hctl⟩
  · rintro rfl
    cases h
  · rintro rfl
    cases h

theorem isEncodedByte_of_not_shouldEscape {c : UInt8} {mode : Mode}
    (h : shouldEscape c mode = false) : isEncodedByte c mode = true := by
  rw [isEncodedByte, h, Bool.not_false, Bool.or_true]

theorem validEncoded_escape (s : GoString) : validEncoded (escape .path s) .path = true := by
  rw [validEncoded, List.all_eq_true]
  intro b hb
  obtain ⟨c, -, hb⟩ := List.mem_flatMap.mp hb
  obtain ⟨-, hmode⟩ | rfl | halnum | ⟨rfl, hescape⟩ := mem_escapeByte hb
  · cases hmode
  · rfl
  · exact isEncodedByte_of_not_shouldEscape (shouldEscape_of_isAlnum halnum _)
  · exact isEncodedByte_of_not_shouldEscape hescape

namespace URL

variable {u : URL}

theorem unescape_escapedPath (u : URL) : unescape u.escapedPath = some u.path := by
  unfold escapedPath
  split_ifs with hraw hstar
  · exact hraw.2.2
  · rw [hstar]
    rfl
  · exact unescape_of_escape (by decide) _

theorem validEncoded_escapedPath (u : URL) : validEncoded u.escapedPath .path = true := by
  unfold escapedPath
  split_ifs with hraw
  · exact hraw.2.1
  · decide
  · exact validEncoded_escape _

theorem unescape_escapedFragment (u : URL) : unescape u.escapedFragment = some u.fragment := by
  unfold escapedFragment
  split_ifs with hraw
  · exact hraw.2.2
  · exact unescape_of_escape (by decide) _

/-- Neither scheme nor host: the URL is a path with its query and fragment, and
the path starts with one slash in both its forms. -/
structure Local (u : URL) : Prop where
  scheme : u.scheme = []
  rootless : u.rootless = []
  user : u.user = none
  host : u.host = []
  omitHost : u.omitHost = false
  path : Rooted u.path
  rawPath : u.rawPath = [] ∨ Rooted u.rawPath

/-- Another query leaves a URL local. -/
theorem Local.withQuery (h : u.Local) (rawQuery : GoString) : ({ u with rawQuery } : URL).Local :=
  ⟨h.scheme, h.rootless, h.user, h.host, h.omitHost, h.path, h.rawPath⟩

theorem rooted_escapedPath (h : u.Local) : Rooted u.escapedPath := by
  unfold escapedPath
  split_ifs with hraw hstar
  · exact h.rawPath.resolve_left hraw.1
  · exact absurd (hstar ▸ h.path) (by decide)
  · obtain ⟨rest, hpath, hrest⟩ := h.path.eq_cons
    rw [hpath]
    show Rooted (slash :: escape .path rest)
    apply rooted_cons
    cases rest with
    | nil => simp [escape]
    | cons c rest =>
      have hc : c ≠ slash := by simpa using hrest
      have hbyte : ∀ c, c ≠ slash → (escapeByte .path c).head? ≠ some slash ∧
          escapeByte .path c ≠ [] := forall_byte (by decide +kernel)
      obtain ⟨hhead, hne⟩ := hbyte c hc
      rwa [escape, List.flatMap_cons, List.head?_append_of_ne_nil _ hne]

/-- The encoded path of a URL that was read from a valid encoding is that
encoding. -/
theorem escapedPath_of_validEncoded {p : GoString} (hp : Rooted p)
    (hvalid : validEncoded p .path = true) (hpath : unescape p = some u.path)
    (hraw : u.rawPath = if p = escape .path u.path then [] else p) : u.escapedPath = p := by
  obtain ⟨rest, rfl, -⟩ := hp.eq_cons
  have hstar : u.path ≠ lit "*" := by
    rw [unescape_cons (by decide)] at hpath
    obtain ⟨t, -, ht⟩ := Option.map_eq_some_iff.mp hpath
    rw [← ht]
    intro he
    exact absurd (List.cons.inj he).1 (by decide)
  unfold escapedPath
  rw [hraw]
  split_ifs with hdefault hself
  · exact absurd rfl hself.1
  · exact hdefault.symm
  · rfl
  next hnot => exact absurd ⟨List.cons_ne_nil _ _, hvalid, hpath⟩ hnot

/-- A local URL is written as its encoded path, its query and its fragment. -/
theorem string_eq (h : u.Local) :
    u.string = u.escapedPath ++
      (if u.forceQuery ∨ u.rawQuery ≠ [] then question :: u.rawQuery else []) ++
      (if u.fragment ≠ [] then hash :: u.escapedFragment else []) := by
  have hwritten : u.writtenPath [] = u.escapedPath := by
    obtain ⟨rest, hpath, -⟩ := (rooted_escapedPath h).eq_cons
    have hcut : (cut slash (slash :: rest)).1 = [] := by simp [cut]
    simp [writtenPath, h.omitHost, h.host, hpath, hcut]
  simp [string, authority, h.scheme, h.rootless, h.host, h.user, hwritten]

theorem rooted_string (h : u.Local) : Rooted u.string := by
  obtain ⟨rest, hpath, hrest⟩ := (rooted_escapedPath h).eq_cons
  rw [string_eq h, hpath, List.append_assoc, List.cons_append]
  apply rooted_cons
  cases rest with
  | cons c rest => exact hrest
  | nil =>
    rw [List.nil_append]
    split_ifs <;> simp [question, hash, slash]

end URL

section
variable [HostSyntax] {u : URL}

theorem local_of_parse {s : GoString} (h : Rooted s) (hu : parse s = some u)
    (hpath : Rooted u.path) : u.Local := by
  obtain ⟨-, path, -, fragment, -, rfl⟩ := (parse_rooted h).mp hu
  refine ⟨rfl, rfl, rfl, rfl, rfl, hpath, ?_⟩
  dsimp only
  split_ifs
  · exact Or.inl rfl
  · exact Or.inr ((h.cut (by decide)).cut (by decide))

/-- The written form of a local URL is read as the same path and query. -/
theorem parse_string (h : u.Local) (hquery : ∀ c ∈ u.rawQuery, c ≠ hash ∧ isCTL c = false) :
    ∃ v, parse u.string = some v ∧ v.path = u.path ∧ v.rawQuery = u.rawQuery ∧
      v.escapedPath = u.escapedPath := by
  have hbytes : ∀ c ∈ u.escapedPath, c ≠ question ∧ c ≠ hash ∧ isCTL c = false := by
    intro c hc
    exact isEncodedByte_path (List.all_eq_true.mp u.validEncoded_escapedPath c hc)
  -- the three parts are told apart by bytes that the parts before do not hold
  generalize hbody : u.escapedPath ++
    (if u.forceQuery ∨ u.rawQuery ≠ [] then question :: u.rawQuery else []) = body
  have hbodyBytes : ∀ c ∈ body, c ≠ hash ∧ isCTL c = false := by
    intro c hc
    rw [← hbody, List.mem_append] at hc
    obtain hc | hc := hc
    · exact (hbytes c hc).2
    · split_ifs at hc
      · obtain rfl | hc := List.mem_cons.mp hc
        · decide
        · exact hquery c hc
      · cases hc
  have hcutBody : cut question body = (u.escapedPath, u.rawQuery) := by
    rw [← hbody, cut_append_ite fun hc => (hbytes _ hc).1 rfl]
    split_ifs with hwritten
    · rfl
    · rw [not_or, not_not] at hwritten
      rw [hwritten.2]
  have hcut : cut hash u.string =
      (body, if u.fragment ≠ [] then u.escapedFragment else []) := by
    rw [URL.string_eq h, hbody, cut_append_ite fun hc => (hbodyBytes _ hc).1 rfl]
  have hctl : body.any isCTL = false := by
    rw [List.any_eq_false]
    intro c hc
    simp [(hbodyBytes c hc).2]
  have hfragment : ∃ fragment, unescape (cut hash u.string).2 = some fragment := by
    rw [hcut]
    dsimp only
    split_ifs
    · exact ⟨_, u.unescape_escapedFragment⟩
    · exact ⟨_, rfl⟩
  obtain ⟨fragment, hfragment⟩ := hfragment
  refine ⟨_, (parse_rooted (URL.rooted_string h)).mpr ⟨by rw [hcut]; exact hctl, u.path, ?_, fragment,
    hfragment, rfl⟩, rfl, ?_, ?_⟩
  · rw [hcut, hcutBody]
    exact u.unescape_escapedPath
  · rw [hcut, hcutBody]
  · refine URL.escapedPath_of_validEncoded (URL.rooted_escapedPath h) u.validEncoded_escapedPath
      u.unescape_escapedPath ?_
    rw [hcut, hcutBody]

/-! ### Paths that read as themselves -/

/-- A byte that a URL reads as part of the path, and as itself. -/
def isPlain (c : UInt8) : Bool := c ≠ percent && c ≠ question && c ≠ hash && !isCTL c

omit [HostSyntax] in
theorem cut_plain {s : GoString} (h : s.all isPlain = true) :
    cut hash s = (s, []) ∧ cut question s = (s, []) := by
  have hnot : ∀ c, isPlain c = false → c ∉ s := by
    intro c hc hmem
    rw [List.all_eq_true.mp h c hmem] at hc
    cases hc
  exact ⟨cut_of_notMem (hnot hash (by decide)), cut_of_notMem (hnot question (by decide))⟩

/-- A rooted path is read as itself exactly if all its bytes are plain. -/
theorem parse_path_iff {s : GoString} (h : Rooted s) :
    (∃ u, parse s = some u ∧ u.path = s) ↔ s.all isPlain = true := by
  constructor
  · rintro ⟨u, hu, hpath⟩
    obtain ⟨hctl, path, hunescape, fragment, -, rfl⟩ := (parse_rooted h).mp hu
    -- decoding and cutting make a text shorter unless there is nothing to decode or cut
    have hself : path = s := hpath
    subst hself
    obtain ⟨hle, hlt⟩ := length_of_unescape hunescape
    have hcutHash := length_cut hash path
    have hcutQuestion := length_cut question (cut hash path).1
    have hhash : hash ∉ path := fun hmem => by have := hcutHash.2 hmem; omega
    rw [cut_of_notMem hhash] at hctl hunescape hle hlt hcutQuestion
    dsimp only at hctl hle hlt hcutQuestion
    have hquestion : question ∉ path := fun hmem => by have := hcutQuestion.2 hmem; omega
    rw [cut_of_notMem hquestion] at hlt
    have hpercent : percent ∉ path := fun hmem => absurd (hlt hmem) (lt_irrefl _)
    rw [List.all_eq_true]
    intro c hc
    have hcontrol := List.any_eq_false.mp hctl c hc
    simp only [isPlain, Bool.and_eq_true, decide_eq_true_eq, Bool.not_eq_true']
    exact ⟨⟨⟨ne_of_mem_of_not_mem hc hpercent, ne_of_mem_of_not_mem hc hquestion⟩,
      ne_of_mem_of_not_mem hc hhash⟩, by simpa using hcontrol⟩
  · intro hplain
    obtain ⟨hhash, hquestion⟩ := cut_plain hplain
    have hpercent : percent ∉ s := by
      intro hmem
      exact absurd (List.all_eq_true.mp hplain _ hmem) (by decide)
    refine ⟨_, (parse_rooted h).mpr ⟨?_, s, ?_, [], ?_, rfl⟩, rfl⟩
    · rw [hhash, List.any_eq_false]
      intro c hc
      have hbyte := List.all_eq_true.mp hplain c hc
      simp only [isPlain, Bool.and_eq_true, Bool.not_eq_true'] at hbyte
      simp [hbyte.2]
    · rw [hhash, hquestion]
      exact unescape_of_not_mem hpercent
    · rw [hhash]
      rfl

end

end ApiTest.Net
