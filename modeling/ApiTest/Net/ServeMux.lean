import ApiTest.Net.Escape

/-! The request multiplexer of `net/http` since Go 1.22. A pattern is
`[METHOD ][HOST]/PATH` with literal segments, `{name}` for one segment,
`{name...}` for the rest of the path and `{$}` for its end. Two patterns may be
registered together only if they can be told apart: one is the more specific, or
no request matches both. Matching splits the escaped path and decodes segment by
segment; among the patterns that match, the most specific one is served. -/

namespace ApiTest.Net

open ApiTest.Text

/-! ### Path cleaning -/

/-- A part of a rooted path joins the parts before it, the last one on top. -/
def pushPart (stack : List GoString) (part : GoString) : List GoString :=
  if part = [] ∨ part = lit "." then stack
  else if part = lit ".." then stack.tail
  else part :: stack

/-- The parts `path.Clean` keeps. -/
def cleanParts (p : GoString) : List GoString := ((p.splitOn slash).foldl pushPart []).reverse

/-- `cleanPath`: a rooted path without empty, `.` and `..` parts, its trailing
slash kept. -/
def cleanPath (p : GoString) : GoString :=
  let clean := slash :: [slash].intercalate (cleanParts p)
  if p.getLast? = some slash ∧ cleanParts p ≠ [] then clean ++ [slash] else clean

/-- A part that stands between two slashes of a clean path. -/
def IsPart (part : GoString) : Prop := part ≠ [] ∧ slash ∉ part

/-- The parts of a path consist of bytes of the path, and of no slash. -/
theorem part_of_mem_splitOn {p part : GoString} (h : part ∈ p.splitOn slash) :
    part ⊆ p ∧ slash ∉ part := by
  induction p generalizing part with
  | nil =>
    rw [show List.splitOn slash [] = [[]] from rfl, List.mem_singleton] at h
    simp [h]
  | cons c p ih =>
    rw [List.splitOn_cons_eq_if_modifyHead] at h
    split at h
    next =>
      rcases List.mem_cons.mp h with rfl | h
      · simp
      · exact ⟨List.subset_cons_of_subset c (ih h).1, (ih h).2⟩
    next hc =>
      cases hp : p.splitOn slash with
      | nil => exact absurd hp (List.splitOn_ne_nil slash p)
      | cons first rest =>
        rw [hp, List.modifyHead_cons] at h
        rcases List.mem_cons.mp h with rfl | h
        · obtain ⟨hsub, hfirst⟩ := ih (hp ▸ List.mem_cons_self)
          refine ⟨List.cons_subset_cons c hsub, ?_⟩
          simp only [List.mem_cons, not_or]
          exact ⟨fun he => hc (by simp [he]), hfirst⟩
        · obtain ⟨hsub, hrest⟩ := ih (hp ▸ List.mem_cons_of_mem _ h)
          exact ⟨List.subset_cons_of_subset c hsub, hrest⟩

theorem isPart_of_mem_cleanParts {p part : GoString} (h : part ∈ cleanParts p) : IsPart part := by
  -- the stack holds parts only, whatever is pushed
  have fold : ∀ (parts stack : List GoString), (∀ q ∈ parts, slash ∉ q) →
      (∀ q ∈ stack, IsPart q) → ∀ q ∈ parts.foldl pushPart stack, IsPart q := by
    intro parts
    induction parts with
    | nil => exact fun stack _ hstack => hstack
    | cons part parts ih =>
      intro stack hparts hstack
      apply ih _ (fun q hq => hparts q (List.mem_cons_of_mem _ hq))
      intro q hq
      unfold pushPart at hq
      split_ifs at hq with hskip hup
      · exact hstack q hq
      · exact hstack q (List.mem_of_mem_tail hq)
      · rcases List.mem_cons.mp hq with rfl | hq
        · exact ⟨fun he => hskip (Or.inl he), hparts _ List.mem_cons_self⟩
        · exact hstack q hq
  exact fold _ [] (fun q hq => (part_of_mem_splitOn hq).2) (by simp) part (List.mem_reverse.mp h)

theorem splitOn_cons_slash (p : GoString) : (slash :: p).splitOn slash = [] :: p.splitOn slash :=
  List.splitOn_append_cons_self_of_not_mem List.not_mem_nil p

/-- The first part of a path ends at its first slash. -/
theorem splitOn_head (p : GoString) :
    ∃ parts, p.splitOn slash = p.takeWhile (· ≠ slash) :: parts := by
  induction p with
  | nil => exact ⟨[], rfl⟩
  | cons c p ih =>
    obtain ⟨parts, hparts⟩ := ih
    by_cases hc : c = slash
    · rw [hc, splitOn_cons_slash, List.takeWhile_cons_of_neg (by simp)]
      exact ⟨_, rfl⟩
    · rw [List.splitOn_cons_eq_if_modifyHead, hparts]
      exact ⟨parts, by simp [hc]⟩

/-- A clean path is its parts, each after a slash, with or without a slash at
the end. -/
theorem splitOn_of_clean {p : GoString} (h : cleanPath p = p) :
    ∃ parts, (∀ part ∈ parts, IsPart part) ∧
      (p.splitOn slash = [] :: parts ∨ p.splitOn slash = [] :: (parts ++ [[]])) := by
  have hparts : ∀ part ∈ cleanParts p, IsPart part := fun _ => isPart_of_mem_cleanParts
  have hjoin (hne : cleanParts p ≠ []) :
      ([slash].intercalate (cleanParts p)).splitOn slash = cleanParts p :=
    List.splitOn_intercalate slash (fun part hpart => (hparts part hpart).2) hne
  refine ⟨cleanParts p, hparts, ?_⟩
  simp only [cleanPath] at h
  split_ifs at h with hlast
  · right
    rw [← congrArg (List.splitOn slash) h, List.cons_append, splitOn_cons_slash,
      List.splitOn_append_cons_self, hjoin hlast.2]
    rfl
  · by_cases hne : cleanParts p = []
    · right
      rw [← congrArg (List.splitOn slash) h, hne]
      rfl
    · left
      rw [← congrArg (List.splitOn slash) h, splitOn_cons_slash, hjoin hne]

/-! ### Patterns -/

/-- A segment of a pattern. The end marker `{$}` is the literal `/`, and a
trailing slash is a multi-segment wildcard without a name. -/
inductive Segment where
  | literal (s : GoString)
  | wild (name : GoString)
  | multi (name : GoString)
  deriving DecidableEq, Repr

/-- The name a segment binds. -/
def Segment.names : Segment → List GoString
  | .literal _ => []
  | .wild name => [name]
  | .multi name => [name]

structure Pattern where
  method : GoString
  host : GoString
  segments : List Segment
  deriving DecidableEq, Repr

/-- `isValidWildcardName`: Go identifiers, whose letters and digits are those of
the toolchain's Unicode tables. -/
class WildcardNames where
  valid : GoString → Bool

def isLetter (c : UInt8) : Bool := (0x61 ≤ c ∧ c ≤ 0x7A) ∨ (0x41 ≤ c ∧ c ≤ 0x5A)
def isDigit (c : UInt8) : Bool := 0x30 ≤ c ∧ c ≤ 0x39

/-- The identifiers of the ASCII range. -/
@[reducible] def asciiNames : WildcardNames where
  valid
    | [] => false
    | c :: s => (isLetter c || c == 0x5F) && s.all fun c => isLetter c || isDigit c || c == 0x5F

/-- `validMethod`: a token of HTTP. -/
def validMethod (m : GoString) : Bool :=
  m ≠ [] && m.all fun c => isLetter c || isDigit c || (lit "!#$%&'*+-.^_`|~").contains c

def isBlank (c : UInt8) : Bool := c == 0x20 || c == 0x09

/-- The method is what stands before the first blank; without a blank there is
none. -/
def splitMethod (s : GoString) : GoString × GoString :=
  match s.dropWhile (!isBlank ·) with
  | [] => ([], s)
  | rest => (s.takeWhile (!isBlank ·), rest.dropWhile isBlank)

section Parse
variable [WildcardNames]

/-- A part with a brace in it: `{$}`, `{name...}` or `{name}`. The first two
only end a pattern, and a name is used once. -/
def parseWildcard (seen : List GoString) (last : Bool) (part : GoString) : Option Segment :=
  if part.head? ≠ some 0x7B ∨ part.getLast? ≠ some 0x7D then none
  else
    let name := part.tail.dropLast
    if name = lit "$" then if last then some (.literal [slash]) else none
    else if lit "..." <:+ name then
      let name := name.take (name.length - 3)
      if !last ∨ name = [] ∨ !WildcardNames.valid name ∨ name ∈ seen then none
      else some (.multi name)
    else if name = [] ∨ !WildcardNames.valid name ∨ name ∈ seen then none
    else some (.wild name)

/-- The segments of the parts after the leading slash, with the wildcard names
seen so far. -/
def parseSegments (seen : List GoString) : List GoString → Option (List Segment)
  | [] => some []
  | part :: rest =>
    if part = [] ∧ rest = [] then some [.multi []]
    else if 0x7B ∉ part then (parseSegments seen rest).map (.literal (pathUnescape part) :: ·)
    else match parseWildcard seen rest.isEmpty part with
      | none => none
      | some s => (parseSegments (s.names ++ seen) rest).map (s :: ·)

/-- `parsePattern`; `none` is its error, on which registration panics. -/
def parsePattern (s : GoString) : Option Pattern :=
  let (method, rest) := splitMethod s
  let host := rest.takeWhile (· ≠ slash)
  let path := rest.dropWhile (· ≠ slash)
  if method ≠ [] ∧ !validMethod method then none
  else if path = [] ∨ 0x7B ∈ host then none
  else if method ≠ [] ∧ method ≠ lit "CONNECT" ∧ cleanPath path ≠ path then none
  else (parseSegments [] (path.splitOn slash).tail).map (⟨method, host, ·⟩)

end Parse

example : @parsePattern asciiNames (lit "GET /files/\x7brest...\x7d") =
    some ⟨lit "GET", [], [.literal (lit "files"), .multi (lit "rest")]⟩ := by decide

/-- No blank occurs in a method. -/
theorem isBlank_of_mem_method {m : GoString} (h : validMethod m) {c : UInt8} (hc : c ∈ m) :
    isBlank c = false := by
  simp only [validMethod, Bool.and_eq_true, List.all_eq_true] at h
  have htoken := h.2 c hc
  by_contra hblank
  simp only [isBlank, Bool.not_eq_false, Bool.or_eq_true, beq_iff_eq] at hblank
  rcases hblank with rfl | rfl <;> exact absurd htoken (by decide)

/-- A pattern whose rest after the method is a rooted path has no host. -/
theorem parsePattern_eq_some [WildcardNames] {s : GoString} {p : Pattern}
    (h : parsePattern s = some p) (hroot : (splitMethod s).2.head? = some slash) :
    p.method = (splitMethod s).1 ∧ p.host = [] ∧
      parseSegments [] ((splitMethod s).2.splitOn slash).tail = some p.segments := by
  unfold parsePattern at h
  generalize splitMethod s = split at h hroot ⊢
  obtain ⟨m, path⟩ := split
  obtain ⟨rest, rfl⟩ : ∃ rest, path = slash :: rest := List.head?_eq_some_iff.mp hroot
  have hhost : (slash :: rest).takeWhile (· ≠ slash) = [] := by simp
  have hrooted : (slash :: rest).dropWhile (· ≠ slash) = slash :: rest := by simp
  simp only [hhost, hrooted] at h
  split_ifs at h
  obtain ⟨segments, hsegments, rfl⟩ := Option.map_eq_some_iff.mp h
  exact ⟨rfl, rfl, hsegments⟩

theorem splitMethod_append {m : GoString} (hm : validMethod m) {path : GoString}
    (hpath : path.head? = some slash) : splitMethod (m ++ 0x20 :: path) = (m, path) := by
  obtain ⟨rest, rfl⟩ : ∃ rest, path = slash :: rest := List.head?_eq_some_iff.mp hpath
  have hm' : ∀ c ∈ m, (!isBlank c) = true := fun c hc => by simp [isBlank_of_mem_method hm hc]
  have hdrop : (m ++ 0x20 :: slash :: rest).dropWhile (!isBlank ·) = 0x20 :: slash :: rest := by
    rw [List.dropWhile_append_of_pos hm']
    rfl
  have htake : (m ++ 0x20 :: slash :: rest).takeWhile (!isBlank ·) = m := by
    rw [List.takeWhile_append_of_pos hm']
    simp [isBlank]
  simp only [splitMethod, hdrop, htake]
  rfl

/-- A method, a blank and a rooted path are parsed as such. -/
theorem parsePattern_rooted [WildcardNames] {m path : GoString} (hm : validMethod m)
    (hpath : path.head? = some slash) {p : Pattern}
    (h : parsePattern (m ++ 0x20 :: path) = some p) :
    p.method = m ∧ p.host = [] ∧
      parseSegments [] (path.splitOn slash).tail = some p.segments := by
  have hsplit := splitMethod_append hm hpath
  have hparsed := parsePattern_eq_some h (by rw [hsplit]; exact hpath)
  rwa [hsplit] at hparsed

/-- A segment that stands for exactly one segment of a path. -/
def Segment.Single : Segment → Prop
  | .literal s => s ≠ [] ∧ s ≠ [slash]
  | .wild _ => True
  | .multi _ => False

instance : DecidablePred Segment.Single
  | .literal _ => inferInstanceAs (Decidable (_ ∧ _))
  | .wild _ => inferInstanceAs (Decidable True)
  | .multi _ => inferInstanceAs (Decidable False)

/-- A single wildcard is a nonempty name in braces. -/
theorem parseWildcard_single [WildcardNames] {seen : List GoString} {last : Bool}
    {part : GoString} {s : Segment} (h : parseWildcard seen last part = some s)
    (hsingle : s.Single) :
    2 ≤ part.length ∧ part.head? = some 0x7B ∧ part.getLast? = some 0x7D ∧
      ∃ name, s = .wild name := by
  simp only [parseWildcard] at h
  split_ifs at h with hends hend hlast hmulti hbad hname <;> cases h
  · exact absurd rfl hsingle.2
  · exact absurd hsingle id
  · simp only [not_or, not_not, ne_eq] at hends hname
    have hlen := List.length_pos_of_ne_nil hname.1
    rw [List.length_dropLast, List.length_tail] at hlen
    exact ⟨by omega, hends.1, hends.2, _, rfl⟩

/-- Where every segment is a single one, each part is a literal or a name in
braces. -/
theorem parseSegments_cons_single [WildcardNames] {part : GoString} {seen rest : List GoString}
    {segments : List Segment} (h : parseSegments seen (part :: rest) = some segments)
    (hsingle : ∀ s ∈ segments, s.Single) :
    ∃ s seen' segments', segments = s :: segments' ∧ parseSegments seen' rest = some segments' ∧
      ((0x7B ∉ part ∧ s = .literal (pathUnescape part)) ∨
        (2 ≤ part.length ∧ part.head? = some 0x7B ∧ part.getLast? = some 0x7D ∧
          ∃ name, s = .wild name)) := by
  rw [parseSegments] at h
  split_ifs at h with hlast hbrace
  · cases h
    exact absurd (hsingle _ List.mem_cons_self) id
  · split at h
    next => cases h
    next s hs =>
      obtain ⟨segments', hrest, rfl⟩ := Option.map_eq_some_iff.mp h
      exact ⟨s, _, segments', rfl, hrest,
        Or.inr (parseWildcard_single hs (hsingle _ List.mem_cons_self))⟩
  · obtain ⟨segments', hrest, rfl⟩ := Option.map_eq_some_iff.mp h
    exact ⟨_, seen, segments', rfl, hrest, Or.inl ⟨hbrace, rfl⟩⟩

/-! ### Requests -/

/-- The segments `firstSegment` peels off the parts after the leading slash. A
trailing slash is a segment of its own. -/
def segmentsOf : List GoString → List GoString
  | [] => []
  | part :: rest =>
    if part = [] ∧ rest = [] then [[slash]] else pathUnescape part :: segmentsOf rest

/-- The segments of an escaped path. -/
def requestSegments (escaped : GoString) : List GoString := segmentsOf (escaped.splitOn slash).tail

/-- A single wildcard takes any segment but the trailing slash, a multi wildcard
any rest of the path. -/
def matchesPath : List Segment → List GoString → Bool
  | [], [] => true
  | .literal s :: segments, q :: qs => s == q && matchesPath segments qs
  | .wild _ :: segments, q :: qs => q != [slash] && matchesPath segments qs
  | .multi _ :: _, _ :: _ => true
  | _, _ => false

/-- A pattern without a method serves every method, one for GET also HEAD. -/
def Pattern.servesMethod (p : Pattern) (method : GoString) : Bool :=
  p.method == [] || p.method == method || (p.method == lit "GET" && method == lit "HEAD")

/-- The pattern matches a request for this host, method and segments. -/
def Pattern.accepts (p : Pattern) (host method : GoString) (segments : List GoString) : Bool :=
  (p.host == [] || p.host == host) && p.servesMethod method && matchesPath p.segments segments

/-! ### Precedence -/

/-- How the requests of one pattern lie to those of another. -/
inductive Relationship where
  | equivalent
  | moreGeneral
  | moreSpecific
  | disjoint
  | overlaps
  deriving DecidableEq, Repr

/-- `combineRelationships`. -/
def Relationship.combine : Relationship → Relationship → Relationship
  | .equivalent, r => r
  | .disjoint, _ => .disjoint
  | .overlaps, .disjoint => .disjoint
  | .overlaps, _ => .overlaps
  | r, .equivalent => r
  | .moreGeneral, .moreSpecific => .overlaps
  | .moreSpecific, .moreGeneral => .overlaps
  | _, r => r

def compareSegments : Segment → Segment → Relationship
  | .multi _, .multi _ => .equivalent
  | .multi _, _ => .moreGeneral
  | _, .multi _ => .moreSpecific
  | .wild _, .wild _ => .equivalent
  | .wild _, .literal s => if s = [slash] then .disjoint else .moreGeneral
  | .literal s, .wild _ => if s = [slash] then .disjoint else .moreSpecific
  | .literal s, .literal t => if s = t then .equivalent else .disjoint

def Pattern.lastMulti (p : Pattern) : Bool :=
  match p.segments.getLast? with
  | some (.multi _) => true
  | _ => false

/-- The loop of `comparePaths` over corresponding segments. The shorter pattern
meets the longer one only through a final multi wildcard. -/
def comparePathsFrom (multi₁ multi₂ : Bool) (rel : Relationship) :
    List Segment → List Segment → Relationship
  | [], [] => rel
  | [], _ :: _ => if multi₁ then rel.combine .moreGeneral else .disjoint
  | _ :: _, [] => if multi₂ then rel.combine .moreSpecific else .disjoint
  | s₁ :: segs₁, s₂ :: segs₂ =>
    let rel := rel.combine (compareSegments s₁ s₂)
    if rel = .disjoint then .disjoint else comparePathsFrom multi₁ multi₂ rel segs₁ segs₂

def Pattern.comparePaths (p q : Pattern) : Relationship :=
  if p.segments.length ≠ q.segments.length ∧ !p.lastMulti ∧ !q.lastMulti then .disjoint
  else comparePathsFrom p.lastMulti q.lastMulti .equivalent p.segments q.segments

def Pattern.compareMethods (p q : Pattern) : Relationship :=
  if p.method = q.method then .equivalent
  else if p.method = [] then .moreGeneral
  else if q.method = [] then .moreSpecific
  else if p.method = lit "GET" ∧ q.method = lit "HEAD" then .moreGeneral
  else if q.method = lit "GET" ∧ p.method = lit "HEAD" then .moreSpecific
  else .disjoint

def Pattern.comparePathsAndMethods (p q : Pattern) : Relationship :=
  if p.compareMethods q = .disjoint then .disjoint
  else (p.compareMethods q).combine (p.comparePaths q)

/-- Neither pattern would win on a request that matches both. -/
def Pattern.conflictsWith (p q : Pattern) : Bool :=
  p.host == q.host &&
    (p.comparePathsAndMethods q == .equivalent || p.comparePathsAndMethods q == .overlaps)

/-- A pattern with a host goes before one without; on the same host the more
specific one does. -/
def Pattern.precedes (p q : Pattern) : Bool :=
  if p.host = q.host then p.comparePathsAndMethods q == .moreSpecific else q.host == []

theorem compareSegments_self (s : Segment) : compareSegments s s = .equivalent := by
  cases s <;> simp [compareSegments]

theorem conflictsWith_self (p : Pattern) : p.conflictsWith p := by
  have hloop (multi : Bool) (segments : List Segment) :
      comparePathsFrom multi multi .equivalent segments segments = .equivalent := by
    induction segments with
    | nil => rfl
    | cons s segments ih =>
      simp only [comparePathsFrom, compareSegments_self, Relationship.combine]
      exact ih
  simp [Pattern.conflictsWith, Pattern.comparePathsAndMethods, Pattern.compareMethods,
    Pattern.comparePaths, Relationship.combine, hloop]

/-! ### The mux -/

variable {η : Type}

/-- The registered patterns with their handlers, in the order of registration.
No two of them conflict. -/
structure ServeMux (η : Type) where
  entries : List (Pattern × η)
  noConflict : entries.Pairwise fun a b => b.1.conflictsWith a.1 = false

namespace ServeMux

def empty : ServeMux η := ⟨[], List.Pairwise.nil⟩

/-- `ServeMux.Handle`. It panics, here `none`, on a malformed pattern and on one
that conflicts with a pattern already there. -/
def handle [WildcardNames] (mux : ServeMux η) (pattern : GoString) (handler : η) :
    Option (ServeMux η) :=
  match parsePattern pattern with
  | none => none
  | some p =>
    if h : ∀ e ∈ mux.entries, p.conflictsWith e.1 = false then
      some ⟨mux.entries ++ [(p, handler)], by
        rw [List.pairwise_append]
        exact ⟨mux.noConflict, List.pairwise_singleton _ _, by simpa using h⟩⟩
    else none

/-- A series of registrations. -/
def handleAll [WildcardNames] (mux : ServeMux η) (mounts : List (GoString × η)) :
    Option (ServeMux η) :=
  mounts.foldlM (fun mux mount => mux.handle mount.1 mount.2) mux

/-- What the routing tree returns for a host, a method and the segments of a
path: of the entries that match, the one before all others. -/
def find (mux : ServeMux η) (host method : GoString) (segments : List GoString) :
    Option (Pattern × η) :=
  let hits := mux.entries.filter fun e => e.1.accepts host method segments
  hits.find? fun e => hits.all fun f => f.1 == e.1 || e.1.precedes f.1

end ServeMux

/-- A request as the mux sees it: the host without its port, the path in its
escaped form and decoded. -/
structure Request where
  method : GoString
  host : GoString
  escapedPath : GoString
  path : GoString
  methodValid : validMethod method
  decodes : unescape escapedPath = some path

/-- `exactMatch`: the pattern matches the path as such, not as the beginning of
the path. -/
def Pattern.exactMatch (p : Pattern) (path : GoString) : Bool :=
  !p.lastMulti || (path.getLast? == some slash && p.segments.length == path.count slash)

namespace ServeMux

/-- The handler that serves a request. There is none if nothing matches, if the
path is not clean and the client is redirected to the clean one, or if only the
beginning of the path matches while the path with a slash added has an exact
match, to which the client is redirected. -/
def dispatch (mux : ServeMux η) (r : Request) : Option η :=
  let withSlash := r.escapedPath ++ [slash]
  if cleanPath r.escapedPath ≠ r.escapedPath then none
  else match mux.find r.host r.method (requestSegments r.escapedPath) with
    | none => none
    | some (p, handler) =>
      if !p.exactMatch r.escapedPath ∧ r.escapedPath.getLast? ≠ some slash ∧
          (mux.find r.host r.method (requestSegments withSlash)).any (·.1.exactMatch withSlash)
      then none
      else some handler

theorem dispatch_eq_some {mux : ServeMux η} {r : Request} {handler : η}
    (h : mux.dispatch r = some handler) :
    cleanPath r.escapedPath = r.escapedPath ∧ ∃ p, (p, handler) ∈ mux.entries ∧
      p.accepts r.host r.method (requestSegments r.escapedPath) ∧
      ∀ e ∈ mux.entries, e.1.accepts r.host r.method (requestSegments r.escapedPath) →
        e.1 = p ∨ p.precedes e.1 := by
  simp only [dispatch] at h
  split_ifs at h with hclean
  refine ⟨not_not.mp hclean, ?_⟩
  cases hfind : mux.find r.host r.method (requestSegments r.escapedPath) with
  | none => simp [hfind] at h
  | some e =>
    simp only [hfind] at h
    split_ifs at h
    obtain ⟨p, handler'⟩ := e
    simp only [Option.some.injEq] at h
    subst h
    have hmem := List.mem_of_find?_eq_some hfind
    have hfirst := List.find?_some hfind
    simp only [List.mem_filter] at hmem
    simp only [List.all_eq_true, List.mem_filter, Bool.or_eq_true, beq_iff_eq] at hfirst
    exact ⟨p, hmem.1, hmem.2, fun e he hacc => hfirst e ⟨he, hacc⟩⟩

theorem handle_eq_some [WildcardNames] {mux mux' : ServeMux η} {pattern : GoString} {handler : η}
    (h : mux.handle pattern handler = some mux') :
    ∃ p, parsePattern pattern = some p ∧ mux'.entries = mux.entries ++ [(p, handler)] := by
  unfold handle at h
  split at h
  next => cases h
  next p hp =>
    split_ifs at h
    cases h
    exact ⟨p, hp, rfl⟩

/-- Registration keeps what was there and adds one entry for each mount, in
order. -/
theorem handleAll_eq_some [WildcardNames] {mounts : List (GoString × η)} {mux mux' : ServeMux η}
    (h : mux.handleAll mounts = some mux') :
    ∃ added, mux'.entries = mux.entries ++ added ∧
      mounts.map (fun m => (parsePattern m.1, m.2)) = added.map fun e => (some e.1, e.2) := by
  induction mounts generalizing mux with
  | nil =>
    cases h
    exact ⟨[], by simp, rfl⟩
  | cons mount mounts ih =>
    simp only [handleAll, List.foldlM_cons, Option.bind_eq_bind, Option.bind_eq_some_iff] at h
    obtain ⟨next, hnext, hrest⟩ := h
    obtain ⟨p, hp, hentries⟩ := handle_eq_some hnext
    obtain ⟨added, hadded, hmounts⟩ := ih hrest
    exact ⟨(p, mount.2) :: added, by simp [hadded, hentries], by simp [hp, hmounts]⟩

/-- The entries are those that were there and the mounted ones. -/
theorem mem_handleAll [WildcardNames] {mounts : List (GoString × η)} {mux mux' : ServeMux η}
    (h : mux.handleAll mounts = some mux') {x : Pattern × η} :
    x ∈ mux'.entries ↔ x ∈ mux.entries ∨ ∃ m ∈ mounts, parsePattern m.1 = some x.1 ∧ m.2 = x.2 := by
  obtain ⟨added, hentries, hadded⟩ := handleAll_eq_some h
  have hmem : x ∈ added ↔ (some x.1, x.2) ∈ added.map fun e => (some e.1, e.2) := by
    rw [List.mem_map]
    constructor
    · exact fun hx => ⟨x, hx, rfl⟩
    · rintro ⟨e, he, heq⟩
      simp only [Prod.mk.injEq, Option.some.injEq] at heq
      rwa [Prod.ext heq.1 heq.2] at he
  rw [hentries, List.mem_append, hmem, ← hadded, List.mem_map]
  simp only [Prod.mk.injEq]

end ServeMux

end ApiTest.Net
