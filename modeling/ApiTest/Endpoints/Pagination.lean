import ApiTest.Audit.Event
import ApiTest.Net.Query
import ApiTest.Paging.Follow
import ApiTest.Text.Base64
import ApiTest.Text.Decimal

/-! The pagination endpoints. Three handlers slice one synthetic dataset: by page
number with `Link` headers, by `$top` and `$skip` with `@odata.nextLink`, and by an
opaque cursor. Their arithmetic is that of a 64 bit `int`, which wraps. A request that
is not refused asks for the window at some offset of the dataset, and every
continuation in the answer asks for another window of it. -/

namespace ApiTest.Endpoints.Pagination

open Text Net Audit Paging

def defaultTotal : ℤ := 100
def defaultPageSize : ℤ := 10
def maxTotal : ℤ := 10000
def maxPageSize : ℤ := 1000

/-- How a handler ends without a page: a response with status 400, or a panic. -/
inductive Fault where
  | badRequest (error : GoString)
  | panic
  deriving DecidableEq, Repr

/-! ### Parameters -/

/-- One integer parameter with a default and a lower bound. The default is not checked. -/
def intDefault (lower : ℤ) (err raw : GoString) (default : ℤ) : Except GoString ℤ :=
  if raw = [] then .ok default
  else
    match atoi raw with
    | (n, none) => if n < lower then .error err else .ok n
    | (_, some _) => .error err

def positiveDefault (raw : GoString) (default : ℤ) : Except GoString ℤ :=
  intDefault 1 (lit "must be a positive integer") raw default

def nonNegativeDefault (raw : GoString) (default : ℤ) : Except GoString ℤ :=
  intDefault 0 (lit "must be a non-negative integer") raw default

/-- The upper bound is checked of what was sent, with an error of its own. -/
def boundedDefault (raw : GoString) (default upper : ℤ) (name : GoString) : Except GoString ℤ :=
  if raw = [] then .ok default
  else
    match atoi raw with
    | (n, none) =>
      if n < 1 then .error (name ++ lit " must be a positive integer")
      else if upper < n then
        .error (name ++ lit " " ++ itoa n ++ lit " exceeds max " ++ itoa upper)
      else .ok n
    | (_, some _) => .error (name ++ lit " must be a positive integer")

def encodeCursor (offset : ℤ) : GoString := Base64.encode (itoa offset)

/-- `decodeCursor`; no caller looks at its error. -/
def decodeCursor (s : GoString) : Option ℤ :=
  (Base64.decode s).bind fun raw =>
    match atoi raw with
    | (n, none) => if n < 0 then none else some n
    | (_, some _) => none

/-! ### Items -/

structure Item where
  id : ℤ
  value : GoString
  deriving DecidableEq, Repr

section Items
variable (value : ℤ → GoString)

/-- Division of two `int`s. -/
def quotient (a b : ℤ) : Except Fault ℤ := if b = 0 then .error .panic else .ok (wrap (a.tdiv b))

def lastPageFor (total perPage : ℤ) : Except Fault ℤ :=
  if total ≤ 0 then .ok 1 else quotient (wrap (wrap (total + perPage) - 1)) perPage

/-- `sliceItems` over any `deterministicValue`. Go panics if the capacity it is asked
for is negative. -/
def sliceItems (start pageSize total : ℤ) : Except Fault (List Item) :=
  if total ≤ start then .ok []
  else
    let sum := wrap (start + pageSize)
    let stop := if total < sum then total else sum
    if wrap (stop - start) < 0 then .error .panic
    else .ok ((List.range (stop - start).toNat).map fun i : ℕ => ⟨start + i, value (start + i)⟩)

/-! ### Requests and their handlers -/

/-- What a handler reads of a request. The server refuses a `Host` header with a
question mark in it. -/
structure Request where
  tls : Bool
  host : GoString
  rawQuery : GoString
  host_plain : question ∉ host

/-- `r.URL.Query().Get(key)`. -/
def Request.param (r : Request) (key : GoString) : GoString := Values.get (parseQuery r.rawQuery) key

/-- `requestBaseURL`; the path is that of the route. -/
def requestBaseURL (r : Request) (path : GoString) : GoString :=
  (if r.tls then lit "https" else lit "http") ++ lit "://" ++ r.host ++ path

/-- Integer parameters as the format strings of the package write them. -/
def intQuery (params : List (GoString × ℤ)) : GoString :=
  [ampersand].intercalate (params.map fun p => plainPair (p.1, itoa p.2))

inductive Rel where
  | first
  | last
  | prev
  | next
  deriving DecidableEq, Repr

def Rel.name : Rel → GoString
  | .first => lit "first"
  | .last => lit "last"
  | .prev => lit "prev"
  | .next => lit "next"

/-- An entry of the `Link` header. -/
structure Link where
  url : GoString
  rel : Rel
  deriving DecidableEq, Repr

def Link.text (l : Link) : GoString := lit "<" ++ l.url ++ lit ">; rel=\"" ++ l.rel.name ++ lit "\""

def linkParams (page perPage total : ℤ) : List (GoString × ℤ) :=
  [(lit "page", page), (lit "per_page", perPage), (lit "total", total)]

def linkHeader (base : GoString) (rel : Rel) (page perPage total : ℤ) : Link :=
  ⟨base ++ question :: intQuery (linkParams page perPage total), rel⟩

example : (linkHeader (lit "http://h/p") .next 2 10 100).text =
    lit "<http://h/p?page=2&per_page=10&total=100>; rel=\"next\"" := by decide

structure LinkResponse where
  items : List Item
  page : ℤ
  perPage : ℤ
  total : ℤ
  links : List Link
  deriving DecidableEq, Repr

/-- The value of the `Link` header. -/
def LinkResponse.header (r : LinkResponse) : GoString :=
  (lit ", ").intercalate (r.links.map Link.text)

def odataParams (top skip total : ℤ) : List (GoString × ℤ) :=
  [(lit "$top", top), (lit "$skip", skip), (lit "total", total)]

structure ODataResponse where
  value : List Item
  count : ℤ
  /-- Left out of the body if it is empty. -/
  nextLink : GoString
  deriving DecidableEq, Repr

structure CursorResponse where
  items : List Item
  /-- Left out of the body if it is empty. -/
  nextCursor : GoString
  deriving DecidableEq, Repr

def link (r : Request) : Except Fault LinkResponse := do
  let page ← (positiveDefault (r.param (lit "page")) 1).mapError fun _ =>
    .badRequest (lit "page must be a positive integer")
  let perPage ← (boundedDefault (r.param (lit "per_page")) defaultPageSize maxPageSize
    (lit "per_page")).mapError .badRequest
  let total ← (boundedDefault (r.param (lit "total")) defaultTotal maxTotal
    (lit "total")).mapError .badRequest
  let lastPage ← lastPageFor total perPage
  if lastPage < page then
    .error (.badRequest (lit "page " ++ itoa page ++ lit " is past end of dataset (total=" ++
      itoa total ++ lit ", per_page=" ++ itoa perPage ++ lit ", last_page=" ++ itoa lastPage ++ lit ")"))
  else
    let start := wrap (wrap (page - 1) * perPage)
    let items ← sliceItems value start perPage total
    let base := requestBaseURL r (lit "/v1/pagination/link")
    .ok {
      items, page, perPage, total
      links := [linkHeader base .first 1 perPage total, linkHeader base .last lastPage perPage total] ++
        (if 1 < page then [linkHeader base .prev (wrap (page - 1)) perPage total] else []) ++
        (if page < lastPage then [linkHeader base .next (wrap (page + 1)) perPage total] else []) }

def odata (r : Request) : Except Fault ODataResponse := do
  let top ← (boundedDefault (r.param (lit "$top")) defaultPageSize maxPageSize
    (lit "$top")).mapError .badRequest
  let skip ← (nonNegativeDefault (r.param (lit "$skip")) 0).mapError fun _ =>
    .badRequest (lit "$skip must be a non-negative integer")
  let total ← (boundedDefault (r.param (lit "total")) defaultTotal maxTotal
    (lit "total")).mapError .badRequest
  if total ≤ skip then
    .error (.badRequest (lit "$skip " ++ itoa skip ++ lit " is past end of dataset (total=" ++
      itoa total ++ lit ")"))
  else
    let items ← sliceItems value skip top total
    .ok {
      value := items
      count := total
      nextLink :=
        if wrap (skip + top) < total then
          requestBaseURL r (lit "/v1/pagination/odata") ++ question ::
            intQuery (odataParams top (wrap (skip + top)) total)
        else [] }

/-- The offset `cursor` starts at. -/
def cursorOffset (c : GoString) : Except Fault ℤ :=
  if c = [] then .ok 0
  else
    match decodeCursor c with
    | none => .error (.badRequest (lit "cursor is malformed"))
    | some n => .ok n

def cursor (r : Request) : Except Fault CursorResponse := do
  let limit ← (boundedDefault (r.param (lit "limit")) defaultPageSize maxPageSize
    (lit "limit")).mapError .badRequest
  let total ← (boundedDefault (r.param (lit "total")) defaultTotal maxTotal
    (lit "total")).mapError .badRequest
  let offset ← cursorOffset (r.param (lit "cursor"))
  if total ≤ offset then
    .error (.badRequest (lit "cursor offset " ++ itoa offset ++ lit " is past end of dataset (total=" ++
      itoa total ++ lit ")"))
  else
    let items ← sliceItems value offset limit total
    .ok {
      items
      nextCursor := if wrap (offset + limit) < total then encodeCursor (wrap (offset + limit)) else [] }

end Items

/-! ### The client -/

/-- The request for a URL that an answer has named. -/
def Request.visit (r : Request) (url : GoString) : Request := { r with rawQuery := (cut question url).2 }

/-- The same limit and total as before, with a cursor from an answer. -/
def Request.withCursor (r : Request) (c : GoString) : Request :=
  { r with rawQuery := encodeQuery [(lit "cursor", [c]), (lit "limit", [r.param (lit "limit")]),
      (lit "total", [r.param (lit "total")])] }

inductive Style where
  | link
  | odata
  | cursor
  deriving DecidableEq, Repr

/-- What a client takes from an answer in any style: the items, and the requests it may
send next. -/
structure Page where
  items : List Item
  continuations : List (Rel × Request)

def Style.serve (value : ℤ → GoString) : Style → Request → Except Fault Page
  | .link, r => (Pagination.link value r).map fun answer =>
    ⟨answer.items, answer.links.map fun l => (l.rel, r.visit l.url)⟩
  | .odata, r => (Pagination.odata value r).map fun answer =>
    ⟨answer.value, if answer.nextLink = [] then [] else [(.next, r.visit answer.nextLink)]⟩
  | .cursor, r => (Pagination.cursor value r).map fun answer =>
    ⟨answer.items, if answer.nextCursor = [] then [] else [(.next, r.withCursor answer.nextCursor)]⟩

/-! ### What a request asks for -/

/-- The integer a parameter stands for. -/
def readInt (raw : GoString) (default : ℤ) : Option ℤ :=
  if raw = [] then some default
  else
    match atoi raw with
    | (n, none) => some n
    | (_, some _) => none

/-- A page size and a total that the handlers accept. -/
structure Shape where
  size : ℕ
  total : ℕ
  size_pos : 0 < size
  size_le : size ≤ maxPageSize
  total_pos : 0 < total
  total_le : total ≤ maxTotal

/-- The parameter for the page size. -/
def Style.sizeKey : Style → GoString
  | .link => lit "per_page"
  | .odata => lit "$top"
  | .cursor => lit "limit"

/-- The offset a request stands for, as a mathematical integer. -/
def Style.offset (r : Request) (size : ℕ) : Style → Option ℤ
  | .link => (readInt (r.param (lit "page")) 1).map fun p => (p - 1) * size
  | .odata => readInt (r.param (lit "$skip")) 0
  | .cursor => if r.param (lit "cursor") = [] then some 0 else decodeCursor (r.param (lit "cursor"))

/-- A request for the window at offset `s`. -/
structure Asks (style : Style) (r : Request) (w : Shape) (s : ℕ) : Prop where
  size : readInt (r.param style.sizeKey) defaultPageSize = some (w.size : ℤ)
  total : readInt (r.param (lit "total")) defaultTotal = some (w.total : ℤ)
  offset : style.offset r w.size = some (s : ℤ)

/-- The windows a continuation leads to from the window at `s`. -/
def Rel.Leads (w : Shape) (s t : ℕ) : Rel → Prop
  | .first => t = 0
  | .last => w.size ∣ t ∧ t < w.total ∧ w.total ≤ t + w.size
  | .prev => t + w.size = s
  | .next => t = s + w.size

def item (value : ℤ → GoString) (i : ℕ) : Item := ⟨i, value i⟩

/-- The items with ids `s, s + 1, …, min (s + k) total - 1`. -/
def window (value : ℤ → GoString) (w : Shape) (s : ℕ) : List Item :=
  (List.range' s (min (s + w.size) w.total - s)).map (item value)

theorem window_ne_nil {value : ℤ → GoString} {w : Shape} {s : ℕ} (h : s < w.total) :
    window value w s ≠ [] := by
  have := w.size_pos
  rw [window, ne_eq, List.map_eq_nil_iff, List.range'_eq_nil_iff]
  omega

/-! ### Checks of the parameters -/

theorem intDefault_of_read {lower n default : ℤ} {err raw : GoString}
    (hread : readInt raw default = some n) (hn : lower ≤ n) :
    intDefault lower err raw default = .ok n := by
  unfold readInt at hread
  unfold intDefault
  split_ifs at hread ⊢ with hraw
  · cases hread
    rfl
  · split at hread
    next m hm =>
      cases hread
      rw [if_neg (not_lt.mpr hn)]
    next => cases hread

theorem boundedDefault_of_read {default upper n : ℤ} {raw : GoString} (name : GoString)
    (hread : readInt raw default = some n) (hlower : 1 ≤ n) (hupper : n ≤ upper) :
    boundedDefault raw default upper name = .ok n := by
  unfold readInt at hread
  unfold boundedDefault
  split_ifs at hread ⊢ with hraw
  · cases hread
    rfl
  · split at hread
    next m hm =>
      cases hread
      rw [if_neg (not_lt.mpr hlower), if_neg (not_lt.mpr hupper)]
    next => cases hread

section Shape
variable (w : Shape)

theorem Shape.boundedDefault_size {raw : GoString} (name : GoString)
    (h : readInt raw defaultPageSize = some (w.size : ℤ)) :
    boundedDefault raw defaultPageSize maxPageSize name = .ok (w.size : ℤ) :=
  boundedDefault_of_read name h (by have := w.size_pos; omega) w.size_le

theorem Shape.boundedDefault_total {raw : GoString} (name : GoString)
    (h : readInt raw defaultTotal = some (w.total : ℤ)) :
    boundedDefault raw defaultTotal maxTotal name = .ok (w.total : ℤ) :=
  boundedDefault_of_read name h (by have := w.total_pos; omega) w.total_le

/-! ### Arithmetic within the bounds -/

/-- A number that the two bounds keep small is in the range of an `int`. -/
theorem isInt_small {n : ℤ} (hlow : 0 ≤ n) (hhigh : n ≤ 2 * maxTotal) : IsInt n := by
  unfold maxTotal at hhigh
  exact ⟨by omega, by omega⟩

theorem wrap_small {n : ℤ} (hlow : 0 ≤ n) (hhigh : n ≤ 2 * maxTotal) : wrap n = n :=
  wrap_eq (isInt_small hlow hhigh)

theorem Shape.size_le_maxTotal : (w.size : ℤ) ≤ maxTotal := w.size_le.trans (by decide)

/-- Page `p` is the last one if `p - 1` is the last index. -/
theorem Shape.lastPageFor_eq :
    lastPageFor w.total w.size = .ok ((lastIndex w.total w.size : ℤ) + 1) := by
  have hsize := w.size_pos
  have htotal := w.total_pos
  have hsum : (w.total : ℤ) + w.size - 1 = ((w.total - 1 + w.size : ℕ) : ℤ) := by omega
  have hbound := w.total_le
  have hsizeBound := w.size_le_maxTotal
  have hlast : lastIndex w.total w.size ≤ w.total - 1 := Nat.div_le_self _ _
  rw [lastPageFor, if_neg (by omega), @wrap_small (w.total + w.size) (by omega) (by omega), hsum,
    wrap_small (by omega) (by omega), quotient, if_neg (by omega), ← Int.ofNat_tdiv,
    Nat.add_div_right _ hsize]
  change Except.ok (wrap ((lastIndex w.total w.size + 1 : ℕ) : ℤ)) = _
  rw [wrap_small (by omega) (by omega)]
  rfl

theorem Shape.sliceItems_eq (value : ℤ → GoString) {s : ℕ} (hs : s < w.total) :
    sliceItems value s w.size w.total = .ok (window value w s) := by
  have hsize := w.size_pos
  have htotal := w.total_le
  have hbound := w.size_le_maxTotal
  have hstop : (if (w.total : ℤ) < s + w.size then (w.total : ℤ) else s + w.size) =
      ((min (s + w.size) w.total : ℕ) : ℤ) := by
    split_ifs <;> omega
  have hroom : ((min (s + w.size) w.total : ℕ) : ℤ) - s = ((min (s + w.size) w.total - s : ℕ) : ℤ) := by
    omega
  rw [sliceItems, if_neg (by omega), wrap_small (by omega) (by omega)]
  dsimp only
  rw [hstop, hroom, wrap_small (by omega) (by omega), if_neg (by omega), Int.toNat_natCast, window,
    List.range'_eq_map_range, List.map_map]
  congr 1

end Shape

/-! ### Following a continuation -/

theorem itoa_plain (n : ℤ) : (itoa n).all isQueryPlain = true := by
  have hdigits : ∀ m, (digits m).all isQueryPlain = true := by
    intro m
    rw [List.all_eq_true]
    intro c hc
    exact forall_byte (p := fun c => isDecimal c = true → isQueryPlain c = true)
      (by decide +kernel) c (isDecimal_of_mem_digits hc)
  unfold itoa
  split_ifs
  · rw [List.all_cons, hdigits]
    decide
  · exact hdigits _

theorem readInt_itoa {n : ℤ} (h : IsInt n) (default : ℤ) : readInt (itoa n) default = some n := by
  rw [readInt, if_neg (itoa_ne_nil n), atoi_itoa h]

theorem question_notMem_base (r : Request) {path : GoString} (h : question ∉ path) :
    question ∉ requestBaseURL r path := by
  unfold requestBaseURL
  rw [List.mem_append, List.mem_append, List.mem_append]
  rintro (((hc | hc) | hc) | hc)
  · split_ifs at hc <;> exact absurd hc (by decide)
  · exact absurd hc (by decide)
  · exact r.host_plain hc
  · exact h hc

theorem headD_valuesOf (params : List (GoString × ℤ)) (key : GoString) :
    (Multimap.valuesOf (params.map fun p => (p.1, itoa p.2)) key).headD [] =
      (params.lookup key).elim [] itoa := by
  induction params with
  | nil => rfl
  | cons p params ih =>
    by_cases hkey : p.1 = key
    · have heq : (key == p.1) = true := by simpa using hkey.symm
      rw [List.lookup_cons, heq]
      simp [Multimap.valuesOf, hkey]
    · have hne : (key == p.1) = false := by simpa using Ne.symm hkey
      rw [List.lookup_cons, hne, ← ih]
      simp [Multimap.valuesOf, hkey]

/-- A parameter in a URL of the package is read back. -/
theorem readInt_visit (r : Request) {path : GoString} (hpath : question ∉ path)
    {params : List (GoString × ℤ)} (hkeys : (params.map Prod.fst).Nodup)
    (hplain : (params.map Prod.fst).all (·.all isQueryPlain) = true) {key : GoString} {n : ℤ}
    (hmem : (key, n) ∈ params) (hn : IsInt n) (default : ℤ) :
    readInt ((r.visit (requestBaseURL r path ++ question :: intQuery params)).param key) default =
      some n := by
  have hpairs : ∀ p ∈ params.map fun p => (p.1, itoa p.2), PlainPair p := by
    intro p hp
    obtain ⟨q, hq, rfl⟩ := List.mem_map.mp hp
    exact ⟨List.all_eq_true.mp hplain q.1 (List.mem_map_of_mem hq), itoa_plain q.2⟩
  have hquery : intQuery params =
      [ampersand].intercalate ((params.map fun p => (p.1, itoa p.2)).map plainPair) := by
    rw [intQuery, List.map_map]
    rfl
  have hne : params ≠ [] := List.ne_nil_of_mem hmem
  rw [Request.param, Request.visit, cut_append (question_notMem_base r hpath), hquery,
    parseQuery_plain (by simpa using hne) hpairs, Values.get, Multimap.lookup_ofPairs,
    headD_valuesOf, (Dictionary.mem_iff_lookup hkeys).mp hmem]
  exact readInt_itoa hn default

theorem param_withCursor (r : Request) (c : GoString) :
    (r.withCursor c).param (lit "cursor") = c ∧
      (r.withCursor c).param (lit "limit") = r.param (lit "limit") ∧
      (r.withCursor c).param (lit "total") = r.param (lit "total") := by
  have hkeys : ([lit "cursor", lit "limit", lit "total"] : List GoString).Nodup := by decide
  have hparam : ∀ {key v : GoString}, (key, [v]) ∈ [(lit "cursor", [c]),
      (lit "limit", [r.param (lit "limit")]), (lit "total", [r.param (lit "total")])] →
      (r.withCursor c).param key = v := by
    intro key v hmem
    rw [Request.param, Values.get, Request.withCursor]
    dsimp only
    rw [lookup_parseQuery_encodeQuery (by exact hkeys), (Dictionary.mem_iff_lookup (by exact hkeys)).mp hmem]
    rfl
  exact ⟨hparam (by simp), hparam (by simp), hparam (by simp)⟩

/-! ### The page-numbered style -/

section Handlers
variable {value : ℤ → GoString} {r : Request} {w : Shape} {s : ℕ}

/-- A page lies in the dataset if and only if it is not behind the last page. -/
theorem Shape.page_iff (w : Shape) (i : ℕ) :
    i * w.size < w.total ↔ i ≤ lastIndex w.total w.size := by
  have hpos := w.total_pos
  rw [lastIndex, Nat.le_div_iff_mul_le w.size_pos]
  omega

/-- The page an accepted request asks for, counted from zero. -/
theorem Asks.page (h : Asks .link r w s) :
    ∃ i : ℕ, readInt (r.param (lit "page")) 1 = some (i + 1 : ℤ) ∧ s = i * w.size := by
  obtain ⟨p, hp, hs⟩ := Option.map_eq_some_iff.mp h.offset
  have hsize : (0 : ℤ) < w.size := by exact_mod_cast w.size_pos
  have hnonneg : 0 ≤ p - 1 := by
    by_contra hneg
    have := Int.mul_neg_of_neg_of_pos (not_le.mp hneg) hsize
    omega
  obtain ⟨i, hi⟩ := Int.eq_ofNat_of_zero_le hnonneg
  refine ⟨i, ?_, ?_⟩
  · rw [hp]
    congr 1
    omega
  · rw [hi] at hs
    exact_mod_cast hs.symm

theorem asks_of_page (hsize : readInt (r.param (lit "per_page")) defaultPageSize = some (w.size : ℤ))
    (htotal : readInt (r.param (lit "total")) defaultTotal = some (w.total : ℤ)) {i : ℕ}
    (hpage : readInt (r.param (lit "page")) 1 = some (i + 1 : ℤ)) : Asks .link r w (i * w.size) := by
  refine ⟨hsize, htotal, ?_⟩
  rw [Style.offset, hpage, Option.map_some, Int.natCast_mul]
  congr 2
  omega

/-- The entry for page `i`, counted from zero. -/
def linkTo (r : Request) (w : Shape) (rel : Rel) (i : ℕ) : Link :=
  linkHeader (requestBaseURL r (lit "/v1/pagination/link")) rel (i + 1) w.size w.total

theorem asks_visit_linkTo (r : Request) (w : Shape) (rel : Rel) {i : ℕ} (hi : i * w.size < w.total) :
    Asks .link (r.visit (linkTo r w rel i).url) w (i * w.size) := by
  have hread := @readInt_visit r _ (show question ∉ lit "/v1/pagination/link" by decide)
    (linkParams (i + 1) w.size w.total) (show [lit "page", lit "per_page", lit "total"].Nodup by decide)
    (show [lit "page", lit "per_page", lit "total"].all (·.all isQueryPlain) = true by decide)
  have hpage : i ≤ i * w.size := Nat.le_mul_of_pos_right i w.size_pos
  have htotal := w.total_le
  have hsize := w.size_le_maxTotal
  apply asks_of_page
  · exact hread (by simp [linkParams]) (isInt_small (by omega) (by omega)) _
  · exact hread (by simp [linkParams]) (isInt_small (by omega) (by omega)) _
  · exact hread (by simp [linkParams]) (isInt_small (by omega) (by omega)) _

theorem link_eq (hsize : readInt (r.param (lit "per_page")) defaultPageSize = some (w.size : ℤ))
    (htotal : readInt (r.param (lit "total")) defaultTotal = some (w.total : ℤ)) {i : ℕ}
    (hpage : readInt (r.param (lit "page")) 1 = some (i + 1 : ℤ)) (hi : i * w.size < w.total) :
    link value r = .ok {
      items := window value w (i * w.size)
      page := i + 1
      perPage := w.size
      total := w.total
      links := [linkTo r w .first 0, linkTo r w .last (lastIndex w.total w.size)] ++
        (if 0 < i then [linkTo r w .prev (i - 1)] else []) ++
        (if i < lastIndex w.total w.size then [linkTo r w .next (i + 1)] else []) } := by
  have hlast := (w.page_iff i).mp hi
  have hbound : i ≤ i * w.size := Nat.le_mul_of_pos_right i w.size_pos
  have hmax := w.total_le
  have hstart : wrap (wrap ((i : ℤ) + 1 - 1) * w.size) = ((i * w.size : ℕ) : ℤ) := by
    rw [show (i : ℤ) + 1 - 1 = i by omega, @wrap_small i (by omega) (by omega), ← Int.natCast_mul,
      wrap_small (by omega) (by omega)]
  unfold link positiveDefault
  rw [intDefault_of_read hpage (by omega), w.boundedDefault_size _ hsize,
    w.boundedDefault_total _ htotal]
  simp only [Except.mapError, bind, Except.bind, w.lastPageFor_eq, hstart, w.sliceItems_eq value hi]
  rw [if_neg (by omega)]
  have hprev : (if 1 < (i : ℤ) + 1 then [linkHeader (requestBaseURL r (lit "/v1/pagination/link")) .prev
      (wrap ((i : ℤ) + 1 - 1)) w.size w.total] else []) =
      if 0 < i then [linkTo r w .prev (i - 1)] else [] := by
    split_ifs
    · rw [linkTo, wrap_small (by omega) (by omega)]
      congr 2
      omega
    · omega
    · omega
    · rfl
  have hnext : (if (i : ℤ) + 1 < lastIndex w.total w.size + 1 then
      [linkHeader (requestBaseURL r (lit "/v1/pagination/link")) .next
        (wrap ((i : ℤ) + 1 + 1)) w.size w.total] else []) =
      if i < lastIndex w.total w.size then [linkTo r w .next (i + 1)] else [] := by
    split_ifs
    · rw [linkTo, wrap_small (by omega) (by omega)]
      rfl
    · omega
    · omega
    · rfl
  rw [hprev, hnext]
  rfl

/-- What the continuations in the answer for the window at `s` are good for. -/
structure Continues (style : Style) (w : Shape) (s : ℕ) (cs : List (Rel × Request)) : Prop where
  leads : ∀ c ∈ cs, ∃ t, c.1.Leads w s t ∧ Asks style c.2 w t ∧ t < w.total
  next : s + w.size < w.total → ∃ r, cs.lookup .next = some r

theorem linkTo_leads (r : Request) (w : Shape) (s : ℕ) (rel : Rel) (j : ℕ) (hj : j * w.size < w.total)
    (h : rel.Leads w s (j * w.size)) :
    ∃ t, (linkTo r w rel j).rel.Leads w s t ∧ Asks .link (r.visit (linkTo r w rel j).url) w t ∧
      t < w.total :=
  ⟨j * w.size, h, asks_visit_linkTo r w rel hj, hj⟩

theorem serve_link (h : Asks .link r w s) (hs : s < w.total) :
    ∃ cs, Style.serve value .link r = .ok ⟨window value w s, cs⟩ ∧ Continues .link w s cs := by
  obtain ⟨i, hpage, rfl⟩ := h.page
  have hlast : lastIndex w.total w.size * w.size < w.total := (w.page_iff _).mpr le_rfl
  refine ⟨_, by rw [Style.serve, link_eq h.size h.total hpage hs]; rfl, ?_, ?_⟩
  · intro c hc
    obtain ⟨l, hl, rfl⟩ := List.mem_map.mp hc
    simp only [List.mem_append, List.mem_cons, List.not_mem_nil, or_false,
      List.mem_ite_nil_right] at hl
    obtain ((rfl | rfl) | ⟨hi, rfl⟩) | ⟨hi, rfl⟩ := hl
    · apply linkTo_leads r w _ .first 0
      · rw [Nat.zero_mul]
        exact w.total_pos
      · exact Nat.zero_mul _
    · apply linkTo_leads r w _ .last _ hlast
      refine ⟨Nat.dvd_mul_left _ _, hlast, ?_⟩
      rw [← Nat.succ_mul]
      exact total_le_pages w.size_pos
    · have hprev : (i - 1) * w.size + w.size = i * w.size := by
        rw [← Nat.succ_mul, Nat.succ_eq_add_one, Nat.sub_add_cancel hi]
      exact linkTo_leads r w _ .prev (i - 1) (by omega) hprev
    · apply linkTo_leads r w _ .next (i + 1)
      · exact (w.page_iff _).mpr hi
      · exact Nat.succ_mul i w.size
  · intro hnext
    have hi : i < lastIndex w.total w.size := by
      rw [lt_lastIndex_iff w.size_pos, Nat.succ_mul]
      exact hnext
    refine ⟨r.visit (linkTo r w .next (i + 1)).url, ?_⟩
    rw [if_pos hi]
    split_ifs <;> rfl

/-! ### The two styles with an offset -/

theorem odata_eq (h : Asks .odata r w s) (hs : s < w.total) :
    odata value r = .ok {
      value := window value w s
      count := w.total
      nextLink :=
        if s + w.size < w.total then
          requestBaseURL r (lit "/v1/pagination/odata") ++ question ::
            intQuery (odataParams w.size (s + w.size) w.total)
        else [] } := by
  have hmax := w.total_le
  have hsize := w.size_le_maxTotal
  have htop : readInt (r.param (lit "$top")) defaultPageSize = some (w.size : ℤ) := h.size
  have hskip : readInt (r.param (lit "$skip")) 0 = some (s : ℤ) := h.offset
  unfold odata nonNegativeDefault
  rw [w.boundedDefault_size _ htop, intDefault_of_read hskip (by omega),
    w.boundedDefault_total _ h.total]
  simp only [Except.mapError, bind, Except.bind, w.sliceItems_eq value hs]
  rw [if_neg (by omega), wrap_small (by omega) (by omega)]
  norm_cast

theorem serve_odata (h : Asks .odata r w s) (hs : s < w.total) :
    ∃ cs, Style.serve value .odata r = .ok ⟨window value w s, cs⟩ ∧ Continues .odata w s cs := by
  refine ⟨_, by rw [Style.serve, odata_eq h hs]; rfl, ?_⟩
  have hread := @readInt_visit r _ (show question ∉ lit "/v1/pagination/odata" by decide)
    (odataParams w.size (s + w.size) w.total) (show [lit "$top", lit "$skip", lit "total"].Nodup by decide)
    (show [lit "$top", lit "$skip", lit "total"].all (·.all isQueryPlain) = true by decide)
  have htotal := w.total_le
  have hsize := w.size_le_maxTotal
  by_cases hnext : s + w.size < w.total
  · rw [if_pos hnext, if_neg (List.append_ne_nil_of_right_ne_nil _ (List.cons_ne_nil _ _))]
    refine ⟨?_, fun _ => ⟨_, rfl⟩⟩
    intro c hc
    rw [List.mem_singleton] at hc
    subst hc
    refine ⟨s + w.size, rfl, ⟨?_, ?_, ?_⟩, hnext⟩
    · exact hread (by simp [odataParams, Style.sizeKey]) (isInt_small (by omega) (by omega)) _
    · exact hread (by simp [odataParams]) (isInt_small (by omega) (by omega)) _
    · exact hread (by simp [odataParams]) (isInt_small (by omega) (by omega)) _
  · rw [if_neg hnext, if_pos rfl]
    exact ⟨fun c hc => absurd hc List.not_mem_nil, fun h => absurd h hnext⟩

/-- The cursor of an offset is read back. -/
theorem decodeCursor_encodeCursor {n : ℤ} (hn : 0 ≤ n) (hint : IsInt n) :
    decodeCursor (encodeCursor n) = some n := by
  rw [decodeCursor, encodeCursor, Base64.decode_encode, Option.bind_some, atoi_itoa hint]
  exact if_neg (not_lt.mpr hn)

theorem encodeCursor_ne_nil (n : ℤ) : encodeCursor n ≠ [] := by
  intro hnil
  have hread := Base64.decode_encode (itoa n)
  rw [← encodeCursor, hnil] at hread
  exact itoa_ne_nil n (Option.some.inj hread).symm

theorem cursor_eq (h : Asks .cursor r w s) (hs : s < w.total) :
    cursor value r = .ok {
      items := window value w s
      nextCursor := if s + w.size < w.total then encodeCursor (s + w.size) else [] } := by
  have hmax := w.total_le
  have hsize := w.size_le_maxTotal
  have hlimit : readInt (r.param (lit "limit")) defaultPageSize = some (w.size : ℤ) := h.size
  have hoffset : cursorOffset (r.param (lit "cursor")) = .ok (s : ℤ) := by
    have hread := h.offset
    rw [Style.offset] at hread
    unfold cursorOffset
    split_ifs at hread ⊢
    · cases hread
      rfl
    · rw [hread]
  unfold cursor
  rw [w.boundedDefault_size _ hlimit, w.boundedDefault_total _ h.total, hoffset]
  simp only [Except.mapError, bind, Except.bind, w.sliceItems_eq value hs]
  rw [if_neg (by omega), wrap_small (by omega) (by omega)]
  norm_cast

theorem serve_cursor (h : Asks .cursor r w s) (hs : s < w.total) :
    ∃ cs, Style.serve value .cursor r = .ok ⟨window value w s, cs⟩ ∧ Continues .cursor w s cs := by
  refine ⟨_, by rw [Style.serve, cursor_eq h hs]; rfl, ?_⟩
  have htotal := w.total_le
  have hsize := w.size_le_maxTotal
  have hint : IsInt ((s : ℤ) + w.size) := isInt_small (by omega) (by omega)
  by_cases hnext : s + w.size < w.total
  · rw [if_pos hnext, if_neg (encodeCursor_ne_nil _)]
    refine ⟨?_, fun _ => ⟨_, rfl⟩⟩
    intro c hc
    rw [List.mem_singleton] at hc
    subst hc
    obtain ⟨hcursor, hlimit, htotal⟩ := param_withCursor r (encodeCursor (s + w.size))
    refine ⟨s + w.size, rfl, ⟨?_, ?_, ?_⟩, hnext⟩
    · rw [Style.sizeKey, hlimit]
      exact h.size
    · rw [htotal]
      exact h.total
    · rw [Style.offset, hcursor, if_neg (encodeCursor_ne_nil _),
        decodeCursor_encodeCursor (by omega) hint]
      rfl
  · rw [if_neg hnext, if_pos rfl]
    exact ⟨fun c hc => absurd hc List.not_mem_nil, fun h => absurd h hnext⟩

/-! ### What is refused -/

def Refused {α : Type} (answer : Except Fault α) : Prop := ∃ msg, answer = .error (.badRequest msg)

/-- A check that refuses, or ends with a value that has a property. -/
def Checks {α : Type} (check : Except Fault α) (P : α → Prop) : Prop :=
  Refused check ∨ ∃ a, check = .ok a ∧ P a

/-- Checks one after the other. -/
theorem Checks.refused_or {α β : Type} {check : Except Fault α} {rest : α → Except Fault β}
    {P : α → Prop} {Q : Prop} (hcheck : Checks check P) (hrest : ∀ a, P a → Refused (rest a) ∨ Q) :
    Refused (check >>= rest) ∨ Q := by
  obtain ⟨msg, herr⟩ | ⟨a, hok, ha⟩ := hcheck
  · rw [herr]
    exact Or.inl ⟨msg, rfl⟩
  · rw [hok]
    exact hrest a ha

/-- The last check of a handler. -/
theorem refused_ite_or {α : Type} {c : Prop} [Decidable c] {msg : GoString} {answer : Except Fault α}
    {Q : Prop} (h : ¬ c → Q) : Refused (if c then .error (.badRequest msg) else answer) ∨ Q := by
  by_cases hc : c
  · rw [if_pos hc]
    exact Or.inl ⟨msg, rfl⟩
  · exact Or.inr (h hc)

theorem intDefault_checks {lower default : ℤ} (hdefault : lower ≤ default) (err raw msg : GoString) :
    Checks ((intDefault lower err raw default).mapError fun _ => .badRequest msg)
      fun n => readInt raw default = some n ∧ lower ≤ n := by
  unfold intDefault readInt
  split_ifs with hraw
  · exact Or.inr ⟨default, rfl, rfl, hdefault⟩
  · split
    next n hn =>
      split_ifs with hlower
      · exact Or.inl ⟨msg, rfl⟩
      · exact Or.inr ⟨n, rfl, rfl, not_lt.mp hlower⟩
    next => exact Or.inl ⟨msg, rfl⟩

theorem boundedDefault_checks {default upper : ℤ} (hlower : 1 ≤ default) (hupper : default ≤ upper)
    (raw name : GoString) :
    Checks ((boundedDefault raw default upper name).mapError .badRequest)
      fun n => readInt raw default = some n ∧ 1 ≤ n ∧ n ≤ upper := by
  unfold boundedDefault readInt
  split_ifs with hraw
  · exact Or.inr ⟨default, rfl, rfl, hlower, hupper⟩
  · split
    next n hn =>
      split_ifs with hl hu
      · exact Or.inl ⟨_, rfl⟩
      · exact Or.inl ⟨_, rfl⟩
      · exact Or.inr ⟨n, rfl, rfl, not_lt.mp hl, not_lt.mp hu⟩
    next => exact Or.inl ⟨_, rfl⟩

theorem size_checks (raw name : GoString) :
    Checks ((boundedDefault raw defaultPageSize maxPageSize name).mapError .badRequest)
      fun n => readInt raw defaultPageSize = some n ∧ 1 ≤ n ∧ n ≤ maxPageSize :=
  boundedDefault_checks (by decide) (by decide) raw name

theorem total_checks (raw name : GoString) :
    Checks ((boundedDefault raw defaultTotal maxTotal name).mapError .badRequest)
      fun n => readInt raw defaultTotal = some n ∧ 1 ≤ n ∧ n ≤ maxTotal :=
  boundedDefault_checks (by decide) (by decide) raw name

theorem cursorOffset_checks (r : Request) (size : ℕ) :
    Checks (cursorOffset (r.param (lit "cursor")))
      fun n => Style.cursor.offset r size = some n ∧ 0 ≤ n := by
  rw [Style.offset, cursorOffset]
  split_ifs with hc
  · exact Or.inr ⟨0, rfl, rfl, le_rfl⟩
  · split
    next hnone => exact Or.inl ⟨_, rfl⟩
    next n hn =>
      refine Or.inr ⟨n, rfl, hn, ?_⟩
      obtain ⟨raw, -, hraw⟩ := Option.bind_eq_some_iff.mp hn
      split at hraw
      next m hm =>
        split_ifs at hraw with hneg
        cases hraw
        exact not_lt.mp hneg
      next => cases hraw

/-- The shape of two numbers in their bounds. -/
theorem exists_shape {k n : ℤ} (hk : 1 ≤ k ∧ k ≤ maxPageSize) (hn : 1 ≤ n ∧ n ≤ maxTotal) :
    ∃ w : Shape, k = w.size ∧ n = w.total :=
  ⟨⟨k.toNat, n.toNat, by omega, by omega, by omega, by omega⟩, by dsimp only; omega, by dsimp only; omega⟩

theorem link_cases (value : ℤ → GoString) (r : Request) :
    Refused (link value r) ∨ ∃ w s, Asks .link r w s ∧ s < w.total := by
  refine (intDefault_checks le_rfl _ _ _).refused_or fun p hp => ?_
  refine (size_checks _ _).refused_or fun k hk => ?_
  refine (total_checks _ _).refused_or fun n hn => ?_
  obtain ⟨w, rfl, rfl⟩ := exists_shape hk.2 hn.2
  obtain ⟨i, hi⟩ := Int.eq_ofNat_of_zero_le (show 0 ≤ p - 1 by omega)
  rw [w.lastPageFor_eq]
  refine refused_ite_or fun hlast => ⟨w, i * w.size, asks_of_page hk.1 hn.1 ?_, ?_⟩
  · rw [hp.1, ← hi, Int.sub_add_cancel]
  · exact (w.page_iff i).mpr (by omega)

theorem odata_cases (value : ℤ → GoString) (r : Request) :
    Refused (odata value r) ∨ ∃ w s, Asks .odata r w s ∧ s < w.total := by
  refine (size_checks _ _).refused_or fun k hk => ?_
  refine (intDefault_checks le_rfl _ _ _).refused_or fun skip hskip => ?_
  refine (total_checks _ _).refused_or fun n hn => ?_
  obtain ⟨w, rfl, rfl⟩ := exists_shape hk.2 hn.2
  obtain ⟨s, rfl⟩ := Int.eq_ofNat_of_zero_le hskip.2
  exact refused_ite_or fun hpast => ⟨w, s, ⟨hk.1, hn.1, hskip.1⟩, by omega⟩

theorem cursor_cases (value : ℤ → GoString) (r : Request) :
    Refused (cursor value r) ∨ ∃ w s, Asks .cursor r w s ∧ s < w.total := by
  refine (size_checks _ _).refused_or fun k hk => ?_
  refine (total_checks _ _).refused_or fun n hn => ?_
  obtain ⟨w, rfl, rfl⟩ := exists_shape hk.2 hn.2
  refine (cursorOffset_checks r w.size).refused_or fun offset hoffset => ?_
  obtain ⟨s, rfl⟩ := Int.eq_ofNat_of_zero_le hoffset.2
  exact refused_ite_or fun hpast => ⟨w, s, ⟨hk.1, hn.1, hoffset.1⟩, by omega⟩

/-! ### All three styles -/

theorem Refused.map {α β : Type} {answer : Except Fault α} (h : Refused answer) (f : α → β) :
    Refused (answer.map f) := by
  obtain ⟨msg, rfl⟩ := h
  exact ⟨msg, rfl⟩

theorem serve_cases (value : ℤ → GoString) (style : Style) (r : Request) :
    Refused (style.serve value r) ∨ ∃ w s, Asks style r w s ∧ s < w.total := by
  cases style with
  | link => exact (link_cases value r).imp_left fun h => h.map _
  | odata => exact (odata_cases value r).imp_left fun h => h.map _
  | cursor => exact (cursor_cases value r).imp_left fun h => h.map _

theorem serve_of_asks (value : ℤ → GoString) {style : Style} (h : Asks style r w s) (hs : s < w.total) :
    ∃ cs, style.serve value r = .ok ⟨window value w s, cs⟩ ∧ Continues style w s cs := by
  cases style with
  | link => exact serve_link h hs
  | odata => exact serve_odata h hs
  | cursor => exact serve_cursor h hs

end Handlers

/-- A handler refuses with status 400 or answers with the window that was asked for,
which is not empty, and each of its continuations is answered with the window its
relation names. -/
theorem windows_and_continuations (value : ℤ → GoString) (style : Style) (r : Request) :
    Refused (style.serve value r) ∨
      ∃ w s page, Asks style r w s ∧ s < w.total ∧ style.serve value r = .ok page ∧
        page.items = window value w s ∧ page.items ≠ [] ∧
        ∀ c ∈ page.continuations, ∃ t page', c.1.Leads w s t ∧ Asks style c.2 w t ∧ t < w.total ∧
          style.serve value c.2 = .ok page' ∧ page'.items = window value w t := by
  obtain hrefused | ⟨w, s, hasks, hs⟩ := serve_cases value style r
  · exact Or.inl hrefused
  obtain ⟨cs, hserve, hcontinues⟩ := serve_of_asks value hasks hs
  refine Or.inr ⟨w, s, _, hasks, hs, hserve, rfl, window_ne_nil hs, ?_⟩
  intro c hc
  obtain ⟨t, hleads, hc, ht⟩ := hcontinues.leads c hc
  obtain ⟨cs', hserve', -⟩ := serve_of_asks value hc ht
  exact ⟨t, _, hleads, hc, ht, hserve', rfl⟩

end ApiTest.Endpoints.Pagination
