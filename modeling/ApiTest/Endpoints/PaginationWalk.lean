import ApiTest.Endpoints.Pagination

/-! Walking through the dataset. In each style a client starts at the front and follows
the continuation to the next window until an answer has none. The windows lie side by
side, so each walk collects the whole dataset, and the window of a page is the same in
all styles. -/

namespace ApiTest.Endpoints.Pagination

open Text Net Audit Paging

/-- All items, in the order of their ids. -/
def dataset (value : ℤ → GoString) (w : Shape) : List Item := (List.range w.total).map (item value)

theorem window_eq_slice (value : ℤ → GoString) (w : Shape) (s : ℕ) :
    window value w s = slice (dataset value w) s w.size := by
  rw [window, slice, dataset, ← List.map_drop, ← List.map_take]
  congr 1
  apply List.ext_getElem
  · rw [List.length_range', List.length_take, List.length_drop, List.length_range]
    omega
  · intro i _ _
    rw [List.getElem_range', List.getElem_take, List.getElem_drop, List.getElem_range, Nat.one_mul]

theorem flatMap_window (value : ℤ → GoString) (w : Shape) :
    ((List.range (lastIndex w.total w.size + 1)).flatMap fun i => window value w (i * w.size)) =
      dataset value w := by
  simp only [window_eq_slice, flatMap_slice]
  apply List.take_of_length_le
  rw [dataset, List.length_map, List.length_range]
  exact total_le_pages w.size_pos

/-! ### The walk -/

/-- The request a client sends after an answer. -/
def nextRequest : Except Fault Page → Option Request
  | .ok page => page.continuations.lookup .next
  | .error _ => none

/-- The answers a client gets on its way to the end; `none` if `fuel` requests were not
enough. -/
def Style.walk (value : ℤ → GoString) (style : Style) (fuel : ℕ) (r : Request) :
    Option (List (Except Fault Page)) :=
  follow (style.serve value) (fun _ answer => nextRequest answer) fuel r

section Walk
variable {value : ℤ → GoString} {style : Style} {w : Shape} {s : ℕ} {cs : List (Rel × Request)}

/-- There is a next request exactly if the dataset goes on, and it asks for the window
behind this one. -/
theorem Continues.nextRequest_cases (h : Continues style w s cs) (items : List Item) :
    if s + w.size < w.total then
      ∃ r, nextRequest (.ok ⟨items, cs⟩) = some r ∧ Asks style r w (s + w.size)
    else nextRequest (.ok ⟨items, cs⟩) = none := by
  have hasks : ∀ r, cs.lookup .next = some r → Asks style r w (s + w.size) ∧ s + w.size < w.total := by
    intro r hr
    obtain ⟨before, behind, rfl, -⟩ := List.lookup_eq_some_iff.mp hr
    obtain ⟨t, rfl, hasks, ht⟩ := h.leads (.next, r) (by simp)
    exact ⟨hasks, ht⟩
  split_ifs with hmore
  · obtain ⟨r, hr⟩ := h.next hmore
    exact ⟨r, hr, (hasks r hr).1⟩
  · rw [nextRequest, Option.eq_none_iff_forall_ne_some]
    intro r hr
    exact hmore (hasks r hr).2

/-- Answers that all are pages. -/
theorem exists_pages {ι : Type} {l : List ι} {answers : List (Except Fault Page)} {f : ι → List Item}
    (h : List.Forall₂ (fun i answer => ∃ page, answer = .ok page ∧ page.items = f i) l answers) :
    ∃ pages : List Page, answers = pages.map .ok ∧ pages.map Page.items = l.map f := by
  induction h with
  | nil => exact ⟨[], rfl, rfl⟩
  | cons hpage _ ih =>
    obtain ⟨page, rfl, hitems⟩ := hpage
    obtain ⟨pages, rfl, hpages⟩ := ih
    exact ⟨page :: pages, rfl, by rw [List.map_cons, List.map_cons, hitems, hpages]⟩

/-- From any request for the front of the dataset, a walk collects all of it. -/
theorem walk_of_asks (value : ℤ → GoString) {r : Request} (h : Asks style r w 0) :
    ∃ pages : List Page,
      (∀ fuel, lastIndex w.total w.size < fuel → style.walk value fuel r = some (pages.map .ok)) ∧
      pages.length = lastIndex w.total w.size + 1 ∧ pages.flatMap Page.items = dataset value w := by
  -- at step `i` the client asks for the window at `i * size`
  have hstep : ∀ i ≤ lastIndex w.total w.size, ∀ r, Asks style r w (i * w.size) →
      ∃ cs, style.serve value r = .ok ⟨window value w (i * w.size), cs⟩ ∧
        Continues style w (i * w.size) cs :=
    fun i hi r hr => serve_of_asks value hr ((w.page_iff i).mpr hi)
  obtain ⟨answers, hfollow, hanswers⟩ := follow_of_steps (style.serve value)
    (fun _ answer => nextRequest answer) (n := lastIndex w.total w.size)
    (fun i r => Asks style r w (i * w.size))
    (fun i answer => ∃ page, answer = .ok page ∧ page.items = window value w (i * w.size))
    (by
      intro i hi r hr
      obtain ⟨cs, hserve, -⟩ := hstep i hi r hr
      exact ⟨_, hserve, rfl⟩)
    (by
      intro i hi r hr
      obtain ⟨cs, hserve, hcs⟩ := hstep i hi.le r hr
      have hnext := hcs.nextRequest_cases (window value w (i * w.size))
      rw [← Nat.succ_mul, if_pos ((lt_lastIndex_iff w.size_pos).mp hi)] at hnext
      rw [hserve]
      exact hnext)
    (by
      intro r hr
      obtain ⟨cs, hserve, hcs⟩ := hstep _ le_rfl r hr
      have hnext := hcs.nextRequest_cases (window value w (lastIndex w.total w.size * w.size))
      rw [← Nat.succ_mul, if_neg (not_lt.mpr (total_le_pages w.size_pos))] at hnext
      rw [hserve]
      exact hnext)
    (by rwa [Nat.zero_mul])
  obtain ⟨pages, rfl, hitems⟩ := exists_pages hanswers
  refine ⟨pages, hfollow, ?_, ?_⟩
  · have hlength := congrArg List.length hitems
    rwa [List.length_map, List.length_map, List.length_range] at hlength
  · rw [List.flatMap_def, hitems, ← List.flatMap_def, flatMap_window]

end Walk

/-! ### The same pages in every style -/

/-- The parameter that says where the window starts. -/
def Style.positionKey : Style → GoString
  | .link => lit "page"
  | .odata => lit "$skip"
  | .cursor => lit "cursor"

/-- The value of that parameter for page `i`, counted from zero. -/
def Style.position (w : Shape) (i : ℕ) : Style → GoString
  | .link => itoa ((i + 1 : ℕ) : ℤ)
  | .odata => itoa ((i * w.size : ℕ) : ℤ)
  | .cursor => encodeCursor ((i * w.size : ℕ) : ℤ)

/-- A request with a position, and with page size and total as a client writes them. -/
def Style.request (style : Style) (r : Request) (w : Shape) (position : GoString) : Request :=
  { r with rawQuery := encodeQuery [(style.positionKey, [position]), (style.sizeKey, [itoa w.size]),
      (lit "total", [itoa w.total])] }

/-- The first position of a walk: page 1, `$skip=0` or no cursor. -/
def Style.front : Style → GoString
  | .link => lit "1"
  | .odata => lit "0"
  | .cursor => []

theorem param_request (style : Style) (r : Request) (w : Shape) (position : GoString) :
    (style.request r w position).param style.positionKey = position ∧
      (style.request r w position).param style.sizeKey = itoa w.size ∧
      (style.request r w position).param (lit "total") = itoa w.total := by
  have hnodup : [style.positionKey, style.sizeKey, lit "total"].Nodup := by
    cases style <;> decide
  have hparam : ∀ key, (style.request r w position).param key =
      (([(style.positionKey, [position]), (style.sizeKey, [itoa w.size]),
        (lit "total", [itoa w.total])].lookup key).getD []).headD [] := by
    intro key
    rw [← lookup_parseQuery_encodeQuery (by exact hnodup)]
    rfl
  rw [hparam, hparam, hparam]
  cases style <;> exact ⟨rfl, rfl, rfl⟩

section Requests
variable (style : Style) (r : Request) (w : Shape)

theorem readInt_request (position : GoString) :
    readInt ((style.request r w position).param style.sizeKey) defaultPageSize = some (w.size : ℤ) ∧
      readInt ((style.request r w position).param (lit "total")) defaultTotal = some (w.total : ℤ) := by
  obtain ⟨-, hsize, htotal⟩ := param_request style r w position
  have := w.size_le_maxTotal
  have := w.total_le
  rw [hsize, htotal]
  exact ⟨readInt_itoa (isInt_small (by omega) (by omega)) _,
    readInt_itoa (isInt_small (by omega) (by omega)) _⟩

theorem asks_front : Asks style (style.request r w style.front) w 0 := by
  obtain ⟨hsize, htotal⟩ := readInt_request style r w style.front
  obtain ⟨hposition, -, -⟩ := param_request style r w style.front
  refine ⟨hsize, htotal, ?_⟩
  cases style with
  | link =>
    have hpage : readInt ((Style.link.request r w Style.link.front).param (lit "page")) 1 = some 1 :=
      congrArg (readInt · 1) hposition
    rw [Style.offset, hpage]
    simp
  | odata =>
    rw [Style.positionKey] at hposition
    rw [Style.offset, hposition]
    rfl
  | cursor =>
    rw [Style.positionKey] at hposition
    rw [Style.offset, hposition]
    rfl

/-- A numeral is read if it is in the range of an `int`. -/
theorem readInt_numeral (n : ℕ) (default : ℤ) :
    readInt (itoa n) default = if n < 2 ^ 63 then some (n : ℤ) else none := by
  split_ifs with hn
  · exact readInt_itoa ⟨by omega, by omega⟩ default
  · rw [itoa_natCast, readInt, if_neg (digits_ne_nil n), atoi_digits_large (not_lt.mp hn)]

theorem decodeCursor_numeral (n : ℕ) :
    decodeCursor (encodeCursor n) = if n < 2 ^ 63 then some (n : ℤ) else none := by
  split_ifs with hn
  · exact decodeCursor_encodeCursor (by omega) ⟨by omega, by omega⟩
  · rw [decodeCursor, encodeCursor, Base64.decode_encode, Option.bind_some, itoa_natCast,
      atoi_digits_large (not_lt.mp hn)]

/-- The position of page `i` stands for the offset `i * size`, unless it is too large to
be read at all. -/
theorem offset_position (i : ℕ) :
    style.offset (style.request r w (style.position w i)) w.size = some ((i * w.size : ℕ) : ℤ) ∨
      style.offset (style.request r w (style.position w i)) w.size = none ∧ w.total ≤ i * w.size := by
  obtain ⟨hposition, -, -⟩ := param_request style r w (style.position w i)
  have hsize : i ≤ i * w.size := Nat.le_mul_of_pos_right i w.size_pos
  have htotal := w.total_le
  unfold maxTotal at htotal
  cases style with
  | link =>
    have hpage : readInt ((Style.link.request r w (Style.link.position w i)).param (lit "page")) 1 =
        if i + 1 < 2 ^ 63 then some ((i + 1 : ℕ) : ℤ) else none :=
      (congrArg (readInt · 1) hposition).trans (readInt_numeral (i + 1) 1)
    rw [Style.offset, hpage]
    split_ifs with hint
    · exact Or.inl (by simp)
    · exact Or.inr ⟨rfl, by omega⟩
  | odata =>
    have hskip : readInt ((Style.odata.request r w (Style.odata.position w i)).param (lit "$skip")) 0 =
        if i * w.size < 2 ^ 63 then some ((i * w.size : ℕ) : ℤ) else none :=
      (congrArg (readInt · 0) hposition).trans (readInt_numeral (i * w.size) 0)
    rw [Style.offset, hskip]
    split_ifs with hint
    · exact Or.inl rfl
    · exact Or.inr ⟨rfl, by omega⟩
  | cursor =>
    have hcursor : (Style.cursor.request r w (Style.cursor.position w i)).param (lit "cursor") =
        encodeCursor ((i * w.size : ℕ) : ℤ) := hposition
    rw [Style.offset, hcursor, if_neg (encodeCursor_ne_nil _), decodeCursor_numeral]
    split_ifs with hint
    · exact Or.inl rfl
    · exact Or.inr ⟨rfl, by omega⟩

/-- The items of an answer, if it is a page. -/
def itemsOf (answer : Except Fault Page) : Option (List Item) := answer.toOption.map Page.items

/-- Page `i` is the same window in every style, and a page behind the dataset is refused
in every style. -/
theorem itemsOf_position (value : ℤ → GoString) (i : ℕ) :
    itemsOf (style.serve value (style.request r w (style.position w i))) =
      if i * w.size < w.total then some (window value w (i * w.size)) else none := by
  obtain ⟨hsize, htotal⟩ := readInt_request style r w (style.position w i)
  have hoffset := offset_position style r w i
  split_ifs with hi
  · obtain hoffset | ⟨-, hlarge⟩ := hoffset
    · obtain ⟨cs, hserve, -⟩ := serve_of_asks value ⟨hsize, htotal, hoffset⟩ hi
      rw [hserve]
      rfl
    · omega
  · obtain ⟨msg, hrefused⟩ | ⟨w', s, hasks, hs⟩ :=
      serve_cases value style (style.request r w (style.position w i))
    · rw [hrefused]
      rfl
    · -- an answered request would ask for this shape and this offset
      exfalso
      have hsize' : (w'.size : ℤ) = w.size := Option.some.inj (hasks.size.symm.trans hsize)
      have htotal' : (w'.total : ℤ) = w.total := Option.some.inj (hasks.total.symm.trans htotal)
      have hs' := hasks.offset
      rw [show w'.size = w.size by omega] at hs'
      obtain hoffset | ⟨hnone, -⟩ := hoffset
      · have := Option.some.inj (hs'.symm.trans hoffset)
        omega
      · rw [hnone] at hs'
        cases hs'

end Requests

/-- The number of answers a walk takes, `⌈total / size⌉`. -/
theorem Shape.pages_eq (w : Shape) :
    lastIndex w.total w.size + 1 = (w.total + w.size - 1) / w.size := by
  have htotal := w.total_pos
  rw [lastIndex, ← Nat.add_div_right _ w.size_pos]
  congr 1
  omega

/-- The three styles enumerate one dataset: each walk takes `⌈total / size⌉` answers and
collects all items in the order of their ids, and page by page the windows agree. -/
theorem styles_enumerate (value : ℤ → GoString) (w : Shape) (r : Request) :
    (∀ style : Style, ∃ pages : List Page,
      (∀ fuel, (w.total + w.size - 1) / w.size ≤ fuel →
        style.walk value fuel (style.request r w style.front) = some (pages.map .ok)) ∧
      pages.length = (w.total + w.size - 1) / w.size ∧
      pages.flatMap Page.items = (List.range w.total).map fun i : ℕ => ⟨i, value i⟩) ∧
    (∀ (style : Style) (i : ℕ), itemsOf (style.serve value (style.request r w (style.position w i))) =
      if i * w.size < w.total then some (window value w (i * w.size)) else none) ∧
    ∀ n : ℕ, n < 2 ^ 63 → decodeCursor (encodeCursor n) = some (n : ℤ) := by
  refine ⟨fun style => ?_, fun style i => itemsOf_position style r w value i, fun n hn => ?_⟩
  · obtain ⟨pages, hwalk, hlength, hitems⟩ := walk_of_asks value (asks_front style r w)
    rw [← w.pages_eq]
    exact ⟨pages, hwalk, hlength, hitems⟩
  · rw [decodeCursor_numeral, if_pos hn]

end ApiTest.Endpoints.Pagination
