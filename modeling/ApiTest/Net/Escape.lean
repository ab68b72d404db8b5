import ApiTest.Text.GoString

/-! Percent-encoding in URL paths. `unescape` is `url.PathUnescape`: it decodes
`%XX` and fails on a `%` that is not followed by two hexadecimal digits. A slash
is neither a hexadecimal digit nor the start of an escape, so decoding a path and
decoding its parts one by one give the same bytes; the two only differ in where
the parts end. -/

namespace ApiTest.Net

open ApiTest.Text

def slash : UInt8 := 0x2F
def percent : UInt8 := 0x25

/-- The value of a hexadecimal digit of either case. -/
def hexValue (c : UInt8) : Option UInt8 :=
  if 0x30 ≤ c ∧ c ≤ 0x39 then some (c - 0x30)
  else if 0x61 ≤ c ∧ c ≤ 0x66 then some (c - 0x61 + 10)
  else if 0x41 ≤ c ∧ c ≤ 0x46 then some (c - 0x41 + 10)
  else none

@[simp] theorem hexValue_slash : hexValue slash = none := rfl

/-- `url.PathUnescape`; `none` is its error. -/
def unescape : GoString → Option GoString
  | [] => some []
  | [c] => if c = percent then none else some [c]
  | [c, x] => if c = percent then none else (unescape [x]).map (c :: ·)
  | c :: x :: y :: rest =>
    if c = percent then
      match hexValue x, hexValue y with
      | some high, some low => (unescape rest).map ((high * 16 + low) :: ·)
      | _, _ => none
    else (unescape (x :: y :: rest)).map (c :: ·)

@[simp] theorem unescape_nil : unescape [] = some [] := rfl

/-- A byte other than `%` stands for itself. -/
theorem unescape_cons {c : UInt8} (hc : c ≠ percent) (s : GoString) :
    unescape (c :: s) = (unescape s).map (c :: ·) := by
  match s with
  | [] => simp [unescape, hc]
  | [x] => simp only [unescape, if_neg hc]
  | x :: y :: rest => rw [unescape, if_neg hc]

theorem unescape_escape (x y : UInt8) (rest : GoString) :
    unescape (percent :: x :: y :: rest) =
      match hexValue x, hexValue y with
      | some high, some low => (unescape rest).map ((high * 16 + low) :: ·)
      | _, _ => none := by
  rw [unescape, if_pos rfl]

/-- Decoding never makes a byte sequence empty. -/
theorem eq_nil_of_unescape_eq_nil {s : GoString} (h : unescape s = some []) : s = [] := by
  match s with
  | [] => rfl
  | c :: s =>
    by_cases hc : c = percent
    · subst hc
      match s with
      | [] => simp [unescape] at h
      | [x] => simp [unescape] at h
      | x :: y :: rest =>
        rw [unescape_escape] at h
        split at h <;> simp at h
    · simp [unescape_cons hc] at h

/-- Without a `%` there is nothing to decode. -/
theorem unescape_of_not_mem {s : GoString} (h : percent ∉ s) : unescape s = some s := by
  induction s with
  | nil => rfl
  | cons c s ih =>
    simp only [List.mem_cons, not_or] at h
    rw [unescape_cons (Ne.symm h.1), ih h.2, Option.map_some]

/-- A byte that stands for itself leaves the comparison of the lengths as it is. -/
theorem length_cons_of_unescape {c : UInt8} (hc : c ≠ percent) {s t : GoString}
    (h : t.length ≤ s.length ∧ (percent ∈ s → t.length < s.length)) :
    (c :: t).length ≤ (c :: s).length ∧ (percent ∈ c :: s → (c :: t).length < (c :: s).length) := by
  refine ⟨Nat.succ_le_succ h.1, fun hmem => Nat.succ_lt_succ (h.2 ?_)⟩
  exact (List.mem_cons.mp hmem).resolve_left (Ne.symm hc)

/-- Decoding makes a byte sequence shorter, unless there is nothing to decode. -/
theorem length_of_unescape {s t : GoString} (h : unescape s = some t) :
    t.length ≤ s.length ∧ (percent ∈ s → t.length < s.length) := by
  fun_induction unescape s generalizing t with
  | case1 =>
    cases h
    simp
  | case2 => cases h
  | case3 c hc =>
    cases h
    simp [Ne.symm hc]
  | case4 x => cases h
  | case5 c x hc ih =>
    obtain ⟨t', ht', rfl⟩ := Option.map_eq_some_iff.mp h
    exact length_cons_of_unescape hc (ih ht')
  | case6 x y rest high low hx hy ih =>
    obtain ⟨t', ht', rfl⟩ := Option.map_eq_some_iff.mp h
    have := (ih ht').1
    simp only [List.length_cons]
    omega
  | case7 x y rest hxy => cases h
  | case8 c x y rest hc ih =>
    obtain ⟨t', ht', rfl⟩ := Option.map_eq_some_iff.mp h
    exact length_cons_of_unescape hc (ih ht')

/-- A slash ends every escape before it. -/
theorem unescape_append_slash (s t : GoString) :
    unescape (s ++ slash :: t) =
      (unescape s).bind fun a => (unescape t).map fun b => a ++ slash :: b := by
  -- the recursion of `unescape` on the part before the slash
  fun_induction unescape s with
  | case1 => simp [unescape_cons (show slash ≠ percent by decide)]
  | case2 =>
    -- a lone `%`: its first digit would be the slash
    match t with
    | [] => rfl
    | y :: rest => simp [unescape_escape]
  | case3 c hc =>
    simp [unescape_cons hc, unescape_cons (show slash ≠ percent by decide), Function.comp_def]
  | case4 x => simp [unescape_escape, List.cons_append]
  | case5 c x hc ih =>
    rw [List.cons_append, unescape_cons hc, ih]
    cases unescape [x] <;> simp [Function.comp_def]
  | case6 x y rest high low hx hy ih =>
    simp only [List.cons_append, unescape_escape, hx, hy, ih]
    cases unescape rest <;> simp [Function.comp_def]
  | case7 x y rest hxy =>
    simp only [List.cons_append, unescape_escape]
    rfl
  | case8 c x y rest hc ih =>
    rw [List.cons_append, unescape_cons hc, ih]
    cases unescape (x :: y :: rest) <;> simp [Function.comp_def]

/-- The parts of a decodable path decode one by one, and the decoded path is
the decoded parts put together again. -/
theorem unescape_intercalate {parts : List GoString} (hne : parts ≠ []) {s : GoString}
    (h : unescape ([slash].intercalate parts) = some s) :
    ∃ decoded, parts.map unescape = decoded.map some ∧ s = [slash].intercalate decoded := by
  induction parts generalizing s with
  | nil => exact absurd rfl hne
  | cons part rest ih =>
    match rest with
    | [] => exact ⟨[s], by simpa using h, by simp⟩
    | next :: rest =>
      rw [List.intercalate_cons_cons, List.append_assoc, List.singleton_append,
        unescape_append_slash] at h
      simp only [Option.bind_eq_some_iff, Option.map_eq_some_iff] at h
      obtain ⟨a, ha, b, hb, rfl⟩ := h
      obtain ⟨decoded, hdecoded, rfl⟩ := ih (by simp) hb
      refine ⟨a :: decoded, by simp [ha, hdecoded], ?_⟩
      match decoded with
      | [] => simp at hdecoded
      | d :: ds => simp

/-- The lenient form `net/http` uses on single segments: bytes that do not
decode stay as they are. -/
def pathUnescape (s : GoString) : GoString := (unescape s).getD s

theorem pathUnescape_of_not_mem {s : GoString} (h : percent ∉ s) : pathUnescape s = s := by
  rw [pathUnescape, unescape_of_not_mem h, Option.getD_some]

theorem pathUnescape_of_unescape {s t : GoString} (h : unescape s = some t) :
    pathUnescape s = t := by
  rw [pathUnescape, h, Option.getD_some]

theorem pathUnescape_ne_nil {s : GoString} (h : s ≠ []) : pathUnescape s ≠ [] := by
  unfold pathUnescape
  cases hs : unescape s with
  | none => exact h
  | some t =>
    rintro rfl
    exact h (eq_nil_of_unescape_eq_nil hs)

example : pathUnescape (lit "a%2Fb%zz") = lit "a%2Fb%zz" := by decide

/-- Splitting a path at its slashes before or after decoding gives the same
parts, as long as no part hides a slash of its own. -/
theorem splitOn_of_unescape {escaped path : GoString} (h : unescape escaped = some path)
    (hslash : ∀ part ∈ escaped.splitOn slash, slash ∉ pathUnescape part) :
    path.splitOn slash = (escaped.splitOn slash).map pathUnescape := by
  have hsplit : [slash].intercalate (escaped.splitOn slash) = escaped :=
    List.intercalate_splitOn slash
  rw [← hsplit] at h
  obtain ⟨decoded, hdecoded, rfl⟩ := unescape_intercalate (List.splitOn_ne_nil slash escaped) h
  have hmap : (escaped.splitOn slash).map pathUnescape = decoded := by
    have := congrArg (List.map fun o => o.getD []) hdecoded
    simp only [List.map_map, Function.comp_def, Option.getD_some, List.map_id'] at this
    rw [← this]
    apply List.map_congr_left
    intro part hpart
    have hsome : unescape part ∈ decoded.map some := hdecoded ▸ List.mem_map_of_mem hpart
    obtain ⟨d, -, hd⟩ := List.mem_map.mp hsome
    rw [pathUnescape_of_unescape hd.symm, ← hd, Option.getD_some]
  rw [hmap]
  apply List.splitOn_intercalate
  · intro d hd
    rw [← hmap] at hd
    obtain ⟨part, hpart, rfl⟩ := List.mem_map.mp hd
    exact hslash part hpart
  · rintro rfl
    exact List.splitOn_ne_nil slash escaped (List.map_eq_nil_iff.mp hmap)

end ApiTest.Net
