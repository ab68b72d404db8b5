import ApiTest.Audit.Event
import ApiTest.Net.Query
import ApiTest.Text.KeywordValue

/-! The database URL on the portal's configuration page (`redactDatabaseURL`). A
connection string that is no URL is replaced as a whole if an expression finds a
password keyword in it. The expression wants the keyword at the start or behind a
separator; the driver also takes one that is glued to the closing quote of the
value before it. -/

namespace ApiTest.Portal

open Text Audit Net KeywordValue

/-! ### The expression -/

/-- What follows the given characters at the front of a string, in any case. -/
def dropFold : List Char → GoString → Option GoString
  | [], s => some s
  | _ :: _, [] => none
  | t :: ts, b :: s =>
    let (c, width) := decodeRune (b :: s)
    if foldsTo c t then dropFold ts ((b :: s).drop width) else none

/-- Separators and an equals sign. -/
def assigns (s : GoString) : Bool := (s.dropWhile isSep).head? == some equalsSign

/-- The string begins with `(ssl)?password`, separators and an equals sign. -/
def keywordAt (s : GoString) : Bool :=
  (dropFold "sslpassword".toList s).any assigns || (dropFold "password".toList s).any assigns

/-- The search for a keyword; `free` says whether it may stand right here. -/
def searchKeyword : Bool → GoString → Bool
  | _, [] => false
  | free, c :: s => (free && keywordAt (c :: s)) || searchKeyword (isSep c) s

/-- `dsnPasswordKeywordRE.MatchString`. -/
def dsnPasswordKeywordRE (s : GoString) : Bool := searchKeyword true s

section
variable [HostSyntax]

/-- The string parses as a URL with the scheme of Postgres. -/
def postgresURL (s : GoString) : Option URL :=
  (parse s).filter fun u => u.scheme ≠ [] &&
    (equalFold u.scheme "postgres".toList || equalFold u.scheme "postgresql".toList)

/-- `redactDatabaseURL`. -/
def redactDatabaseURL (s : GoString) : GoString :=
  if s = [] then []
  else match postgresURL s with
    | some u =>
      let q := parseQuery u.rawQuery
      if (q.lookup (lit "password")).isSome then redacted
      else if (q.lookup (lit "sslpassword")).isSome then redacted
      else u.redacted
    | none => if dsnPasswordKeywordRE s then redacted else s

end

/-! ### What it finds -/

/-- A password keyword stands at the start of the string or behind a separator. -/
def ShowsKeyword (s : GoString) : Prop :=
  ∃ pre rest, s = pre ++ rest ∧ (pre = [] ∨ EndsSep pre) ∧ keywordAt rest = true

theorem searchKeyword_iff (free : Bool) (s : GoString) :
    searchKeyword free s = true ↔
      ∃ pre rest, s = pre ++ rest ∧ ((pre = [] ∧ free = true) ∨ EndsSep pre) ∧
        keywordAt rest = true := by
  induction s generalizing free with
  | nil =>
    simp only [searchKeyword, Bool.false_eq_true, false_iff]
    rintro ⟨pre, rest, hs, -, hkey⟩
    rw [(List.append_eq_nil_iff.mp hs.symm).2] at hkey
    cases hkey
  | cons c s ih =>
    rw [searchKeyword, Bool.or_eq_true, Bool.and_eq_true, ih]
    constructor
    · rintro (⟨hfree, hkey⟩ | ⟨pre, rest, rfl, hpre, hkey⟩)
      · exact ⟨[], c :: s, rfl, Or.inl ⟨rfl, hfree⟩, hkey⟩
      · refine ⟨c :: pre, rest, rfl, Or.inr ?_, hkey⟩
        obtain ⟨rfl, hc⟩ | hsep := hpre
        · exact ⟨[], c, rfl, hc⟩
        · exact EndsSep.append [c] hsep
    · rintro ⟨pre, rest, hs, hpre, hkey⟩
      cases pre with
      | nil =>
        obtain ⟨-, hfree⟩ | ⟨t, d, ht, -⟩ := hpre
        · exact Or.inl ⟨hfree, by rw [hs]; exact hkey⟩
        · simp at ht
      | cons d pre =>
        obtain ⟨rfl, rfl⟩ := List.cons.inj hs
        refine Or.inr ⟨pre, rest, rfl, ?_, hkey⟩
        obtain ⟨hnil, -⟩ | ⟨t, d, ht, hd⟩ := hpre
        · cases hnil
        · cases t with
          | nil =>
            obtain ⟨rfl, rfl⟩ := List.cons.inj ht
            exact Or.inl ⟨rfl, hd⟩
          | cons x t => exact Or.inr ⟨t, d, (List.cons.inj ht).2, hd⟩

theorem dsnPasswordKeywordRE_iff (s : GoString) :
    dsnPasswordKeywordRE s = true ↔ ShowsKeyword s := by
  rw [dsnPasswordKeywordRE, searchKeyword_iff]
  simp [ShowsKeyword]

/-- The characters themselves are found at the front. -/
theorem dropFold_self {word : List Char} (h : ∀ t ∈ word, t.toNat < 0x80) (s : GoString) :
    dropFold word (word.map (·.toNat.toUInt8) ++ s) = some s := by
  induction word with
  | nil => rfl
  | cons t word ih =>
    rw [List.forall_mem_cons] at h
    have hbyte : t.toNat.toUInt8.toNat = t.toNat := UInt8.toNat_ofNat_of_lt' (show t.toNat < 256 by omega)
    have hascii : t.toNat.toUInt8.toNat < 0x80 := by omega
    rw [List.map_cons, List.cons_append, dropFold, decodeRune_ascii hascii, hbyte,
      Char.ofNat_toNat]
    simp only [foldsTo, beq_self_eq_true, Bool.true_or, if_true, List.drop_succ_cons,
      List.drop_zero]
    exact ih h.2

/-- The names of the settings that hold a password. -/
def passwordNames : List GoString := [lit "password", lit "sslpassword"]

/-- A key with the name of a password, and its equals sign. -/
theorem keywordAt_of_name {name trail post : GoString} (hname : name ∈ passwordNames)
    (htrail : ∀ c ∈ trail, isSep c = true) :
    keywordAt (name ++ trail ++ equalsSign :: post) = true := by
  have hassigns : assigns (trail ++ equalsSign :: post) = true := by
    rw [assigns, List.dropWhile_append_of_pos htrail]
    rfl
  have hword (word : List Char) (h : word.all (fun t => decide (t.toNat < 0x80)) = true) :
      (dropFold word (word.map (·.toNat.toUInt8) ++ (trail ++ equalsSign :: post))).any assigns =
        true := by
    simp only [List.all_eq_true, decide_eq_true_eq] at h
    rw [dropFold_self h, Option.any_some, hassigns]
  rw [keywordAt, Bool.or_eq_true, List.append_assoc]
  simp only [passwordNames, List.mem_cons, List.not_mem_nil, or_false] at hname
  obtain rfl | rfl := hname
  · exact Or.inr (hword "password".toList (by decide))
  · exact Or.inl (hword "sslpassword".toList (by decide))

/-- A password setting is found unless its key is glued to a quote. -/
theorem showsKeyword_of_mem {s : GoString} {entries : List Setting}
    (h : settings s = some entries) {e : Setting} (he : e ∈ entries)
    (hname : e.name ∈ passwordNames) (hfree : e.glued = false ∨ e.key.head?.any isSep = true) :
    ShowsKeyword s := by
  obtain ⟨pre, post, hs, hpre⟩ := mem_settingsFrom h he
  obtain ⟨trail, hkey, htrail⟩ := eq_trimSep e.key
  refine ⟨pre ++ e.key.takeWhile isSep, e.name ++ trail ++ equalsSign :: post, ?_, ?_,
    keywordAt_of_name hname htrail⟩
  · refine hs.trans ?_
    conv_lhs => rw [hkey]
    simp [Setting.name]
  · by_cases hlead : e.key.takeWhile isSep = []
    · have hglued : e.glued = false := by
        refine hfree.resolve_right fun hsep => ?_
        cases hk : e.key with
        | nil => simp [hk] at hsep
        | cons c key =>
          rw [hk] at hsep hlead
          rw [List.takeWhile_cons_of_pos (by simpa using hsep)] at hlead
          cases hlead
      rw [hlead, List.append_nil]
      exact (hpre hglued).imp_left And.left
    · exact Or.inr (EndsSep.append pre (endsSep_takeWhile hlead))

/-- A connection string that is no URL of Postgres and holds a password is
redacted if and only if a password keyword stands at its start or behind a
separator; where none does, every password setting is glued to a quote. -/
theorem redactDatabaseURL_iff [HostSyntax] (s : GoString) (hurl : postgresURL s = none)
    (entries : List Setting) (h : settings s = some entries)
    (hpassword : ∃ name ∈ passwordNames, get entries name ≠ []) :
    (redactDatabaseURL s = redacted ↔ ShowsKeyword s) ∧
    (¬ ShowsKeyword s → ∀ e ∈ entries, e.name ∈ passwordNames →
      e.glued = true ∧ e.key.head?.any isSep = false) := by
  refine ⟨?_, ?_⟩
  · have hne : s ≠ redacted := by
      rintro rfl
      rw [show settings redacted = none by decide] at h
      cases h
    have hnil : s ≠ [] := by
      rintro rfl
      cases h
      obtain ⟨name, -, hvalue⟩ := hpassword
      exact hvalue rfl
    rw [redactDatabaseURL, if_neg hnil, hurl, ← dsnPasswordKeywordRE_iff]
    dsimp only
    split_ifs with hmatch
    · simp [hmatch]
    · simp [hmatch, hne]
  · intro hnot e he hname
    by_contra hfree
    refine hnot (showsKeyword_of_mem h he hname ?_)
    rw [not_and_or, Bool.not_eq_true, Bool.not_eq_false] at hfree
    exact hfree

/-- A password behind a separator is redacted. -/
theorem spaced_password_redacted :
    @redactDatabaseURL noHosts (lit "host='db' password=hunter2") = redacted := by
  have hurl : @postgresURL noHosts (lit "host='db' password=hunter2") = none := by
    rw [lit_ofList]
    decide +kernel
  have hget : (settings (lit "host='db' password=hunter2")).map (get · (lit "password")) =
      some (lit "hunter2") := by
    repeat rw [lit_ofList]
    decide +kernel
  obtain ⟨entries, hsettings, hvalue⟩ := Option.map_eq_some_iff.mp hget
  have hpassword : get entries (lit "password") ≠ [] := by
    rw [hvalue]
    decide
  refine ((@redactDatabaseURL_iff noHosts _ hurl entries hsettings
    ⟨lit "password", by decide, hpassword⟩).1).mpr ?_
  exact ⟨lit "host='db' ", lit "password=hunter2", by decide, Or.inr ⟨lit "host='db'", 0x20,
    by decide, by decide⟩, by decide⟩

/-- Glued to the quote of the host, the driver takes the password and the page
shows it. -/
theorem glued_password_shown :
    @postgresURL noHosts (lit "host='db'password=hunter2") = none ∧
    (settings (lit "host='db'password=hunter2")).map (get · (lit "password")) =
      some (lit "hunter2") ∧
    @redactDatabaseURL noHosts (lit "host='db'password=hunter2") =
      lit "host='db'password=hunter2" := by
  repeat rw [lit_ofList]
  refine ⟨?_, ?_, ?_⟩ <;> decide +kernel

end ApiTest.Portal
