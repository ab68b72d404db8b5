import ApiTest.Configuration.Load

/-! Which configured credentials are accepted. The file keys and the bearer tokens are
walked to the end, and the name of the last match is all the walk remembers: a blank
name is taken for no match. `Validate` checks neither names nor keys, so a document may
hold entries without a name, which are never accepted and hide earlier entries with
the same key. -/

namespace ApiTest.Configuration

open Text Inbound

/-- The rows `(name, secret)` that have a secret. -/
def rowsWith (secret : GoString) (rows : List (GoString × GoString)) : List (GoString × GoString) :=
  rows.filter fun row => secret = row.2

theorem mem_rowsWith {secret : GoString} {rows : List (GoString × GoString)}
    {row : GoString × GoString} : row ∈ rowsWith secret rows ↔ row ∈ rows ∧ row.2 = secret := by
  rw [rowsWith, List.mem_filter, decide_eq_true_eq, eq_comm]

/-- The last row with the secret, if there is one, has a name. -/
def LastNamed (secret : GoString) (rows : List (GoString × GoString)) : Prop :=
  ∀ row ∈ (rowsWith secret rows).getLast?, row.1 ≠ []

instance (secret : GoString) : DecidablePred (LastNamed secret) := fun rows =>
  inferInstanceAs (Decidable (∀ row ∈ (rowsWith secret rows).getLast?, row.1 ≠ []))

theorem rowsWith_concat (secret : GoString) (rows : List (GoString × GoString))
    (row : GoString × GoString) :
    rowsWith secret (rows ++ [row]) =
      if secret = row.2 then rowsWith secret rows ++ [row] else rowsWith secret rows := by
  rw [rowsWith, List.filter_append, ← rowsWith]
  split_ifs with hrow <;> simp [hrow]

theorem matched_eq (secret : GoString) (rows : List (GoString × GoString)) :
    matched secret rows = ((rowsWith secret rows).getLast?.map Prod.fst).getD [] := by
  induction rows using List.reverseRecOn with
  | nil => rfl
  | append_singleton rows row ih =>
    rw [matched, List.foldl_concat, ← matched, ih, rowsWith_concat]
    split_ifs <;> simp

/-- The walk finds a name exactly if there is a row with the secret and the last one
has a name. -/
theorem matched_ne_nil_iff {secret : GoString} {rows : List (GoString × GoString)} :
    matched secret rows ≠ [] ↔ (∃ name, (name, secret) ∈ rows) ∧ LastNamed secret rows := by
  have hrows : (∃ name, (name, secret) ∈ rows) ↔ rowsWith secret rows ≠ [] := by
    constructor
    · rintro ⟨name, hmem⟩
      exact List.ne_nil_of_mem (mem_rowsWith.mpr ⟨hmem, rfl⟩)
    · intro hne
      obtain ⟨⟨name, key⟩, hmem⟩ := List.exists_mem_of_ne_nil _ hne
      obtain ⟨hrow, rfl⟩ := mem_rowsWith.mp hmem
      exact ⟨name, hrow⟩
  rw [matched_eq, hrows, LastNamed]
  cases hlast : (rowsWith secret rows).getLast? with
  | none => simp [List.getLast?_eq_none_iff.mp hlast]
  | some row =>
    have hne : rowsWith secret rows ≠ [] := fun hnil => by simp [hnil] at hlast
    simp [hne]

/-- A result accepts exactly the secrets of the rows, under the name of one. -/
structure AcceptsExactly (rows : List (GoString × GoString)) (secret : GoString)
    (result : Except Failure (Option Identity)) : Prop where
  succeeds : (∃ id, result = .ok id) ↔ secret ≠ [] ∧ ∃ name, (name, secret) ∈ rows
  named : ∀ id, result = .ok id → ∃ name, (name, secret) ∈ rows ∧
    id.map (·.keyName) = some name ∧ id.map (·.subject) = some name

/-- What both authenticators make of a secret: the rows are walked, and the name that
is found becomes an identity. -/
theorem acceptsExactly_iff {rows : List (GoString × GoString)} {secret : GoString}
    (missing invalid : Failure) (identity : GoString → Identity)
    (hidentity : ∀ name, (identity name).keyName = name ∧ (identity name).subject = name)
    {result : Except Failure (Option Identity)}
    (hresult : result = if secret = [] then .error missing
      else if matched secret rows = [] then .error invalid
      else .ok (some (identity (matched secret rows)))) :
    AcceptsExactly rows secret result ↔ secret = [] ∨ LastNamed secret rows := by
  rw [hresult]
  by_cases hsecret : secret = []
  · rw [if_pos hsecret]
    exact iff_of_true ⟨by simp [hsecret], by simp⟩ (Or.inl hsecret)
  · rw [if_neg hsecret, or_iff_right hsecret]
    by_cases hfound : matched secret rows = []
    · rw [if_pos hfound]
      have hnone := mt matched_ne_nil_iff.mpr (not_not.mpr hfound)
      constructor
      · -- a refused secret is of no row, so there is no last one
        intro h row hrow
        have hmem := mem_rowsWith.mp (List.mem_of_getLast? hrow)
        obtain ⟨id, hid⟩ := h.succeeds.mpr ⟨hsecret, row.1, hmem.2 ▸ hmem.1⟩
        cases hid
      · intro hlast
        have hno : ¬ ∃ name, (name, secret) ∈ rows := fun hex => hnone ⟨hex, hlast⟩
        exact ⟨by simp [hno], by simp⟩
    · rw [if_neg hfound]
      obtain ⟨hex, hlast⟩ := matched_ne_nil_iff.mp hfound
      refine iff_of_true ⟨iff_of_true ⟨_, rfl⟩ ⟨hsecret, hex⟩, fun id hid => ?_⟩ hlast
      cases hid
      exact ⟨matched secret rows, mem_of_matched hfound, congrArg some (hidentity _).1,
        congrArg some (hidentity _).2⟩

/-! ### The authenticators -/

def keyRows (keys : List FileAPIKey) : List (GoString × GoString) :=
  keys.map fun k => (k.name, k.key)

def tokenRows (tokens : List FileBearerToken) : List (GoString × GoString) :=
  tokens.map fun t => (t.name, t.token)

theorem extractBearer_append (candidate : GoString) :
    extractBearer (lit "Bearer " ++ candidate) = trimSpace candidate := by
  have hscheme : lit "Bearer " = [0x42, 0x65, 0x61, 0x72, 0x65, 0x72, 0x20] := by decide
  have hfold : equalFold (lit "Bearer ") "Bearer ".toList = true := by decide
  have htake : (lit "Bearer " ++ candidate).take 7 = lit "Bearer " := by
    rw [hscheme]
    rfl
  have hdrop : (lit "Bearer " ++ candidate).drop 7 = candidate := by
    rw [hscheme]
    rfl
  have hne : lit "Bearer " ++ candidate ≠ [] := by
    rw [hscheme]
    exact List.cons_ne_nil _ _
  have hlength : ¬ (lit "Bearer " ++ candidate).length < 7 := by
    rw [hscheme, List.length_append]
    simp
  rw [extractBearer, if_neg hne, if_neg hlength, htake, hfold, hdrop]
  rfl

/-- For every list of file keys and of bearer tokens and every candidate: each
authenticator accepts exactly the configured secrets if and only if the candidate is
blank or the last entry with it, if there is one, has a name. -/
theorem credentials_accepted_iff (keys : List FileAPIKey) (tokens : List FileBearerToken)
    (headerName queryParam candidate : GoString) (r r' : Wire)
    (hheader : r.headerGet (orDefault headerName (lit "X-API-Key")) = candidate)
    (hquery : r.query.get (orDefault queryParam (lit "api_key")) = [])
    (hbearer : r'.headerGet (lit "Authorization") = lit "Bearer " ++ candidate) :
    (AcceptsExactly (keyRows keys) (trimSpace candidate)
        (newAPIKey (newFileAPIKeyStore keys) headerName queryParam r) ↔
      trimSpace candidate = [] ∨ LastNamed (trimSpace candidate) (keyRows keys)) ∧
    (AcceptsExactly (tokenRows tokens) (trimSpace candidate) (newBearer tokens r') ↔
      trimSpace candidate = [] ∨ LastNamed (trimSpace candidate) (tokenRows tokens)) := by
  constructor
  · have hkey : keyCandidate (orDefault headerName (lit "X-API-Key"))
        (orDefault queryParam (lit "api_key")) r = trimSpace candidate := by
      simp only [keyCandidate, hheader, hquery, trimSpace_nil]
      split_ifs with hblank
      · exact hblank.symm
      · rfl
    refine acceptsExactly_iff errNoCredential errInvalidCredential keyIdentity
      (fun name => ⟨rfl, rfl⟩) ?_
    simp only [newAPIKey, apiKeyAuthenticate, hkey, newFileAPIKeyStore, FileAPIKey.lookup, keyRows]
    by_cases hblank : trimSpace candidate = []
    · simp only [if_pos hblank]
    · by_cases hmiss : matched (trimSpace candidate) (keys.map fun k => (k.name, k.key)) = []
      · simp only [if_neg hblank, if_pos hmiss, Except.map]
        exact (if_pos hmiss).symm
      · simp only [if_neg hblank, if_neg hmiss, Except.map]
        exact (if_neg hmiss).symm
  · have htoken : r'.bearer = trimSpace candidate := by
      rw [Wire.bearer, hbearer, extractBearer_append]
    refine acceptsExactly_iff errNoCredential errInvalidCredential bearerIdentity
      (fun name => ⟨rfl, rfl⟩) ?_
    simp only [newBearer, htoken]
    rfl

/-- A request with one header. -/
def withHeader (name value : GoString) : Wire := { header := [(canonicalMIMEHeaderKey name, [value])] }

/-- A key that is configured twice under two names. -/
theorem renamed_key_accepted :
    let keys : List FileAPIKey := [⟨lit "old", lit "k"⟩, ⟨lit "new", lit "k"⟩]
    let r := withHeader (lit "X-API-Key") (lit " k ")
    let r' := withHeader (lit "Authorization") (lit "Bearer " ++ lit " k ")
    r.headerGet (orDefault [] (lit "X-API-Key")) = lit " k " ∧
    r.query.get (orDefault [] (lit "api_key")) = [] ∧
    r'.headerGet (lit "Authorization") = lit "Bearer " ++ lit " k " ∧
    AcceptsExactly (keyRows keys) (trimSpace (lit " k "))
      (newAPIKey (newFileAPIKeyStore keys) [] [] r) := by
  intro keys r r'
  have hheader : r.headerGet (orDefault [] (lit "X-API-Key")) = lit " k " := by decide
  have hbearer : r'.headerGet (lit "Authorization") = lit "Bearer " ++ lit " k " := by decide
  have haccepted := (credentials_accepted_iff keys [] [] [] (lit " k ") r r' hheader rfl hbearer).1
  exact ⟨hheader, rfl, hbearer, haccepted.mpr (Or.inr (by decide))⟩

/-- A document that `Validate` admits: its one key has a name, and a second entry with
the same key has none. The key is refused, and so is a lone bearer token without a
name. -/
theorem nameless_entry_refused :
    let keys : List FileAPIKey := [⟨lit "ci", lit "k"⟩, ⟨[], lit "k"⟩]
    let tokens : List FileBearerToken := [⟨[], lit "t"⟩]
    let doc : Config := { apiKeys := { file := keys }, bearerTokens := tokens }
    let keyed := newAPIKey (newFileAPIKeyStore keys) [] [] (withHeader (lit "X-API-Key") (lit "k"))
    let held := newBearer tokens (withHeader (lit "Authorization") (lit "Bearer t"))
    doc.validate [] = .ok () ∧ keyed = .error errInvalidCredential ∧
      held = .error errInvalidCredential ∧ ¬ AcceptsExactly (keyRows keys) (lit "k") keyed ∧
      ¬ AcceptsExactly (tokenRows tokens) (lit "t") held := by
  intro keys tokens doc keyed held
  have hkeyed : keyed = .error errInvalidCredential := by rfl
  have hheld : held = .error errInvalidCredential := by rfl
  refine ⟨by rfl, hkeyed, hheld, fun h => ?_, fun h => ?_⟩
  · obtain ⟨id, hid⟩ := h.succeeds.mpr ⟨by decide, lit "ci", by decide⟩
    rw [hkeyed] at hid
    cases hid
  · obtain ⟨id, hid⟩ := h.succeeds.mpr ⟨by decide, [], by decide⟩
    rw [hheld] at hid
    cases hid

end ApiTest.Configuration
