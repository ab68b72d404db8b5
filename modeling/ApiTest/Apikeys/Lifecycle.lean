import ApiTest.Apikeys.Answers
import ApiTest.Inbound.FailClosed

/-! The life of a key, from `Create` to `Delete`, as a caller of the inbound chain sees it.
A key works from its creation until it is deleted or expires, and an accepted candidate
always matches the hash of a key that the store has minted. -/

namespace ApiTest.Apikeys

open Text Audit Relational Transition

section
variable [Bcrypt]

/-! ### Where the rows come from -/

variable {n : ℕ} {s t : State} {as : List Action}

/-- A row was there at the start of a run, or some `Create` of the run has minted it. -/
theorem row_of_run (h : run (step n) s as = some t) : ∀ r ∈ t.table.rows,
    (∃ r₀ ∈ s.table.rows, r₀.SameKey r) ∨
      ∃ m k buf r₀, .create m k ∈ as ∧ Mints m k buf r₀ ∧ r₀.SameKey r := by
  refine run_history (fun as t => ∀ r ∈ t.table.rows, (∃ r₀ ∈ s.table.rows, r₀.SameKey r) ∨
    ∃ m k buf r₀, .create m k ∈ as ∧ Mints m k buf r₀ ∧ r₀.SameKey r) ?_ ?_ h
  · intro r hr
    exact .inl ⟨r, hr, .refl r⟩
  · intro xs t a u _ hrows hstep r hr
    rcases row_of_step hstep hr with ⟨r₁, hr₁, hsame⟩ | ⟨m, k, buf, rfl, hmints⟩
    · rcases hrows r₁ hr₁ with ⟨r₀, hr₀, hsame₀⟩ | ⟨m, k, buf, r₀, hmem, hmints, hsame₀⟩
      · exact .inl ⟨r₀, hr₀, hsame₀.trans hsame⟩
      · exact .inr ⟨m, k, buf, r₀, List.mem_append_left _ hmem, hmints, hsame₀.trans hsame⟩
    · exact .inr ⟨m, k, buf, r, by simp, hmints, .refl r⟩

theorem live_of_sameKey {m : Mint} {k : NewKey} {buf : List.Vector UInt8 32} {r₀ r : Row} {now : ℤ}
    (hmints : Mints m k buf r₀) (h : r₀.SameKey r) :
    r.live now = true ↔ ∀ e ∈ k.expiresAt, now < e / 1000 := by
  obtain ⟨-, hash, -, rfl⟩ := hmints
  have hexpires : r.expiresAt = k.expiresAt.map (· / 1000) := (congrArg Row.expiresAt h :)
  rw [Row.live, hexpires]
  cases k.expiresAt <;> simp

theorem name_of_sameKey {m : Mint} {k : NewKey} {buf : List.Vector UInt8 32} {r₀ r : Row}
    (hmints : Mints m k buf r₀) (h : r₀.SameKey r) : r.name = k.name := by
  obtain ⟨-, hash, -, rfl⟩ := hmints
  exact (congrArg Row.name h :)

/-- The plaintext of a key matches its row. -/
theorem match_of_sameKey {m : Mint} {k : NewKey} {buf : List.Vector UInt8 32} {r₀ r : Row}
    (hmints : Mints m k buf r₀) (h : r₀.SameKey r) :
    compareHashAndPassword r.hash (generatePlaintext buf) = true := by
  obtain ⟨-, hash, hhash, rfl⟩ := hmints
  rw [h]
  exact Bcrypt.compare_generate hhash

/-- A key that `Authenticate` returns was minted by a `Create` before the SELECT, it had not
expired then, and the candidate matches the hash that was made of its plaintext. -/
theorem found_key_minted (n : ℕ) (s : State) (hs : s.table.rows = []) (as : List Action)
    (t : State) (h : run (step n) s as = some t) (i : ℕ) (hi : s.calls.length ≤ i)
    (candidate : GoString) (key : Key)
    (hc : t.calls[i]? = some ⟨candidate, .returned (.ok key)⟩) :
    ∃ xs rows ys u m k buf hash, as = xs ++ .select i rows :: ys ∧ run (step n) s xs = some u ∧
      .create m k ∈ xs ∧ m.buf = some buf ∧
      generateFromPassword m.salt (generatePlaintext buf) = some hash ∧
      compareHashAndPassword hash candidate = true ∧
      key.id = m.id ∧ key.name = k.name ∧ key.description = k.description ∧
      key.createdBy = k.createdBy ∧ ∀ expires ∈ k.expiresAt, u.now < expires / 1000 := by
  cases (traced_of_run h).2 i _ hi hc with
  | @answered u _ hselect hanswer =>
    obtain ⟨xs, rows, ys, has, hu⟩ := hselect
    cases hanswer with
    | @found r hr hlive hmatch =>
      rcases row_of_run hu r hr with ⟨r₀, hr₀, -⟩ | ⟨m, k, buf, r₀, hmem, hmints, hsame⟩
      · simp [hs] at hr₀
      · have hexpires := (live_of_sameKey hmints hsame).mp hlive
        obtain ⟨hbuf, hash, hhash, rfl⟩ := hmints
        rw [hsame] at hmatch ⊢
        exact ⟨xs, rows, ys, u, m, k, buf, hash, has, hu, hmem, hbuf, hhash, hmatch,
          rfl, rfl, rfl, rfl, hexpires⟩

/-! ### From creation to deletion -/

/-- The row of a key is in the table. -/
def State.Has (s : State) (row : Row) : Prop := ∃ r ∈ s.table.rows, row.SameKey r

/-- A row stays until its name is deleted. -/
theorem has_of_run {row : Row} (h : run (step n) s as = some t)
    (hkept : ∀ a ∈ as, a ≠ .delete row.name) (hs : s.Has row) : t.Has row := by
  refine run_invariant_of_forall (fun t => t.Has row) (· ≠ .delete row.name) ?_ h hkept hs
  rintro u a v hguard ⟨r, hr, hsame⟩ hstep
  rcases (moves_of_step hstep).table with htable | hchange
  · exact ⟨r, htable ▸ hr, hsame⟩
  · unfold State.Has
    generalize v.table = t' at hchange
    cases hchange with
    | create hfree hcreate =>
      obtain ⟨-, buf, hash, -, -, -, hinsert, -⟩ := create_eq_ok hcreate
      rw [rows_of_insertKey hinsert]
      exact ⟨r, List.mem_append_left _ hr, hsame⟩
    | @delete name hfree =>
      refine ⟨r, UniqueTable.mem_delete.mpr ⟨hr, ?_⟩, hsame⟩
      have hname : r.name = row.name := (congrArg Row.name hsame :)
      simp only [hname, decide_eq_false_iff_not]
      exact fun h => hguard (h ▸ rfl)
    | touch hfree hc hphase =>
      refine ⟨_, UniqueTable.mem_update.mpr ⟨r, hr, rfl⟩, hsame.trans ?_⟩
      split_ifs
      · rfl
      · exact .refl r

/-- The rows with the id of a row are that row, as long as the id is not drawn again. -/
theorem only_of_run (row : Row) (h : run (step n) s as = some t)
    (hfresh : ∀ m k, .create m k ∈ as → m.id ≠ row.id)
    (hs : ∀ r ∈ s.table.rows, r.id = row.id → row.SameKey r) :
    ∀ r ∈ t.table.rows, r.id = row.id → row.SameKey r := by
  refine run_invariant_of_forall (fun t => ∀ r ∈ t.table.rows, r.id = row.id → row.SameKey r)
    (fun a => ∀ m k, a = .create m k → m.id ≠ row.id) ?_ h
    (fun a ha m k hcreate => hfresh m k (hcreate ▸ ha)) hs
  intro u a v hguard hu hstep r hr hid
  rcases row_of_step hstep hr with ⟨r₀, hr₀, hsame⟩ | ⟨m, k, buf, rfl, hmints⟩
  · exact (hu r₀ hr₀ (hsame.id_eq ▸ hid)).trans hsame
  · exact absurd (hmints.id_eq.symm.trans hid) (hguard m k rfl)

/-- Once its name is deleted, a row is gone. -/
theorem absent_of_deleted (row : Row) (h : run (step n) s as = some t)
    (hfresh : ∀ m k, .create m k ∈ as → m.id ≠ row.id)
    (hs : ∀ r ∈ s.table.rows, r.id = row.id → row.SameKey r) (hmem : .delete row.name ∈ as) :
    ∀ r ∈ t.table.rows, r.id ≠ row.id := by
  obtain ⟨before, behind, rfl⟩ := List.append_of_mem hmem
  obtain ⟨u, hu, hrest⟩ := run_append.mp h
  obtain ⟨v, hv, hbehind⟩ := run_cons.mp hrest
  have honly := only_of_run row hu (fun m k hm => hfresh m k (List.mem_append_left _ hm)) hs
  have hgone : ∀ r ∈ v.table.rows, r.id ≠ row.id := by
    intro r hr hid
    rcases (row_of_step hv hr) with ⟨r₀, hr₀, hsame⟩ | ⟨_, _, _, hdelete, -⟩
    · have hname : r₀.name = row.name :=
        (congrArg Row.name (honly r₀ hr₀ (hsame.id_eq ▸ hid)) :)
      exact id_absent_of_delete hr₀ (hname ▸ hv) r hr hsame.id_eq
    · cases hdelete
  refine id_absent_of_run hbehind (fun m k hm => hfresh m k ?_) hgone
  exact List.mem_append_right _ (List.mem_cons_of_mem _ hm)

theorem step_create {m : Mint} {k : NewKey} {table : KeyTable} {created : Created}
    (hfree : s.busy < n) (h : create s.table m k = .ok (table, created)) :
    step n s (.create m k) = some { s with table } := by
  rw [step, if_neg (fun hfull => by omega), h]

/-- The rows that a successful `Create` leaves. -/
theorem rows_of_create {u v : State} {m : Mint} {k : NewKey} {created : Created}
    (hcreate : create u.table m k = .ok (v.table, created)) :
    ∃ buf row, Mints m k buf row ∧ created.plaintext = generatePlaintext buf ∧ v.Has row ∧
      ∀ r ∈ v.table.rows, r.id = row.id → row.SameKey r := by
  obtain ⟨-, buf, hash, hbuf, hplaintext, hhash, hinsert, -⟩ := create_eq_ok hcreate
  have hmem : k.row m hash ∈ v.table.rows := by
    rw [rows_of_insertKey hinsert]
    exact List.mem_append_right _ List.mem_cons_self
  refine ⟨buf, k.row m hash, ⟨hbuf, hash, hhash, rfl⟩, hplaintext, ⟨_, hmem, .refl _⟩, ?_⟩
  intro r hr hid
  have heq : r = k.row m hash := UniqueTable.eq_of_column (show Row.id ∈ _ by simp) hr hmem hid
  rw [heq]
  exact .refl _

/-! ### The chain -/

omit [Bcrypt] in
theorem lookup_of_notMem {keys : List Inbound.FileAPIKey} {candidate : GoString}
    (h : ∀ f ∈ keys, f.key ≠ candidate) :
    Inbound.FileAPIKey.lookup keys candidate = .error Inbound.errInvalidCredential := by
  rw [Inbound.FileAPIKey.lookup]
  dsimp only
  split_ifs with hempty hmatched
  · rfl
  · rfl
  · obtain ⟨f, hf, hpair⟩ := List.mem_map.mp (Inbound.mem_of_matched hmatched)
    exact absurd (Prod.mk.inj hpair).2 (h f hf)

omit [Bcrypt] in
theorem generatePlaintext_ne_nil (buf : List.Vector UInt8 32) : generatePlaintext buf ≠ [] :=
  List.ne_nil_of_length_pos (by rw [length_generatePlaintext]; omega)

omit [Bcrypt] in
/-- A minted key in the header is the key of the request; there is nothing to trim. -/
theorem keyOf_of_header {cfg : Inbound.Config} {r : Inbound.Wire} {buf : List.Vector UInt8 32}
    (h : r.headerGet (Inbound.orDefault cfg.headerName (lit "X-API-Key")) = generatePlaintext buf) :
    cfg.keyOf r = generatePlaintext buf := by
  have htrim : trimSpace (generatePlaintext buf) = generatePlaintext buf :=
    trimSpace_of_visible isVisible_of_mem_generatePlaintext
  rw [Inbound.Config.keyOf, Inbound.keyCandidate, h, htrim]
  exact if_neg (generatePlaintext_ne_nil buf)

/-- The chain on a key that is not in the configuration: what the database says. -/
theorem authenticate_of_db [Inbound.HeaderJSON] {cfg : Inbound.Config} {rows : List Row}
    (hdb : cfg.db = some (asInboundStore (.ok rows))) {r : Inbound.Wire}
    (hne : cfg.keyOf r ≠ []) (hfile : ∀ f ∈ cfg.fileKeys, f.key ≠ cfg.keyOf r) :
    (Inbound.build cfg).authenticate r =
      (rows.find? fun row => compareHashAndPassword row.hash (cfg.keyOf r)).elim
        (.error Inbound.errInvalidCredential) fun row =>
          .ok (some (Inbound.keyIdentity row.name)) := by
  have hstore : cfg.keyStore.lookup (cfg.keyOf r) =
      (lookupAPIKey (authenticate rows (cfg.keyOf r))).mapError fun e =>
        if e.is .invalidCredential then Inbound.errInvalidCredential else e := by
    have hlookup : (asInboundStore (.ok rows)).lookup (cfg.keyOf r) =
        lookupAPIKey (authenticate rows (cfg.keyOf r)) := by
      simp only [asInboundStore, if_neg hne]
    rw [Inbound.Config.keyStore, hdb]
    simp only [Inbound.combineAPIKeyStores, Inbound.newFileAPIKeyStore, Inbound.combinedFrom,
      lookup_of_notMem hfile, hlookup]
    cases lookupAPIKey (authenticate rows (cfg.keyOf r)) with
    | ok name => rfl
    | error e => by_cases he : e.is .invalidCredential <;> simp [he, Except.mapError]
  rw [Inbound.authenticate_of_key hne, hstore, authenticate, if_neg hne]
  cases rows.find? fun row => compareHashAndPassword row.hash (cfg.keyOf r) with
  | some row => rfl
  | none => rfl

section
variable [Inbound.HeaderJSON] {cfg : Inbound.Config} {rows : List Row}
  (hdb : cfg.db = some (asInboundStore (.ok rows))) {r : Inbound.Wire} (hne : cfg.keyOf r ≠ [])
  (hfile : ∀ f ∈ cfg.fileKeys, f.key ≠ cfg.keyOf r)
include hdb hne hfile

theorem accepted_of_db {name : GoString} {row : Row} (hrow : row ∈ rows)
    (hmatch : compareHashAndPassword row.hash (cfg.keyOf r) = true)
    (hname : ∀ row ∈ rows, compareHashAndPassword row.hash (cfg.keyOf r) = true → row.name = name) :
    (Inbound.build cfg).authenticate r = .ok (some (Inbound.keyIdentity name)) := by
  rw [authenticate_of_db hdb hne hfile]
  cases hfind : rows.find? fun row => compareHashAndPassword row.hash (cfg.keyOf r) with
  | none => exact absurd hmatch (List.find?_eq_none.mp hfind row hrow)
  | some found =>
    have hfound := hname found (List.mem_of_find?_eq_some hfind) (by simpa using List.find?_some hfind)
    rw [Option.elim_some, hfound]

theorem refused_of_db
    (hnone : ∀ row ∈ rows, ¬ compareHashAndPassword row.hash (cfg.keyOf r) = true) :
    (Inbound.build cfg).authenticate r = .error Inbound.errInvalidCredential := by
  rw [authenticate_of_db hdb hne hfile, List.find?_eq_none.mpr hnone]
  rfl

end

/-- The plaintext of this key matches the hash of no other key that a `Create` of the run
has minted. -/
def Unmistakable (as : List Action) (m : Mint) (buf : List.Vector UInt8 32) : Prop :=
  ∀ m' k' buf' hash, .create m' k' ∈ as → m'.id ≠ m.id → m'.buf = some buf' →
    generateFromPassword m'.salt (generatePlaintext buf') = some hash →
    compareHashAndPassword hash (generatePlaintext buf) = false

/-- What matches the plaintext of a key is the row of this key. -/
theorem id_of_match {m : Mint} {k : NewKey} {buf : List.Vector UInt8 32} {before since : List Action}
    (hs : s.table.rows = []) (hrun : run (step n) s (before ++ .create m k :: since) = some t)
    (hunmistakable : Unmistakable (before ++ since) m buf) {r : Row} (hr : r ∈ t.table.rows)
    (hmatch : compareHashAndPassword r.hash (generatePlaintext buf) = true) : r.id = m.id := by
  rcases row_of_run hrun r hr with ⟨r₀, hr₀, -⟩ | ⟨m', k', buf', r₀, hmem, hmints, hsame⟩
  · simp [hs] at hr₀
  · by_contra hid
    have hid' : m'.id ≠ m.id := fun h => hid (hsame.id_eq.trans (hmints.id_eq.trans h))
    have hother : .create m' k' ∈ before ++ since := by
      rcases List.mem_append.mp hmem with hmem | hmem
      · exact List.mem_append_left _ hmem
      · rcases List.mem_cons.mp hmem with heq | hmem
        · cases heq
          exact absurd rfl hid'
        · exact List.mem_append_right _ hmem
    obtain ⟨hbuf', hash, hhash, rfl⟩ := hmints
    rw [hsame] at hmatch
    exact absurd hmatch (Bool.eq_false_iff.mp
      (hunmistakable m' k' buf' hash hother hid' hbuf' hhash))

/-- A key works from its creation until its name is deleted or it expires: a request that
presents its plaintext gets its identity from the chain as long as neither has happened, and
is refused as invalid afterwards. -/
theorem key_lifecycle [Inbound.HeaderJSON] (n : ℕ) (s : State) (hs : s.table.rows = [])
    (before : List Action) (u : State) (hbefore : run (step n) s before = some u) (m : Mint)
    (k : NewKey) (buf : List.Vector UInt8 32) (hbuf : m.buf = some buf) (v : State)
    (created : Created) (hcreate : create u.table m k = .ok (v.table, created))
    (hcreated : step n u (.create m k) = some v) (since : List Action) (t : State)
    (hsince : run (step n) v since = some t)
    (hfresh : ∀ m' k', .create m' k' ∈ since → m'.id ≠ m.id)
    (hunmistakable : Unmistakable (before ++ since) m buf)
    (rows : List Row) (hrows : rows.Perm (liveRows t.table t.now)) (cfg : Inbound.Config)
    (hdb : cfg.db = some (asInboundStore (.ok rows))) (r : Inbound.Wire)
    (hheader : r.headerGet (Inbound.orDefault cfg.headerName (lit "X-API-Key")) = created.plaintext)
    (hfile : ∀ f ∈ cfg.fileKeys, f.key ≠ created.plaintext) :
    ((.delete k.name ∉ since ∧ ∀ e ∈ k.expiresAt, t.now < e / 1000) →
      (Inbound.build cfg).authenticate r = .ok (some (Inbound.keyIdentity k.name))) ∧
    (¬ (.delete k.name ∉ since ∧ ∀ e ∈ k.expiresAt, t.now < e / 1000) →
      (Inbound.build cfg).authenticate r = .error Inbound.errInvalidCredential) := by
  obtain ⟨buf', row, hmints, hplaintext, hhas, honly⟩ := rows_of_create hcreate
  obtain rfl : buf' = buf := Option.some.inj (hmints.1.symm.trans hbuf)
  rw [hplaintext] at hheader hfile
  have hkey := keyOf_of_header hheader
  have hne : cfg.keyOf r ≠ [] := hkey ▸ generatePlaintext_ne_nil buf'
  have hfresh' : ∀ m' k', .create m' k' ∈ since → m'.id ≠ row.id := by
    rw [hmints.id_eq]
    exact hfresh
  have hrun : run (step n) s (before ++ .create m k :: since) = some t :=
    run_append.mpr ⟨u, hbefore, run_cons.mpr ⟨v, hcreated, hsince⟩⟩
  -- whatever matches is the row of this key
  have hmatching : ∀ r' ∈ rows, compareHashAndPassword r'.hash (cfg.keyOf r) = true →
      r' ∈ t.table.rows ∧ r'.live t.now = true ∧ row.SameKey r' := by
    intro r' hr' hmatch
    obtain ⟨hmem, hlive⟩ := mem_liveRows.mp (hrows.subset hr')
    have hid := id_of_match hs hrun hunmistakable hmem (hkey ▸ hmatch)
    exact ⟨hmem, hlive, only_of_run row hsince hfresh' honly r' hmem (hid.trans hmints.id_eq.symm)⟩
  have hname : row.name = k.name := name_of_sameKey hmints (.refl row)
  have hfile' : ∀ f ∈ cfg.fileKeys, f.key ≠ cfg.keyOf r := hkey ▸ hfile
  constructor
  · rintro ⟨hkept, hexpires⟩
    obtain ⟨r', hr', hsame⟩ := has_of_run hsince
      (fun a ha (hdelete : a = .delete row.name) => hkept (hname ▸ hdelete ▸ ha)) hhas
    have hmem : r' ∈ rows := hrows.symm.subset
      (mem_liveRows.mpr ⟨hr', (live_of_sameKey hmints hsame).mpr hexpires⟩)
    refine accepted_of_db hdb hne hfile' hmem (hkey ▸ match_of_sameKey hmints hsame) ?_
    intro found hfound hmatch
    exact name_of_sameKey hmints (hmatching found hfound hmatch).2.2
  · intro hgone
    refine refused_of_db hdb hne hfile' fun found hfound hmatch => hgone ?_
    obtain ⟨hmem, hlive, hsame⟩ := hmatching found hfound hmatch
    refine ⟨fun hdelete => ?_, (live_of_sameKey hmints hsame).mp hlive⟩
    exact absent_of_deleted row hsince hfresh' honly (hname ▸ hdelete) found hmem hsame.id_eq

end

/-- No keys and no calls. -/
def emptyState : State := ⟨UniqueTable.empty, 0, []⟩

theorem sample_key_minted :
    let as := .create (sampleMint 1 (lit "2")) (sampleKey (lit "ops")) ::
      sampleCall [sampleRow 1 (lit "2") (lit "ops")]
    ∃ t m k buf hash, run (@step plainBcrypt 2) emptyState as = some t ∧ .create m k ∈ as ∧
      m.buf = some buf ∧
      @generateFromPassword plainBcrypt m.salt (generatePlaintext buf) = some hash ∧
      @compareHashAndPassword plainBcrypt hash (samplePlaintext 1) = true := by
  intro as
  have hcalls : (run (@step plainBcrypt 2) emptyState as).map State.calls =
      some [⟨samplePlaintext 1, .returned (.ok (sampleRow 1 (lit "2") (lit "ops")).scan)⟩] := by
    decide +kernel
  obtain ⟨t, ht, hcall⟩ := Option.map_eq_some_iff.mp hcalls
  obtain ⟨xs, rows, ys, u, m, k, buf, hash, has, -, hmem, hbuf, hhash, hmatch, -⟩ :=
    @found_key_minted plainBcrypt 2 emptyState rfl as t ht 0 le_rfl _ _ (by rw [hcall]; rfl)
  exact ⟨t, m, k, buf, hash, ht, has ▸ List.mem_append_left _ hmem, hbuf, hhash, hmatch⟩

/-- The chain over the keys of the database alone. -/
def databaseConfig (rows : List Row) : Inbound.Config where
  fileKeys := []
  headerName := []
  queryParamName := []
  db := some (@asInboundStore plainBcrypt (.ok rows))
  oidc := none
  tokens := []
  allowAnonymous := false

/-- What the chain says to the key `ops`. -/
def opsAnswer (t : State) : Except Inbound.Failure (Option Inbound.Identity) :=
  (@Inbound.build ⟨fun _ => none⟩ (databaseConfig (liveRows t.table t.now))).authenticate
    ⟨[(lit "X-Api-Key", [samplePlaintext 1])], []⟩

/-- The key `ops` expires when the clock reads nine microseconds. -/
def opsKey : NewKey := ⟨lit "ops", [], [], some 9000⟩

/-- Another key before it. -/
def beforeOps : List Action := [.create (sampleMint 0 (lit "1")) (sampleKey (lit "ci"))]

/-- A third key behind it, the first one deleted, and the clock at five microseconds. -/
def sinceOps : List Action :=
  [.create (sampleMint 2 (lit "3")) (sampleKey (lit "dev")), .delete (lit "ci"), .tick 5]

/-- The life of `ops`, and what comes after. -/
def opsLife (more : List Action) : List Action :=
  beforeOps ++ .create (sampleMint 1 (lit "2")) opsKey :: (sinceOps ++ more)

/-- Nothing more, the deletion, or the expiry. -/
def opsEnds : List (List Action) := [[], [.delete (lit "ops")], [.tick 9]]

theorem mint_of_mem_sinceOps {more : List Action} (hmore : more ∈ opsEnds) {m : Mint}
    {k : NewKey} (h : .create m k ∈ sinceOps ++ more) : m = sampleMint 2 (lit "3") := by
  simp only [opsEnds, List.mem_cons, List.not_mem_nil, or_false] at hmore
  obtain rfl | rfl | rfl := hmore <;>
    simp only [sinceOps, List.cons_append, List.nil_append, List.mem_cons, Action.create.injEq,
      reduceCtorEq, List.not_mem_nil, or_false] at h <;>
    exact h.1

theorem unmistakable_ops {more : List Action} (hmore : more ∈ opsEnds) :
    @Unmistakable plainBcrypt (beforeOps ++ (sinceOps ++ more)) (sampleMint 1 (lit "2"))
      (List.Vector.replicate 32 1) := by
  intro m' k' buf' hash hmem _ hbuf hhash
  have hother : ∀ b ∈ [0, 2], (@generateFromPassword plainBcrypt [] (samplePlaintext b)).any
      (@compareHashAndPassword plainBcrypt · (samplePlaintext 1)) = false := by decide +kernel
  have hm : ∃ b ∈ [0, 2], ∃ id, m' = sampleMint b id := by
    rcases List.mem_append.mp hmem with hmem | hmem
    · simp only [beforeOps, List.mem_singleton, Action.create.injEq] at hmem
      exact ⟨0, by simp, _, hmem.1⟩
    · exact ⟨2, by simp, _, mint_of_mem_sinceOps hmore hmem⟩
  obtain ⟨b, hb, id, rfl⟩ := hm
  obtain rfl : List.Vector.replicate 32 b = buf' := Option.some.inj hbuf
  have hnone := hother b hb
  rwa [show @generateFromPassword plainBcrypt [] (samplePlaintext b) = some hash from hhash] at hnone

/-- `ops` is created behind the first key. -/
theorem ops_created : ∃ u table created,
    run (@step plainBcrypt 2) emptyState beforeOps = some u ∧
    @create plainBcrypt u.table (sampleMint 1 (lit "2")) opsKey = .ok (table, created) ∧
    @step plainBcrypt 2 u (.create (sampleMint 1 (lit "2")) opsKey) = some { u with table } ∧
    created.plaintext = samplePlaintext 1 := by
  have hu : (run (@step plainBcrypt 2) emptyState beforeOps).map (fun u =>
      (u.busy, (@create plainBcrypt u.table (sampleMint 1 (lit "2")) opsKey).isOk)) = some (0, true) := by
    decide +kernel
  obtain ⟨u, hbefore, hpair⟩ := Option.map_eq_some_iff.mp hu
  obtain ⟨hbusy, hok⟩ := Prod.mk.inj hpair
  obtain ⟨⟨table, created⟩, hcreate⟩ :
      ∃ out, @create plainBcrypt u.table (sampleMint 1 (lit "2")) opsKey = .ok out := by
    cases hcreate : @create plainBcrypt u.table (sampleMint 1 (lit "2")) opsKey with
    | error e =>
      rw [hcreate] at hok
      cases hok
    | ok out => exact ⟨out, rfl⟩
  obtain ⟨-, buf, -, hbuf, hplaintext, -⟩ := @create_eq_ok plainBcrypt _ _ _ _ _ hcreate
  obtain rfl : List.Vector.replicate 32 1 = buf := Option.some.inj hbuf
  have hcreated := @step_create plainBcrypt 2 u _ _ table created (by omega) hcreate
  exact ⟨u, table, created, hbefore, hcreate, hcreated, hplaintext⟩

/-- `ops` is accepted beside the other keys, and refused when it is deleted and when it has
expired. -/
theorem sample_lifecycle :
    (∃ t, run (@step plainBcrypt 2) emptyState (opsLife []) = some t ∧
      opsAnswer t = .ok (some (Inbound.keyIdentity (lit "ops")))) ∧
    (∃ t, run (@step plainBcrypt 2) emptyState (opsLife [.delete (lit "ops")]) = some t ∧
      opsAnswer t = .error Inbound.errInvalidCredential) ∧
    ∃ t, run (@step plainBcrypt 2) emptyState (opsLife [.tick 9]) = some t ∧
      opsAnswer t = .error Inbound.errInvalidCredential := by
  obtain ⟨u, table, created, hbefore, hcreate, hcreated, hplaintext⟩ := ops_created
  have hheader : Inbound.Wire.headerGet ⟨[(lit "X-Api-Key", [samplePlaintext 1])], []⟩
      (lit "X-API-Key") = samplePlaintext 1 := by decide +kernel
  -- the life that the theorem gives to every continuation
  have hlife : ∀ more ∈ opsEnds, ∀ t,
      run (@step plainBcrypt 2) emptyState (opsLife more) = some t →
      ((.delete (lit "ops") ∉ sinceOps ++ more ∧ t.now < 9) →
        opsAnswer t = .ok (some (Inbound.keyIdentity (lit "ops")))) ∧
      (¬ (.delete (lit "ops") ∉ sinceOps ++ more ∧ t.now < 9) →
        opsAnswer t = .error Inbound.errInvalidCredential) := by
    intro more hmore t ht
    obtain ⟨u', hu', htail⟩ := run_append.mp ht
    obtain ⟨v', hv', hsince⟩ := run_cons.mp htail
    cases hbefore.symm.trans hu'
    cases hcreated.symm.trans hv'
    have h := @key_lifecycle plainBcrypt ⟨fun _ => none⟩ 2 emptyState rfl beforeOps u hbefore
      (sampleMint 1 (lit "2")) opsKey _ rfl _ created hcreate hcreated (sinceOps ++ more) t hsince
      (fun m' k' hmem => by rw [mint_of_mem_sinceOps hmore hmem]; decide +kernel)
      (unmistakable_ops hmore) _ (.refl _) (databaseConfig (liveRows t.table t.now)) rfl
      ⟨[(lit "X-Api-Key", [samplePlaintext 1])], []⟩ (hheader.trans hplaintext.symm)
      (fun f hf => absurd hf List.not_mem_nil)
    have hexpires : (∀ e ∈ opsKey.expiresAt, t.now < e / 1000) ↔ t.now < 9 := by simp [opsKey]
    rwa [hexpires] at h
  have hend : ∀ more now, (run (@step plainBcrypt 2) emptyState (opsLife more)).map State.now = some now →
      ∃ t, run (@step plainBcrypt 2) emptyState (opsLife more) = some t ∧ t.now = now :=
    fun _ _ h => Option.map_eq_some_iff.mp h
  obtain ⟨t₁, ht₁, hnow₁⟩ := hend [] 5 (by decide +kernel)
  obtain ⟨t₂, ht₂, -⟩ := hend [.delete (lit "ops")] 5 (by decide +kernel)
  obtain ⟨t₃, ht₃, hnow₃⟩ := hend [.tick 9] 9 (by decide +kernel)
  have hkept : .delete (lit "ops") ∉ sinceOps ++ [] := by
    simp only [sinceOps, List.append_nil, List.mem_cons, reduceCtorEq, Action.delete.injEq,
      List.not_mem_nil, or_false, false_or]
    decide +kernel
  exact ⟨⟨t₁, ht₁, (hlife [] (by simp [opsEnds]) t₁ ht₁).1 ⟨hkept, by omega⟩⟩,
    ⟨t₂, ht₂, (hlife _ (by simp [opsEnds]) t₂ ht₂).2 fun h => h.1 (by simp)⟩,
    ⟨t₃, ht₃, (hlife _ (by simp [opsEnds]) t₃ ht₃).2 fun h => by omega⟩⟩

end ApiTest.Apikeys
