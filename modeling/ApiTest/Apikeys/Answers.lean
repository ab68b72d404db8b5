import ApiTest.Apikeys.Runs

/-! What `Authenticate` answers. Between its SELECT and its return keys come and go, and
the time passes that others expire at, but the answer of a call is that of the table its
SELECT saw: a key is returned if it was there, had not expired and matches, and "not
found" only if there was no such key. So a key that is deleted is found by no call that
starts afterwards. -/

namespace ApiTest.Apikeys

open Text Audit Relational Transition

section
variable [Bcrypt]

/-- The answer of a table at a time to a candidate. -/
inductive Answers (t : KeyTable) (now : ℤ) (candidate : GoString) : Except AuthError Key → Prop
  | found {r : Row} (hr : r ∈ t.rows) (hlive : r.live now = true)
      (hmatch : compareHashAndPassword r.hash candidate = true) :
      Answers t now candidate (.ok r.scan)
  | notFound (h : ∀ r ∈ t.rows, r.live now = true →
      compareHashAndPassword r.hash candidate = false) :
      Answers t now candidate (.error .notFound)

omit [Bcrypt] in
theorem mem_liveRows {t : KeyTable} {now : ℤ} {r : Row} :
    r ∈ liveRows t now ↔ r ∈ t.rows ∧ r.live now = true := List.mem_filter

variable (n : ℕ) (s : State)

/-- The SELECT of call `i` ran in the state `u` of the history. -/
def SelectedIn (as : List Action) (i : ℕ) (u : State) : Prop :=
  ∃ xs rows ys, as = xs ++ .select i rows :: ys ∧ run (step n) s xs = some u

/-- What the history of a run knows of a call in a phase. -/
inductive Traced (as : List Action) (i : ℕ) (candidate : GoString) : Phase → Prop
  | acquiring (hne : candidate ≠ []) : Traced as i candidate .acquiring
  | scanning {u : State} {rows : List Row} (hne : candidate ≠ []) (hselect : SelectedIn n s as i u)
      (hlive : ∀ r ∈ rows, r ∈ liveRows u.table u.now)
      (hrest : ∀ r ∈ liveRows u.table u.now, r ∉ rows →
        compareHashAndPassword r.hash candidate = false) :
      Traced as i candidate (.scanning rows)
  | touching {u : State} {key : Key} (hselect : SelectedIn n s as i u)
      (h : Answers u.table u.now candidate (.ok key)) : Traced as i candidate (.touching key)
  | empty (h : candidate = []) : Traced as i candidate (.returned (.error .notFound))
  | failed {message : GoString} : Traced as i candidate (.returned (.error (.database message)))
  | answered {u : State} {result : Except AuthError Key} (hselect : SelectedIn n s as i u)
      (h : Answers u.table u.now candidate result) : Traced as i candidate (.returned result)

variable {n : ℕ} {s : State}

theorem SelectedIn.concat {as : List Action} {i : ℕ} {u : State} (h : SelectedIn n s as i u)
    (a : Action) : SelectedIn n s (as ++ [a]) i u := by
  obtain ⟨xs, rows, ys, rfl, hu⟩ := h
  exact ⟨xs, rows, ys ++ [a], by simp, hu⟩

theorem Traced.concat {as : List Action} {i : ℕ} {candidate : GoString} {phase : Phase}
    (h : Traced n s as i candidate phase) (a : Action) :
    Traced n s (as ++ [a]) i candidate phase := by
  cases h with
  | acquiring hne => exact .acquiring hne
  | scanning hne hselect hlive hrest => exact .scanning hne (hselect.concat a) hlive hrest
  | touching hselect h => exact .touching (hselect.concat a) h
  | empty h => exact .empty h
  | failed => exact .failed
  | answered hselect h => exact .answered (hselect.concat a) h

theorem traced_firstPhase (as : List Action) (i : ℕ) (candidate : GoString) :
    Traced n s as i candidate (firstPhase candidate) := by
  unfold firstPhase
  split_ifs with h
  · exact .empty h
  · exact .acquiring h

/-- A call that moves on is still traced. -/
theorem Traced.proceeds {as : List Action} {t : State} {c : Call} {i : ℕ} {a : Action}
    {phase : Phase} (hrun : run (step n) s as = some t) (h : Traced n s as i c.candidate c.phase)
    (hp : Proceeds n t c i a phase) : Traced n s (as ++ [a]) i c.candidate phase := by
  cases hp with
  | select hfree hphase hrows =>
    rw [hphase] at h
    cases h with
    | acquiring hne =>
      exact .scanning (u := t) hne ⟨as, _, [], rfl, hrun⟩ (fun r hr => hrows.subset hr)
        fun r hr hnot => absurd (hrows.symm.subset hr) hnot
  | exhausted hphase =>
    rw [hphase] at h
    cases h with
    | scanning hne hselect hlive hrest =>
      refine .answered (hselect.concat _) (.notFound fun r hr hl => ?_)
      exact hrest r (mem_liveRows.mpr ⟨hr, hl⟩) List.not_mem_nil
  | @found r rows hphase hmatch =>
    rw [hphase] at h
    cases h with
    | scanning hne hselect hlive hrest =>
      obtain ⟨hr, hl⟩ := mem_liveRows.mp (hlive r List.mem_cons_self)
      exact .touching (hselect.concat _) (.found hr hl hmatch)
  | @skipped r rows hphase hmatch =>
    rw [hphase] at h
    cases h with
    | scanning hne hselect hlive hrest =>
      refine .scanning hne (hselect.concat _) (fun r' hr' => hlive r' (List.mem_cons_of_mem r hr')) ?_
      intro r' hr' hnot
      by_cases heq : r' = r
      · rw [heq]
        exact hmatch
      · exact hrest r' hr' (by simp [heq, hnot])
  | touch hfree hphase =>
    rw [hphase] at h
    cases h with
    | touching hselect h => exact .answered (hselect.concat _) h
  | ignored hphase =>
    rw [hphase] at h
    cases h with
    | touching hselect h => exact .answered (hselect.concat _) h
  | acquireFailed hphase => exact .failed
  | scanFailed hphase => exact .failed

/-- The calls that start in a run are traced. -/
theorem traced_of_run {as : List Action} {t : State} (h : run (step n) s as = some t) :
    s.calls.length ≤ t.calls.length ∧ ∀ i c, s.calls.length ≤ i → t.calls[i]? = some c →
      Traced n s as i c.candidate c.phase := by
  refine run_history (fun as t => s.calls.length ≤ t.calls.length ∧ ∀ i c, s.calls.length ≤ i →
    t.calls[i]? = some c → Traced n s as i c.candidate c.phase) ⟨le_rfl, ?_⟩ ?_ h
  · intro i c hi hc
    rw [List.getElem?_eq_none hi] at hc
    cases hc
  · rintro xs t a u hrun ⟨hlength, htraced⟩ hstep
    refine ⟨hlength.trans (length_calls_of_step hstep), fun i c hi hc => ?_⟩
    rcases call_of_step hstep hc with hold | ⟨-, hnew⟩ | ⟨c₀, hc₀, hcandidate, hp⟩
    · exact (htraced i c hi hold).concat a
    · rw [hnew]
      exact traced_firstPhase _ i _
    · rw [← hcandidate]
      exact (htraced i c₀ hi hc₀).proceeds hrun hp

/-- Every call that starts in a run and returns has failed in the database, had an empty
candidate, or gives the answer of the table at the time of its SELECT. -/
theorem authenticate_linearizes (n : ℕ) (s : State) (as : List Action) (t : State)
    (h : run (step n) s as = some t) (i : ℕ) (hi : s.calls.length ≤ i) (candidate : GoString)
    (result : Except AuthError Key) (hc : t.calls[i]? = some ⟨candidate, .returned result⟩) :
    (∃ message, result = .error (.database message)) ∨
      (candidate = [] ∧ result = .error .notFound) ∨
      ∃ xs rows ys u, as = xs ++ .select i rows :: ys ∧ run (step n) s xs = some u ∧
        Answers u.table u.now candidate result := by
  have htraced := (traced_of_run h).2 i _ hi hc
  cases htraced with
  | empty hempty => exact .inr (.inl ⟨hempty, rfl⟩)
  | failed => exact .inl ⟨_, rfl⟩
  | answered hselect hanswer =>
    obtain ⟨xs, rows, ys, has, hu⟩ := hselect
    exact .inr (.inr ⟨xs, rows, ys, _, has, hu, hanswer⟩)

/-! ### The rows of the table -/

/-- The same row, up to the time of its last use. -/
def Row.SameKey (r₀ r : Row) : Prop := r = { r₀ with lastUsedAt := r.lastUsedAt }

omit [Bcrypt] in
theorem Row.SameKey.refl (r : Row) : r.SameKey r := rfl

omit [Bcrypt] in
theorem Row.SameKey.trans {r₁ r₂ r₃ : Row} (h : r₁.SameKey r₂) (h' : r₂.SameKey r₃) :
    r₁.SameKey r₃ := by
  rw [Row.SameKey] at h h' ⊢
  rw [h', h]

omit [Bcrypt] in
theorem Row.SameKey.id_eq {r₀ r : Row} (h : r₀.SameKey r) : r.id = r₀.id :=
  (congrArg Row.id h :)

/-- The row that a `Create` inserts for the bytes it has drawn. -/
def Mints (m : Mint) (k : NewKey) (buf : List.Vector UInt8 32) (r : Row) : Prop :=
  m.buf = some buf ∧ ∃ hash, generateFromPassword m.salt (generatePlaintext buf) = some hash ∧
    r = k.row m hash

theorem Mints.id_eq {m : Mint} {k : NewKey} {buf : List.Vector UInt8 32} {r : Row}
    (h : Mints m k buf r) : r.id = m.id := by
  obtain ⟨-, hash, -, rfl⟩ := h
  rfl

/-- A row after a step was there before, perhaps used since, or has just been minted. -/
theorem row_of_step {a : Action} {s' : State} (h : step n s a = some s') {r : Row}
    (hr : r ∈ s'.table.rows) : (∃ r₀ ∈ s.table.rows, r₀.SameKey r) ∨
      ∃ m k buf, a = .create m k ∧ Mints m k buf r := by
  rcases (moves_of_step h).table with hsame | hchange
  · rw [hsame] at hr
    exact .inl ⟨r, hr, .refl r⟩
  · generalize s'.table = t' at hr hchange
    cases hchange with
    | create hfree hcreate =>
      obtain ⟨-, buf, hash, hbuf, -, hhash, hinsert, -⟩ := create_eq_ok hcreate
      rw [rows_of_insertKey hinsert, List.mem_append, List.mem_singleton] at hr
      rcases hr with hr | hr
      · exact .inl ⟨r, hr, .refl r⟩
      · exact .inr ⟨_, _, buf, rfl, hbuf, hash, hhash, hr⟩
    | delete hfree => exact .inl ⟨r, (UniqueTable.mem_delete.mp hr).1, .refl r⟩
    | touch hfree hc hphase =>
      obtain ⟨r₀, hr₀, rfl⟩ := UniqueTable.mem_update.mp hr
      refine .inl ⟨r₀, hr₀, ?_⟩
      split_ifs
      · rfl
      · exact .refl r₀

/-- An id that no row has does not come back as long as it is not drawn again. -/
theorem id_absent_of_run {x : GoString} {as : List Action} {t : State}
    (h : run (step n) s as = some t) (hfresh : ∀ m k, .create m k ∈ as → m.id ≠ x)
    (hs : ∀ r ∈ s.table.rows, r.id ≠ x) : ∀ r ∈ t.table.rows, r.id ≠ x := by
  refine run_invariant_of_forall (fun t => ∀ r ∈ t.table.rows, r.id ≠ x)
    (fun a => ∀ m k, a = .create m k → m.id ≠ x) ?_ h
    (fun a ha m k hcreate => hfresh m k (hcreate ▸ ha)) hs
  intro u a v hguard hu hstep r hr
  rcases row_of_step hstep hr with ⟨r₀, hr₀, hsame⟩ | ⟨m, k, buf, rfl, hmints⟩
  · rw [hsame.id_eq]
    exact hu r₀ hr₀
  · rw [hmints.id_eq]
    exact hguard m k rfl

/-- A deleted row is gone. -/
theorem id_absent_of_delete {s' : State} {r : Row} (hr : r ∈ s.table.rows)
    (h : step n s (.delete r.name) = some s') : ∀ r' ∈ s'.table.rows, r'.id ≠ r.id := by
  intro r' hr' hid
  rw [step] at h
  split_ifs at h
  cases h
  have hrows : r' ∈ (s.table.delete fun r' => r'.name = r.name).rows := by
    have haffected : (s.table.rows.filter fun r' => r'.name = r.name).length ≠ 0 :=
      (List.length_pos_of_mem (List.mem_filter.mpr ⟨hr, by simp⟩)).ne'
    simpa only [delete, if_neg haffected, Option.getD_some] using hr'
  obtain ⟨hmem, hname⟩ := UniqueTable.mem_delete.mp hrows
  have heq : r' = r := UniqueTable.eq_of_column (show Row.id ∈ _ by simp) hmem hr hid
  simp [heq] at hname

/-- No call that starts after the deletion of a key returns it, as long as its id is not
drawn again. -/
theorem deleted_never_found (n : ℕ) (s u t : State) (r : Row) (hr : r ∈ s.table.rows)
    (hdelete : step n s (.delete r.name) = some u) (as : List Action)
    (h : run (step n) u as = some t) (hfresh : ∀ m k, .create m k ∈ as → m.id ≠ r.id) (i : ℕ)
    (hi : u.calls.length ≤ i) (candidate : GoString) (key : Key)
    (hc : t.calls[i]? = some ⟨candidate, .returned (.ok key)⟩) : key.id ≠ r.id := by
  cases (traced_of_run h).2 i _ hi hc with
  | answered hselect hanswer =>
    obtain ⟨xs, rows, ys, has, hv⟩ := hselect
    cases hanswer with
    | found hr' hlive hmatch =>
      refine id_absent_of_run hv (fun m k hmem => hfresh m k ?_) (id_absent_of_delete hr hdelete)
        _ hr'
      rw [has]
      exact List.mem_append_left _ hmem

end

/-! ### Two keys -/

/-- Hashes that hold the password behind the salt. -/
@[reducible] def plainBcrypt : Bcrypt where
  generateFromPassword salt password := if 72 < password.length then none else some (salt ++ 0x24 :: password)
  compareHashAndPassword hash password := decide (0x24 :: password <:+ hash)
  compare_generate := by
    intro salt password hash h
    split_ifs at h
    cases h
    exact decide_eq_true (List.suffix_append salt _)

/-- A key drawn as 32 equal bytes. -/
def sampleMint (b : UInt8) (id : GoString) : Mint := ⟨some (List.Vector.replicate 32 b), [], id, 0⟩

def sampleKey (name : GoString) : NewKey := ⟨name, [], [], none⟩

def samplePlaintext (b : UInt8) : GoString := generatePlaintext (List.Vector.replicate 32 b)

def sampleRow (b : UInt8) (id name : GoString) : Row :=
  (sampleKey name).row (sampleMint b id) (0x24 :: samplePlaintext b)

/-- Two keys, `ci` and `ops`, and nobody there. -/
def sampleState : State where
  table := ⟨[sampleRow 0 (lit "1") (lit "ci"), sampleRow 1 (lit "2") (lit "ops")], by
    simp only [List.forall_mem_cons]
    exact ⟨by decide +kernel, by decide +kernel, by simp⟩⟩
  now := 0

/-- A call for the second key on whose rows the first stands before it. -/
def sampleCall (rows : List Row) : List Action :=
  .call (samplePlaintext 1) :: .select 0 rows :: rows.map (fun _ => .compare 0) ++ [.touch 0]

/-- The key is deleted and another created in its place between the SELECT and the return of
the call that finds it. -/
def overtakenCall : List Action :=
  [.call (samplePlaintext 1), .select 0 sampleState.table.rows, .compare 0, .delete (lit "ops"), .tick 7,
    .create (sampleMint 2 (lit "3")) (sampleKey (lit "ops")), .compare 0, .touch 0]

theorem sample_linearizes : ∃ t xs rows ys u,
    run (@step plainBcrypt 2) sampleState overtakenCall = some t ∧
      t.table.rows.map Row.id = [lit "1", lit "3"] ∧
      overtakenCall = xs ++ .select 0 rows :: ys ∧ run (@step plainBcrypt 2) sampleState xs = some u ∧
      @Answers plainBcrypt u.table u.now (samplePlaintext 1)
        (.ok (sampleRow 1 (lit "2") (lit "ops")).scan) := by
  have hend : (run (@step plainBcrypt 2) sampleState overtakenCall).map
      (fun t => (t.table.rows.map Row.id, t.calls)) = some ([lit "1", lit "3"], [⟨samplePlaintext 1,
        .returned (.ok (sampleRow 1 (lit "2") (lit "ops")).scan)⟩]) := by decide +kernel
  obtain ⟨t, ht, hpair⟩ := Option.map_eq_some_iff.mp hend
  obtain ⟨hids, hcall⟩ := Prod.mk.inj hpair
  rcases @authenticate_linearizes plainBcrypt 2 sampleState _ t ht 0 le_rfl _ _
    (by rw [hcall]; rfl) with ⟨message, hfailed⟩ | ⟨-, hempty⟩ | ⟨xs, rows, ys, u, has, hu, hanswer⟩
  · cases hfailed
  · cases hempty
  · exact ⟨t, xs, rows, ys, u, ht, hids, has, hu, hanswer⟩

/-- A key is created again under the name of the deleted one, and found. -/
def recreated : List Action :=
  [.create (sampleMint 2 (lit "3")) (sampleKey (lit "ci")), .call (samplePlaintext 2),
    .select 0 [sampleRow 2 (lit "3") (lit "ci"), sampleRow 1 (lit "2") (lit "ops")], .compare 0, .touch 0]

theorem sample_never_found : ∃ u t,
    @step plainBcrypt 2 sampleState (.delete (lit "ci")) = some u ∧
      run (@step plainBcrypt 2) u recreated = some t ∧
      t.calls = [⟨samplePlaintext 2, .returned (.ok (sampleRow 2 (lit "3") (lit "ci")).scan)⟩] ∧
      (sampleRow 2 (lit "3") (lit "ci")).scan.id ≠ lit "1" := by
  have hcalls : ((@step plainBcrypt 2 sampleState (.delete (lit "ci"))).bind fun u =>
      (run (@step plainBcrypt 2) u recreated).map fun t =>
        (u.calls.length, t.calls)) = some (0, [⟨samplePlaintext 2,
          .returned (.ok (sampleRow 2 (lit "3") (lit "ci")).scan)⟩]) := by decide +kernel
  obtain ⟨u, hu, hrun⟩ := Option.bind_eq_some_iff.mp hcalls
  obtain ⟨t, ht, hpair⟩ := Option.map_eq_some_iff.mp hrun
  obtain ⟨hlength, hcall⟩ := Prod.mk.inj hpair
  refine ⟨u, t, hu, ht, hcall, ?_⟩
  refine @deleted_never_found plainBcrypt 2 sampleState u t (sampleRow 0 (lit "1") (lit "ci"))
    List.mem_cons_self hu _ ht ?_ 0 (by rw [hlength]) _ _ (by rw [hcall]; rfl)
  intro m k hmem
  simp only [recreated, List.mem_cons, Action.create.injEq, reduceCtorEq, List.not_mem_nil, or_false] at hmem
  rw [hmem.1]
  decide

end ApiTest.Apikeys
