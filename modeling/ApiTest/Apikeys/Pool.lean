import ApiTest.Apikeys.Answers

/-! The connections of the pool. `Authenticate` keeps the rows of its SELECT open while
`touchLastUsed` asks the same pool for another connection. As soon as every connection is
held by a call that has found its key, none of them gets the second one, and no other
statement runs either, until the context of one of the calls ends. `n` calls at a time are
enough for that and fewer are not: they all return, in a number of steps that is known
beforehand. -/

namespace ApiTest.Apikeys

open Text Audit Relational Transition

/-- The call waits in `touchLastUsed`. -/
def Phase.isTouching : Phase → Bool
  | .touching _ => true
  | _ => false

/-- The call compares rows. -/
def Phase.isScanning : Phase → Bool
  | .scanning _ => true
  | _ => false

def Phase.isReturned : Phase → Bool
  | .returned _ => true
  | _ => false

/-- The calls in a phase of the given kind. -/
def State.count (s : State) (p : Phase → Bool) : ℕ := s.calls.countP fun c => p c.phase

/-- The calls that compare rows. -/
def State.scanning (s : State) : ℕ := s.count Phase.isScanning

/-- The calls that have found their key and wait for a second connection. -/
def State.touching (s : State) : ℕ := s.count Phase.isTouching

/-- The calls that have not returned. -/
def State.inFlight (s : State) : ℕ := s.count fun p => !p.isReturned

/-- The steps a call takes by itself, in the order of its program. -/
def Action.isOwn : Action → Bool
  | .select _ _ => true
  | .compare _ => true
  | .touch _ => true
  | _ => false

theorem Phase.isReturned_of_holds {p : Phase} (h : p.holds = true) : p.isReturned = false := by
  cases p <;> first | rfl | cases h

theorem State.count_mono {s : State} {p q : Phase → Bool} (h : ∀ phase, p phase = true →
    q phase = true) : s.count p ≤ s.count q :=
  List.countP_mono_left fun c _ => h c.phase

theorem index_of_isOwn {a : Action} (h : a.isOwn = true) : a.index ≠ none := by
  cases a <;> simp_all [Action.isOwn, Action.index]

theorem State.busy_le_inFlight (s : State) : s.busy ≤ s.inFlight :=
  s.count_mono fun _ h => by rw [Phase.isReturned_of_holds h]; rfl

theorem State.count_append {s s' : State} {c : Call} (h : s'.calls = s.calls ++ [c])
    (p : Phase → Bool) : s'.count p = s.count p + if p c.phase then 1 else 0 := by
  rw [State.count, h, List.countP_append, List.countP_singleton]
  rfl

/-- Replacing a call changes a sum over the calls by the difference of the two. -/
theorem sum_map_set (f : Call → ℕ) {calls : List Call} {i : ℕ} {c : Call} (c' : Call)
    (h : calls[i]? = some c) :
    ((calls.set i c').map f).sum + f c = (calls.map f).sum + f c' := by
  induction calls generalizing i with
  | nil => cases h
  | cons d calls ih =>
    cases i with
    | zero =>
      cases h
      simp only [List.set_cons_zero, List.map_cons, List.sum_cons]
      omega
    | succ i =>
      have hrest := ih h
      simp only [List.set_cons_succ, List.map_cons, List.sum_cons]
      omega

theorem State.count_eq_sum (s : State) (p : Phase → Bool) :
    s.count p = (s.calls.map fun c => if p c.phase then 1 else 0).sum := by
  unfold State.count
  induction s.calls with
  | nil => rfl
  | cons c calls ih =>
    rw [List.countP_cons, List.map_cons, List.sum_cons, ih]
    omega

theorem State.count_set {s s' : State} {i : ℕ} {c : Call} {phase : Phase}
    (h : s.calls[i]? = some c) (hset : s'.calls = s.calls.set i ⟨c.candidate, phase⟩)
    (p : Phase → Bool) :
    s'.count p + (if p c.phase then 1 else 0) = s.count p + if p phase then 1 else 0 := by
  rw [State.count_eq_sum, State.count_eq_sum, hset]
  exact sum_map_set (fun c => if p c.phase then 1 else 0) _ h

theorem State.busy_eq (s : State) : s.busy = s.scanning + s.touching := by
  unfold State.busy State.scanning State.touching State.count
  induction s.calls with
  | nil => rfl
  | cons c calls ih =>
    rw [List.countP_cons, List.countP_cons, List.countP_cons, ih]
    cases c.phase <;> simp [Phase.holds, Phase.isScanning, Phase.isTouching] <;> omega

theorem holds_firstPhase (candidate : GoString) : (firstPhase candidate).holds = false := by
  unfold firstPhase
  split_ifs <;> rfl

section
variable [Bcrypt] {n : ℕ} {s s' : State} {a : Action}

/-- Only a SELECT takes a connection, and only if one is free. -/
theorem Proceeds.free {c : Call} {i : ℕ} {phase : Phase} (h : Proceeds n s c i a phase)
    (hnew : phase.holds = true) : c.phase.holds = true ∨ s.busy < n := by
  cases h with
  | select hfree hphase hrows => exact .inr hfree
  | found hphase hmatch => exact .inl (by rw [hphase]; rfl)
  | skipped hphase hmatch => exact .inl (by rw [hphase]; rfl)
  | _ => cases hnew

/-- The pool hands out no more than it has. -/
theorem busy_le_of_step (hs : s.busy ≤ n) (h : step n s a = some s') : s'.busy ≤ n := by
  rcases (moves_of_step h).calls with ⟨-, hsame⟩ | ⟨candidate, -, hnew⟩ | ⟨i, c, phase, hc, hp, hset⟩
  · rwa [State.busy, hsame]
  · have hcount : s'.busy = s.busy + _ := State.count_append hnew Phase.holds
    rw [holds_firstPhase] at hcount
    exact hcount ▸ hs
  · have hcount : s'.busy + _ = s.busy + _ := State.count_set hc hset Phase.holds
    by_cases hnew : phase.holds = true
    · rcases hp.free hnew with hold | hfree
      · rw [if_pos hold, if_pos hnew] at hcount
        omega
      · rw [if_pos hnew] at hcount
        omega
    · rw [if_neg hnew] at hcount
      omega

theorem busy_le_of_run {as : List Action} (hs : s.busy ≤ n) (h : run (step n) s as = some s') :
    s'.busy ≤ n :=
  run_invariant (fun s => s.busy ≤ n) (fun _ _ _ hs hstep => busy_le_of_step hs hstep) h hs

/-! ### The steps that are left -/

/-- A bound on the steps a call still takes, with `rows` keys in the table. -/
def Phase.work (rows : ℕ) : Phase → ℕ
  | .acquiring => rows + 3
  | .scanning left => left.length + 2
  | .touching _ => 1
  | .returned _ => 0

def State.work (s : State) : ℕ := (s.calls.map fun c => c.phase.work s.table.rows.length).sum

omit [Bcrypt] in
theorem length_liveRows_le (t : KeyTable) (now : ℤ) : (liveRows t now).length ≤ t.rows.length :=
  List.length_filter_le _ _

/-- An own step of a call brings it nearer to its end. -/
theorem Proceeds.work_lt {c : Call} {i : ℕ} {phase : Phase} (ha : a.isOwn = true)
    (h : Proceeds n s c i a phase) :
    phase.work s.table.rows.length < c.phase.work s.table.rows.length := by
  cases h with
  | select hfree hphase hrows =>
    have hlive := length_liveRows_le s.table s.now
    rw [hphase, Phase.work, Phase.work, hrows.length_eq]
    omega
  | exhausted hphase => simp [hphase, Phase.work]
  | found hphase hmatch => simp [hphase, Phase.work]
  | skipped hphase hmatch => simp [hphase, Phase.work]
  | touch hfree hphase => simp [hphase, Phase.work]
  | _ => cases ha

theorem Proceeds.not_returned {c : Call} {i : ℕ} {phase : Phase} (h : Proceeds n s c i a phase) :
    c.phase.isReturned = false := by
  cases h <;> simp [*, Phase.isReturned]

theorem rows_length_of_own (ha : a.isOwn = true) (h : step n s a = some s') :
    s'.table.rows.length = s.table.rows.length := by
  rcases (moves_of_step h).table with hsame | hchange
  · rw [hsame]
  · generalize s'.table = t' at hchange
    cases hchange with
    | touch hfree hc hphase => exact UniqueTable.length_update _ _ _ _
    | _ => cases ha

/-- A step of a call leaves less to do, and no more calls in flight. -/
theorem own_step (ha : a.isOwn = true) (h : step n s a = some s') :
    s'.work < s.work ∧ s'.calls.length = s.calls.length ∧ s'.inFlight ≤ s.inFlight := by
  rcases (moves_of_step h).calls with ⟨hnone, -⟩ | ⟨candidate, rfl, -⟩ | ⟨i, c, phase, hc, hp, hset⟩
  · exact absurd hnone (index_of_isOwn ha)
  · cases ha
  · refine ⟨?_, by rw [hset, List.length_set], ?_⟩
    · have hsum : _ + c.phase.work s.table.rows.length = _ + phase.work s.table.rows.length :=
        sum_map_set (fun c => c.phase.work s.table.rows.length) ⟨c.candidate, phase⟩ hc
      have hlt := hp.work_lt ha
      rw [State.work, State.work, rows_length_of_own ha h, hset]
      omega
    · have hcount : s'.inFlight + _ = s.inFlight + _ :=
        State.count_set hc hset fun p => !p.isReturned
      rw [hp.not_returned, Bool.not_false, if_pos rfl] at hcount
      split_ifs at hcount <;> omega

theorem exists_compared (candidate : GoString) (rows : List Row) :
    ∃ phase, (Phase.scanning rows).compared candidate = some phase := by
  cases rows with
  | nil => exact ⟨_, rfl⟩
  | cons r rows =>
    simp only [Phase.compared]
    split_ifs
    · exact ⟨_, rfl⟩
    · exact ⟨_, rfl⟩

/-- While a connection is free or a row is to be compared, some call can move on. -/
theorem exists_own_step (hflight : 0 < s.inFlight) (hfree : s.touching < n) :
    ∃ a s', a.isOwn = true ∧ step n s a = some s' := by
  by_cases hscan : s.scanning = 0
  · have hbusy : s.busy < n := by
      rw [State.busy_eq, hscan]
      omega
    obtain ⟨c, hmem, hc⟩ := List.countP_pos_iff.mp hflight
    obtain ⟨i, hi⟩ := List.getElem?_of_mem hmem
    cases hphase : c.phase with
    | acquiring =>
      have hnext : c.phase.selected (liveRows s.table s.now) =
          some (.scanning (liveRows s.table s.now)) := by
        rw [hphase]
        rfl
      exact ⟨.select i _, _, rfl,
        (if_pos ⟨hbusy, List.Perm.refl _⟩).trans (State.advance_eq hi hnext)⟩
    | scanning rows =>
      have hpos : 0 < s.scanning :=
        List.countP_pos_iff.mpr ⟨c, hmem, by rw [hphase]; rfl⟩
      omega
    | touching key =>
      have hnext : c.phase.touched = some (.returned (.ok key)) := by
        rw [hphase]
        rfl
      exact ⟨.touch i, _, rfl,
        (if_pos hbusy).trans (congrArg (Option.map _) (State.advance_eq hi hnext))⟩
    | returned result =>
      rw [hphase] at hc
      cases hc
  · obtain ⟨c, hmem, hc⟩ := List.countP_pos_iff.mp (Nat.pos_of_ne_zero hscan)
    obtain ⟨i, hi⟩ := List.getElem?_of_mem hmem
    cases hphase : c.phase with
    | scanning rows =>
      obtain ⟨phase, hnext⟩ := exists_compared c.candidate rows
      exact ⟨.compare i, _, rfl, State.advance_eq hi (by rw [hphase]; exact hnext)⟩
    | _ =>
      rw [hphase] at hc
      cases hc

theorem own_run {as : List Action} (hown : ∀ a ∈ as, a.isOwn = true)
    (h : run (step n) s as = some s') :
    as.length + s'.work ≤ s.work ∧ s'.inFlight ≤ s.inFlight := by
  refine (run_measure (fun t => t.inFlight ≤ s.inFlight) State.work (fun a => a.isOwn = true) ?_ h
    hown le_rfl).symm
  intro t a u ha hle hstep
  obtain ⟨hwork, -, hflight⟩ := own_step ha hstep
  exact ⟨hflight.trans hle, by omega⟩

/-! ### Deadlock -/

variable (n s) in
/-- Some call has not returned, and whatever happens, short of the end of a context, no call
moves on and the table stays as it is. -/
structure Deadlocked : Prop where
  waiting : 0 < s.inFlight
  forever : ∀ as t, run (step n) s as = some t → (∀ i message, .fail i message ∉ as) →
    t.table = s.table ∧ s.calls <+: t.calls

/-- When all connections are held by calls that wait for another one, a step starts a call
or lets time pass. -/
theorem step_of_exhausted (hbusy : s.busy ≤ n) (hs : n ≤ s.touching)
    (hfail : ∀ i message, a ≠ .fail i message) (h : step n s a = some s') :
    s'.table = s.table ∧ s.calls <+: s'.calls ∧ n ≤ s'.touching := by
  have hsplit := s.busy_eq
  have htable : s'.table = s.table := by
    rcases (moves_of_step h).table with hsame | hchange
    · exact hsame
    · generalize s'.table = t' at hchange
      cases hchange <;> omega
  refine ⟨htable, ?_⟩
  rcases (moves_of_step h).calls with ⟨-, hsame⟩ | ⟨candidate, -, hnew⟩ | ⟨i, c, phase, hc, hp, -⟩
  · rw [State.touching, State.count, hsame]
    exact ⟨List.prefix_refl _, hs⟩
  · have hcount : s'.touching = s.touching + _ := State.count_append hnew Phase.isTouching
    exact ⟨hnew ▸ List.prefix_append _ _, by omega⟩
  · -- a call that compares rows would hold a connection and not wait
    have hscan : ∀ rows, c.phase ≠ .scanning rows := by
      intro rows hphase
      have hpos : 0 < s.scanning :=
        List.countP_pos_iff.mpr ⟨c, List.mem_of_getElem? hc, by rw [hphase]; rfl⟩
      omega
    cases hp with
    | select hfree => omega
    | exhausted hphase => exact absurd hphase (hscan _)
    | found hphase => exact absurd hphase (hscan _)
    | skipped hphase => exact absurd hphase (hscan _)
    | touch hfree => omega
    | ignored => exact absurd rfl (hfail i _)
    | acquireFailed => exact absurd rfl (hfail i _)
    | scanFailed => exact absurd rfl (hfail i _)

theorem deadlocked_iff (hn : 0 < n) (hbusy : s.busy ≤ n) : Deadlocked n s ↔ n ≤ s.touching := by
  constructor
  · intro h
    by_contra hfree
    obtain ⟨a, s', ha, hstep⟩ := exists_own_step h.waiting (Nat.lt_of_not_le hfree)
    obtain ⟨hwork, hlength, -⟩ := own_step ha hstep
    obtain ⟨htable, hprefix⟩ := h.forever [a] s' (run_cons.mpr ⟨s', hstep, rfl⟩) fun i message => by
      rintro hmem
      cases List.mem_singleton.mp hmem
      cases ha
    have hcalls : s.calls = s'.calls := hprefix.eq_of_length hlength.symm
    rw [State.work, State.work, htable, hcalls] at hwork
    exact absurd hwork (Nat.lt_irrefl _)
  · intro h
    have hwaiting : 0 < s.inFlight := by
      have hsplit := s.busy_eq
      have hflight := s.busy_le_inFlight
      omega
    refine ⟨hwaiting, fun as t hrun hfail => ?_⟩
    have hkeep := run_invariant_of_forall (fun t => t.busy ≤ n ∧ n ≤ t.touching ∧
      t.table = s.table ∧ s.calls <+: t.calls) (fun a => ∀ i message, a ≠ .fail i message)
      ?_ hrun (fun a ha i message hfailed => hfail i message (hfailed ▸ ha))
      ⟨hbusy, h, rfl, List.prefix_refl _⟩
    · exact hkeep.2.2
    · rintro u a v hguard ⟨hu, htouch, htable, hcalls⟩ hstep
      obtain ⟨htable', hcalls', htouch'⟩ := step_of_exhausted hu htouch hguard hstep
      exact ⟨busy_le_of_step hu hstep, htouch', htable'.trans htable, hcalls.trans hcalls'⟩

/-- A call whose rows hold a match gets to it. -/
theorem run_compare {i : ℕ} {candidate : GoString} {rows : List Row}
    (hmatch : ∃ r ∈ rows, compareHashAndPassword r.hash candidate = true) {s : State}
    (hc : s.calls[i]? = some ⟨candidate, .scanning rows⟩) :
    ∃ as key, run (step n) s as =
      some { s with calls := s.calls.set i ⟨candidate, .touching key⟩ } := by
  induction rows generalizing s with
  | nil => simp at hmatch
  | cons r rows ih =>
    have hlt : i < s.calls.length := (List.getElem?_eq_some_iff.mp hc).1
    by_cases hr : compareHashAndPassword r.hash candidate = true
    · have hnext : (Phase.scanning (r :: rows)).compared candidate = some (.touching r.scan) :=
        if_pos hr
      exact ⟨[.compare i], r.scan, run_cons.mpr ⟨_, State.advance_eq hc hnext, rfl⟩⟩
    · have hnext : (Phase.scanning (r :: rows)).compared candidate = some (.scanning rows) :=
        if_neg hr
      have hrest : ∃ r ∈ rows, compareHashAndPassword r.hash candidate = true := by
        simpa [hr] using hmatch
      obtain ⟨as, key, hrun⟩ := ih hrest (s := { s with
        calls := s.calls.set i ⟨candidate, .scanning rows⟩ }) (by simp [hlt])
      refine ⟨.compare i :: as, key, run_cons.mpr ⟨_, State.advance_eq hc hnext, ?_⟩⟩
      rw [hrun, List.set_set]

/-- With a key that matches, one call more can come to wait in `touchLastUsed` as long as
a connection is free. -/
theorem run_touching {candidate : GoString} (hne : candidate ≠ [])
    (hkey : ∃ r ∈ liveRows s.table s.now, compareHashAndPassword r.hash candidate = true)
    (hfree : s.busy < n) :
    ∃ as key, run (step n) s as =
      some { s with calls := s.calls ++ [⟨candidate, .touching key⟩] } := by
  have hfirst : firstPhase candidate = .acquiring := if_neg hne
  let u : State := { s with calls := s.calls ++ [⟨candidate, .acquiring⟩] }
  have hcall : step n s (.call candidate) = some u := by rw [step, hfirst]
  have hu : u.calls[s.calls.length]? = some ⟨candidate, .acquiring⟩ := by simp [u]
  have hbusy : u.busy < n := by
    have hcount : u.busy = s.busy + 0 :=
      State.count_append (s := s) (c := ⟨candidate, .acquiring⟩) rfl Phase.holds
    omega
  let v : State := { s with calls := s.calls ++ [⟨candidate, .scanning (liveRows s.table s.now)⟩] }
  have hselect : step n u (.select s.calls.length (liveRows s.table s.now)) = some v := by
    have hset : u.calls.set s.calls.length ⟨candidate, .scanning (liveRows s.table s.now)⟩ =
        v.calls := by simp [u, v]
    refine (if_pos ⟨hbusy, List.Perm.refl _⟩).trans ((State.advance_eq hu rfl).trans ?_)
    exact congrArg (fun calls => some { s with calls := calls }) hset
  have hv : v.calls[s.calls.length]? =
      some ⟨candidate, .scanning (liveRows s.table s.now)⟩ := by simp [v]
  obtain ⟨as, key, hrun⟩ := run_compare (n := n) hkey hv
  refine ⟨.call candidate :: .select s.calls.length (liveRows s.table s.now) :: as, key,
    run_cons.mpr ⟨u, hcall, run_cons.mpr ⟨v, hselect, hrun.trans ?_⟩⟩⟩
  simp [v]

/-- From a state without calls, up to `n` calls can come to wait. -/
theorem exists_run_touching (hs : s.calls = []) {candidate : GoString} (hne : candidate ≠ [])
    (hkey : ∃ r ∈ liveRows s.table s.now, compareHashAndPassword r.hash candidate = true)
    (j : ℕ) (hj : j ≤ n) :
    ∃ as t, run (step n) s as = some t ∧ t.table = s.table ∧ t.now = s.now ∧
      t.calls.length = j ∧ t.touching = j := by
  induction j with
  | zero => exact ⟨[], s, rfl, rfl, rfl, by rw [hs]; rfl, by rw [State.touching, State.count, hs]; rfl⟩
  | succ j ih =>
    obtain ⟨as, t, hrun, htable, hnow, hlength, htouching⟩ := ih (by omega)
    have hbusy : t.busy < n := by
      have hle : t.busy ≤ t.calls.length := List.countP_le_length
      omega
    obtain ⟨bs, key, hrun'⟩ := run_touching (n := n) hne (htable ▸ hnow ▸ hkey) hbusy
    refine ⟨as ++ bs, _, run_append.mpr ⟨t, hrun, hrun'⟩, htable, hnow, by simp [hlength], ?_⟩
    exact (State.count_append rfl Phase.isTouching).trans (congrArg (· + 1) htouching)

end

/-- On a pool of `n` connections, and with a key that somebody knows, `m` calls of
`Authenticate` can block each other for good if and only if `m` is at least `n`. -/
theorem authenticate_deadlocks_iff [Bcrypt] (n m : ℕ) (hn : 0 < n) (s : State) (hs : s.calls = [])
    (candidate : GoString) (hne : candidate ≠ [])
    (hkey : ∃ r ∈ liveRows s.table s.now, compareHashAndPassword r.hash candidate = true) :
    (∃ as t, run (step n) s as = some t ∧ t.calls.length ≤ m ∧ Deadlocked n t) ↔ n ≤ m := by
  have hbusy : s.busy ≤ n := by simp [State.busy, hs]
  constructor
  · rintro ⟨as, t, hrun, hlength, hdead⟩
    have htouching := (deadlocked_iff hn (busy_le_of_run hbusy hrun)).mp hdead
    have hle : t.touching ≤ t.calls.length := List.countP_le_length
    omega
  · intro hle
    obtain ⟨as, t, hrun, -, -, hlength, htouching⟩ := exists_run_touching hs hne hkey n le_rfl
    exact ⟨as, t, hrun, by omega, (deadlocked_iff hn (busy_le_of_run hbusy hrun)).mpr htouching.ge⟩

/-- A single connection is enough for a single call to wait for itself. -/
theorem single_connection_deadlocks : ∃ as t,
    run (@step plainBcrypt 1) sampleState as = some t ∧ t.calls.length ≤ 1 ∧
      @Deadlocked plainBcrypt 1 t :=
  (@authenticate_deadlocks_iff plainBcrypt 1 1 (by decide) sampleState rfl (samplePlaintext 1)
    (by decide +kernel) (by decide +kernel)).mpr le_rfl

/-- With fewer calls in flight than connections, the calls take at most `work` steps more,
and they stop only when all of them have returned. -/
theorem authenticate_finishes [Bcrypt] (n : ℕ) (s t : State) (as : List Action)
    (hflight : s.inFlight < n) (h : run (step n) s as = some t)
    (hown : ∀ a ∈ as, a.isOwn = true) :
    as.length ≤ s.work ∧ ((∀ a, a.isOwn = true → step n t a = none) →
      ∀ c ∈ t.calls, ∃ result, c.phase = .returned result) := by
  obtain ⟨hwork, hle⟩ := own_run hown h
  refine ⟨by omega, fun hstopped c hc => ?_⟩
  by_contra hwaiting
  have hpos : 0 < t.inFlight := by
    refine List.countP_pos_iff.mpr ⟨c, hc, ?_⟩
    cases hphase : c.phase with
    | returned result => exact absurd ⟨result, hphase⟩ hwaiting
    | _ => rfl
  have hfree : t.touching < n := by
    have hsplit := t.busy_eq
    have hbusy := t.busy_le_inFlight
    omega
  obtain ⟨a, t', ha, hstep⟩ := exists_own_step hpos hfree
  rw [hstopped a ha] at hstep
  cases hstep

/-- A call before its SELECT, on two connections. -/
theorem single_call_finishes :
    let s : State := { sampleState with calls := [⟨samplePlaintext 1, .acquiring⟩] }
    ∃ t, run (@step plainBcrypt 2) s (sampleCall s.table.rows).tail = some t ∧
      (sampleCall s.table.rows).tail.length ≤ s.work ∧
      ((∀ a, a.isOwn = true → @step plainBcrypt 2 t a = none) →
        ∀ c ∈ t.calls, ∃ result, c.phase = .returned result) := by
  intro s
  obtain ⟨t, ht⟩ := Option.isSome_iff_exists.mp
    (show (run (@step plainBcrypt 2) s (sampleCall s.table.rows).tail).isSome = true by
      decide +kernel)
  exact ⟨t, ht, @authenticate_finishes plainBcrypt 2 s t _ (by decide) ht (by decide +kernel)⟩

end ApiTest.Apikeys
