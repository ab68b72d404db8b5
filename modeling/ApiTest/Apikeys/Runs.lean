import ApiTest.Apikeys.Store
import ApiTest.Transition.Run

/-! The key store under load: any number of `Authenticate` calls between creations and
deletions of keys. A call is no transaction. Its SELECT takes a snapshot of the keys that
have not expired, the comparisons run outside the database, and the time of the last use
is written by a statement of its own. All statements draw on one pool of `n` connections;
the rows of the SELECT stay open until the call returns, so a call that has found its key
holds one connection while it waits for a second. -/

namespace ApiTest.Apikeys

open Text Audit Relational Transition

/-! ### The processes -/

/-- Where a call of `Authenticate` is: before its SELECT, at the rows that are still to
be compared, before `touchLastUsed`, returned. -/
inductive Phase where
  | acquiring
  | scanning (rows : List Row)
  | touching (key : Key)
  | returned (result : Except AuthError Key)
  deriving DecidableEq

/-- The phases in which a call holds a connection. -/
def Phase.holds : Phase → Bool
  | .scanning _ => true
  | .touching _ => true
  | _ => false

structure Call where
  candidate : GoString
  phase : Phase
  deriving DecidableEq

/-- The table, the clock of the database and the calls so far. -/
structure State where
  table : KeyTable
  now : ℤ
  calls : List Call := []

/-- The connections in use. -/
def State.busy (s : State) : ℕ := s.calls.countP fun c => c.phase.holds

/-- Time passes, a key is created or deleted, a call starts, its SELECT returns rows in
some order, it compares the next row, it writes the time of the last use. A statement may
fail at any time, also because the context of its call is done. -/
inductive Action where
  | tick (now : ℤ)
  | create (m : Mint) (k : NewKey)
  | delete (name : GoString)
  | call (candidate : GoString)
  | select (i : ℕ) (rows : List Row)
  | compare (i : ℕ)
  | touch (i : ℕ)
  | fail (i : ℕ) (message : GoString)

/-- The call whose step it is. -/
def Action.index : Action → Option ℕ
  | .select i _ => some i
  | .compare i => some i
  | .touch i => some i
  | .fail i _ => some i
  | _ => none

namespace State

/-- The next phase of a call, if it has one. -/
def advance (s : State) (i : ℕ) (next : Call → Option Phase) : Option State :=
  (s.calls[i]?).bind fun c => (next c).map fun phase =>
    { s with calls := s.calls.set i ⟨c.candidate, phase⟩ }

end State

theorem State.advance_eq_some {s s' : State} {i : ℕ} {next : Call → Option Phase}
    (h : s.advance i next = some s') : ∃ c phase, s.calls[i]? = some c ∧ next c = some phase ∧
      s' = { s with calls := s.calls.set i ⟨c.candidate, phase⟩ } := by
  obtain ⟨c, hc, hmap⟩ := Option.bind_eq_some_iff.mp h
  obtain ⟨phase, hphase, rfl⟩ := Option.map_eq_some_iff.mp hmap
  exact ⟨c, phase, hc, hphase, rfl⟩

theorem State.advance_eq {s : State} {i : ℕ} {c : Call} {next : Call → Option Phase}
    {phase : Phase} (hc : s.calls[i]? = some c) (hnext : next c = some phase) :
    s.advance i next = some { s with calls := s.calls.set i ⟨c.candidate, phase⟩ } := by
  rw [State.advance, hc, Option.bind_some, hnext, Option.map_some]

section
variable [Bcrypt]

/-- The first phase: `Authenticate` returns at once on an empty candidate. -/
def firstPhase (candidate : GoString) : Phase :=
  if candidate = [] then .returned (.error .notFound) else .acquiring

def Phase.selected (rows : List Row) : Phase → Option Phase
  | .acquiring => some (.scanning rows)
  | _ => none

/-- One round of the loop over the rows. -/
def Phase.compared (candidate : GoString) : Phase → Option Phase
  | .scanning [] => some (.returned (.error .notFound))
  | .scanning (r :: rows) =>
    if compareHashAndPassword r.hash candidate then some (.touching r.scan)
    else some (.scanning rows)
  | _ => none

def Phase.touched : Phase → Option Phase
  | .touching key => some (.returned (.ok key))
  | _ => none

/-- A failed `touchLastUsed` is ignored. -/
def Phase.failed (message : GoString) : Phase → Option Phase
  | .acquiring => some (.returned (.error (.database message)))
  | .scanning _ => some (.returned (.error (.database message)))
  | .touching key => some (.returned (.ok key))
  | .returned _ => none

/-- The table after the `touchLastUsed` of a call. -/
def State.touchedTable (s : State) (i : ℕ) : KeyTable :=
  match s.calls[i]?.map Call.phase with
  | some (.touching key) => touchLastUsed s.table s.now key.id
  | _ => s.table

/-- One step, with a pool of `n` connections. -/
def step (n : ℕ) (s : State) : Action → Option State
  | .tick now => if s.now ≤ now then some { s with now := now } else none
  | .create m k =>
    if k.name ≠ [] ∧ n ≤ s.busy then none
    else match create s.table m k with
      | .ok (t, _) => some { s with table := t }
      | .error _ => some s
  | .delete name =>
    if n ≤ s.busy then none
    else some { s with table := (delete s.table name).getD s.table }
  | .call candidate =>
    some { s with calls := s.calls ++ [⟨candidate, firstPhase candidate⟩] }
  | .select i rows =>
    if s.busy < n ∧ rows.Perm (liveRows s.table s.now) then
      s.advance i fun c => c.phase.selected rows
    else none
  | .compare i => s.advance i fun c => c.phase.compared c.candidate
  | .touch i =>
    if s.busy < n then
      (s.advance i fun c => c.phase.touched).map fun s' =>
        { s' with table := s.touchedTable i }
    else none
  | .fail i message => s.advance i fun c => c.phase.failed message

/-! ### What a step can do -/

/-- A call moves on under an action; the table is the one its SELECT sees. -/
inductive Proceeds (n : ℕ) (s : State) (c : Call) (i : ℕ) : Action → Phase → Prop
  | select {rows : List Row} (hfree : s.busy < n) (hphase : c.phase = .acquiring)
      (hrows : rows.Perm (liveRows s.table s.now)) :
      Proceeds n s c i (.select i rows) (.scanning rows)
  | exhausted (hphase : c.phase = .scanning []) :
      Proceeds n s c i (.compare i) (.returned (.error .notFound))
  | found {r : Row} {rows : List Row} (hphase : c.phase = .scanning (r :: rows))
      (hmatch : compareHashAndPassword r.hash c.candidate = true) :
      Proceeds n s c i (.compare i) (.touching r.scan)
  | skipped {r : Row} {rows : List Row} (hphase : c.phase = .scanning (r :: rows))
      (hmatch : compareHashAndPassword r.hash c.candidate = false) :
      Proceeds n s c i (.compare i) (.scanning rows)
  | touch {key : Key} (hfree : s.busy < n) (hphase : c.phase = .touching key) :
      Proceeds n s c i (.touch i) (.returned (.ok key))
  | ignored {key : Key} {message : GoString} (hphase : c.phase = .touching key) :
      Proceeds n s c i (.fail i message) (.returned (.ok key))
  | acquireFailed {message : GoString} (hphase : c.phase = .acquiring) :
      Proceeds n s c i (.fail i message) (.returned (.error (.database message)))
  | scanFailed {rows : List Row} {message : GoString} (hphase : c.phase = .scanning rows) :
      Proceeds n s c i (.fail i message) (.returned (.error (.database message)))

/-- The ways the table changes, each by a statement that has a connection. -/
inductive Changes (n : ℕ) (s : State) : Action → KeyTable → Prop
  | create {m : Mint} {k : NewKey} {t : KeyTable} {created : Created} (hfree : s.busy < n)
      (h : create s.table m k = .ok (t, created)) : Changes n s (.create m k) t
  | delete {name : GoString} (hfree : s.busy < n) :
      Changes n s (.delete name) (s.table.delete fun r => r.name = name)
  | touch {i : ℕ} {c : Call} {key : Key} (hfree : s.busy < n) (hc : s.calls[i]? = some c)
      (hphase : c.phase = .touching key) :
      Changes n s (.touch i) (touchLastUsed s.table s.now key.id)

/-- What a step does to each of the three parts of the state. -/
structure Moves (n : ℕ) (s : State) (a : Action) (s' : State) : Prop where
  clock : s.now ≤ s'.now
  table : s'.table = s.table ∨ Changes n s a s'.table
  calls : (a.index = none ∧ s'.calls = s.calls) ∨
    (∃ candidate, a = .call candidate ∧
      s'.calls = s.calls ++ [⟨candidate, firstPhase candidate⟩]) ∨
    ∃ i c phase, s.calls[i]? = some c ∧ Proceeds n s c i a phase ∧
      s'.calls = s.calls.set i ⟨c.candidate, phase⟩

theorem proceeds_compare {n : ℕ} {s : State} {c : Call} {i : ℕ} {phase : Phase}
    (h : c.phase.compared c.candidate = some phase) : Proceeds n s c i (.compare i) phase := by
  cases hphase : c.phase with
  | scanning rows =>
    cases rows with
    | nil =>
      rw [hphase] at h
      cases h
      exact .exhausted hphase
    | cons r rows =>
      rw [hphase, Phase.compared] at h
      split_ifs at h with hmatch <;> cases h
      · exact .found hphase hmatch
      · exact .skipped hphase (Bool.eq_false_iff.mpr hmatch)
  | _ =>
    rw [hphase] at h
    cases h

theorem proceeds_fail {n : ℕ} {s : State} {c : Call} {i : ℕ} {phase : Phase} {message : GoString}
    (h : c.phase.failed message = some phase) : Proceeds n s c i (.fail i message) phase := by
  cases hphase : c.phase <;> rw [hphase] at h <;> cases h
  · exact .acquireFailed hphase
  · exact .scanFailed hphase
  · exact .ignored hphase

theorem moves_of_step {n : ℕ} {s s' : State} {a : Action} (h : step n s a = some s') :
    Moves n s a s' := by
  cases a with
  | tick now =>
    rw [step] at h
    split_ifs at h with hle
    cases h
    exact ⟨hle, .inl rfl, .inl ⟨rfl, rfl⟩⟩
  | create m k =>
    rw [step] at h
    split_ifs at h with hbusy
    split at h <;> cases h
    · next hcreate =>
      have hfree : s.busy < n := by
        by_contra hfull
        exact hbusy ⟨(create_eq_ok hcreate).1, Nat.le_of_not_lt hfull⟩
      exact ⟨Int.le_refl _, .inr (.create hfree hcreate), .inl ⟨rfl, rfl⟩⟩
    · exact ⟨Int.le_refl _, .inl rfl, .inl ⟨rfl, rfl⟩⟩
  | delete name =>
    rw [step] at h
    split_ifs at h with hbusy
    cases h
    refine ⟨Int.le_refl _, ?_, .inl ⟨rfl, rfl⟩⟩
    refine (delete_getD s.table name).imp id fun htable => ?_
    show Changes n s (.delete name) ((Apikeys.delete s.table name).getD s.table)
    rw [htable]
    exact .delete (Nat.lt_of_not_le hbusy)
  | call candidate =>
    cases h
    exact ⟨Int.le_refl _, .inl rfl, .inr (.inl ⟨candidate, rfl, rfl⟩)⟩
  | select i rows =>
    rw [step] at h
    split_ifs at h with hselect
    obtain ⟨c, phase, hc, hnext, rfl⟩ := State.advance_eq_some h
    refine ⟨Int.le_refl _, .inl rfl, .inr (.inr ⟨i, c, phase, hc, ?_, rfl⟩)⟩
    cases hphase : c.phase <;> rw [hphase] at hnext <;> cases hnext
    exact .select hselect.1 hphase hselect.2
  | compare i =>
    obtain ⟨c, phase, hc, hnext, rfl⟩ := State.advance_eq_some h
    exact ⟨Int.le_refl _, .inl rfl, .inr (.inr ⟨i, c, phase, hc, proceeds_compare hnext, rfl⟩)⟩
  | touch i =>
    rw [step] at h
    split_ifs at h with hfree
    obtain ⟨t, ht, rfl⟩ := Option.map_eq_some_iff.mp h
    obtain ⟨c, phase, hc, hnext, rfl⟩ := State.advance_eq_some ht
    cases hphase : c.phase with
    | touching key =>
      rw [hphase] at hnext
      cases hnext
      have htable : s.touchedTable i = touchLastUsed s.table s.now key.id := by
        rw [State.touchedTable, hc, Option.map_some, hphase]
      refine ⟨Int.le_refl _, .inr ?_, .inr (.inr ⟨i, c, _, hc, .touch hfree hphase, rfl⟩)⟩
      show Changes n s (.touch i) (s.touchedTable i)
      rw [htable]
      exact .touch hfree hc hphase
    | _ =>
      rw [hphase] at hnext
      cases hnext
  | fail i message =>
    obtain ⟨c, phase, hc, hnext, rfl⟩ := State.advance_eq_some h
    exact ⟨Int.le_refl _, .inl rfl, .inr (.inr ⟨i, c, phase, hc, proceeds_fail hnext, rfl⟩)⟩

/-- Where a call comes from: it was there as it is, it has just started, or it has moved
on. -/
theorem call_of_step {n : ℕ} {s s' : State} {a : Action} (h : step n s a = some s') {i : ℕ}
    {c : Call} (hc : s'.calls[i]? = some c) :
    s.calls[i]? = some c ∨ (i = s.calls.length ∧ c.phase = firstPhase c.candidate) ∨
      ∃ c₀, s.calls[i]? = some c₀ ∧ c₀.candidate = c.candidate ∧ Proceeds n s c₀ i a c.phase := by
  rcases (moves_of_step h).calls with ⟨-, hsame⟩ | ⟨candidate, -, hnew⟩ | ⟨j, c₀, phase, hj, hp, hset⟩
  · rw [hsame] at hc
    exact .inl hc
  · rw [hnew] at hc
    rw [List.getElem?_append] at hc
    split_ifs at hc with hlt
    · exact .inl hc
    · right
      left
      rw [List.getElem?_singleton] at hc
      split_ifs at hc with hzero
      cases hc
      exact ⟨by omega, rfl⟩
  · rw [hset, List.getElem?_set] at hc
    split_ifs at hc with hij hlt
    · subst hij
      cases hc
      exact .inr (.inr ⟨c₀, hj, rfl, hp⟩)
    · exact .inl hc

theorem length_calls_of_step {n : ℕ} {s s' : State} {a : Action} (h : step n s a = some s') :
    s.calls.length ≤ s'.calls.length := by
  rcases (moves_of_step h).calls with ⟨-, hsame⟩ | ⟨candidate, -, hnew⟩ | ⟨j, c₀, phase, hj, hp, hset⟩
  · rw [hsame]
  · simp [hnew]
  · simp [hset]

end

end ApiTest.Apikeys
