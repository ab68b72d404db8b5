import ApiTest.Audit.AsyncRuns
import ApiTest.Server.Drain

/-! The end of the process: `run` of the command calls `Run` and, when it has come back,
the deferred `Close` of the application, which closes the audit logger and then the
pool. The handlers are goroutines of the HTTP server: each may call `Log` any number of
times before it returns. `srv.Shutdown` comes back without an error only when no handler
is left, and none starts from then on; when it gives up after the grace period, or when
the listener fails, the handlers go on beside `Close`. -/

/-! ### How `Run` ends -/

namespace ApiTest.Server.Drain

open Text

/-- `Shutdown` has returned, or was never called and `Run` has returned. -/
def Phase.over : Phase → Bool
  | .collecting _ => true
  | .returned _ _ => true
  | _ => false

/-- The next phase of a `Run` that goes on. -/
inductive Next (s : State) (a : Action) : Phase → Prop where
  | failed (hphase : s.phase = .serving) (hreceives : s.receives = true) :
      Next s a (.returned none s.buffered)
  | forth {p : Phase} (hphase : s.phase.over = false) (hp : p.over = false) : Next s a p
  | gaveUp {call : ShutdownCall} {err : GoString} (hphase : s.phase = .shuttingDown call) :
      Next s a (.returned (some call) (some err))
  | emptied {call : ShutdownCall} (hphase : s.phase = .shuttingDown call)
      (ha : a = .shutdownReturns none) : Next s a (.collecting call)
  | complete {call : ShutdownCall} (hphase : s.phase = .collecting call) :
      Next s a (.returned (some call) none)

/-- Before `Shutdown` is called, the listener ends with an error only, and the error
waits in the channel from its send on. -/
def Fed (buffered : Option GoString) : Listener → Prop
  | .serving => True
  | .exited err => err.isSome = true
  | .sent => buffered.isSome = true
  | .closed => buffered.isSome = true

/-- While `Run` has neither called `Shutdown` nor returned. -/
def Errs (s : State) : Prop :=
  s.phase.shutdown = none → s.phase.over = false → Fed s.buffered s.listener

variable {delay : ℤ} {s t : State} {a : Action}

theorem next_of_take {branch : Branch} (h : take s branch = some t) :
    t.phase = s.phase ∨ Next s (.select branch) t.phase := by
  cases branch with
  | errCh =>
    simp only [take] at h
    split_ifs at h with hreceives
    split at h
    next hphase => cases h; exact .inr (.failed hphase hreceives)
    next hphase => cases h; exact .inr (.forth (by rw [hphase]; rfl) rfl)
    next hphase => cases h; exact .inr (.complete hphase)
    next => cases h
  | ctxDone =>
    simp only [take] at h
    split_ifs at h
    split at h
    next hphase => cases h; exact .inr (.forth (by rw [hphase]; rfl) rfl)
    next hphase => cases h; exact .inr (.forth (by rw [hphase]; rfl) rfl)
    next => cases h
  | timer =>
    simp only [take] at h
    split at h
    next hphase =>
      split_ifs at h
      cases h
      exact .inr (.forth (by rw [hphase]; rfl) rfl)
    next => cases h

theorem next_of_step (h : step delay s a = some t) : t.phase = s.phase ∨ Next s a t.phase := by
  cases a with
  | tick now =>
    simp only [step] at h
    split_ifs at h
    cases h
    exact .inl rfl
  | signal => cases h; exact .inl rfl
  | exit err =>
    simp only [step] at h
    split_ifs at h
    cases h
    exact .inl rfl
  | send =>
    simp only [step] at h
    split at h
    next => cases h; exact .inl rfl
    next => cases h
  | close =>
    simp only [step] at h
    split at h
    next => cases h; exact .inl rfl
    next => cases h; exact .inl rfl
    next => cases h
  | select branch => exact next_of_take h
  | proceed =>
    simp only [step] at h
    split at h
    next hphase => cases h; exact .inr (.forth (by rw [hphase]; rfl) rfl)
    next hphase =>
      split_ifs at h
      · cases h; exact .inr (.forth (by rw [hphase]; rfl) rfl)
      · cases h; exact .inr (.forth (by rw [hphase]; rfl) rfl)
    next => cases h
  | shutdownReturns err =>
    simp only [step] at h
    split at h
    next hphase => cases h; exact .inr (.gaveUp hphase)
    next hphase => cases h; exact .inr (.emptied hphase rfl)
    next => cases h

/-- What `Run` returned stays. -/
theorem returned_of_step {call : Option ShutdownCall} {err : Option GoString}
    (hs : s.phase = .returned call err) (h : step delay s a = some t) :
    t.phase = .returned call err := by
  obtain hsame | hnext := next_of_step h
  · rw [hsame, hs]
  · generalize t.phase = p at hnext
    cases hnext with
    | forth hphase _ => rw [hs] at hphase; cases hphase
    | failed hphase _ => rw [hs] at hphase; cases hphase
    | gaveUp hphase => rw [hs] at hphase; cases hphase
    | emptied hphase _ => rw [hs] at hphase; cases hphase
    | complete hphase => rw [hs] at hphase; cases hphase

theorem errs_of_take {branch : Branch} (hs : Errs s) (h : take s branch = some t) : Errs t := by
  cases branch with
  | errCh =>
    simp only [take] at h
    split_ifs at h
    split at h
    next => cases h; exact fun _ hover => by cases hover
    next => cases h; exact fun hcall _ => by cases hcall
    next => cases h; exact fun _ hover => by cases hover
    next => cases h
  | ctxDone =>
    simp only [take] at h
    split_ifs at h
    split at h
    next hphase => cases h; exact fun _ _ => hs (by rw [hphase]; rfl) (by rw [hphase]; rfl)
    next => cases h; exact fun hcall _ => by cases hcall
    next => cases h
  | timer =>
    simp only [take] at h
    split at h
    next =>
      split_ifs at h
      cases h
      exact fun hcall _ => by cases hcall
    next => cases h

theorem errs_of_step (hs : Errs s) (h : step delay s a = some t) : Errs t := by
  cases a with
  | tick now =>
    simp only [step] at h
    split_ifs at h
    cases h
    exact hs
  | signal => cases h; exact hs
  | exit err =>
    simp only [step] at h
    split_ifs at h with hexit
    cases h
    intro hcall _
    -- without a call of Shutdown, ListenAndServe has an error to report
    exact hexit.2.resolve_right (by dsimp only at hcall; simp [hcall])
  | send =>
    simp only [step] at h
    split at h
    next => cases h; exact fun _ _ => rfl
    next => cases h
  | close =>
    simp only [step] at h
    split at h
    next hl =>
      cases h
      intro hcall hover
      have hfed := hs hcall hover
      rw [hl] at hfed
      cases hfed
    next hl =>
      cases h
      intro hcall hover
      have hfed := hs hcall hover
      rw [hl] at hfed
      exact hfed
    next => cases h
  | select branch => exact errs_of_take hs h
  | proceed =>
    simp only [step] at h
    split at h
    next hphase => cases h; exact fun _ _ => hs (by rw [hphase]; rfl) (by rw [hphase]; rfl)
    next hphase =>
      split_ifs at h
      · cases h; exact fun _ _ => hs (by rw [hphase]; rfl) (by rw [hphase]; rfl)
      · cases h; exact fun hcall _ => by cases hcall
    next => cases h
  | shutdownReturns err =>
    simp only [step] at h
    split at h
    next => cases h; exact fun _ hover => by cases hover
    next => cases h; exact fun hcall _ => by cases hcall
    next => cases h

/-- A `Run` that never called `Shutdown` returns an error. -/
theorem not_nil_of_step (hs : Errs s) (hnil : s.phase ≠ .returned none none)
    (h : step delay s a = some t) : t.phase ≠ .returned none none := by
  intro ht
  obtain hsame | hnext := next_of_step h
  · exact hnil (hsame ▸ ht)
  · generalize hp : t.phase = p at hnext
    rw [ht] at hp
    cases hnext with
    | failed hphase hreceives =>
      have hfed := hs (by rw [hphase]; rfl) (by rw [hphase]; rfl)
      have hnone : s.buffered = none := by injection hp.symm
      simp only [State.receives, hnone, Option.isSome_none, Bool.false_or, beq_iff_eq] at hreceives
      rw [hreceives, hnone] at hfed
      cases hfed
    | forth _ hover => rw [← hp] at hover; cases hover
    | gaveUp _ => cases hp
    | emptied _ _ => cases hp
    | complete _ => cases hp

end ApiTest.Server.Drain

namespace ApiTest.Server.Process

open Text Transition Audit.Async

/-! ### The processes -/

/-- A handler: outside of `Log`, in the call with this number, or returned. -/
inductive Handler where
  | running
  | logging (call : ℕ)
  | returned
  deriving DecidableEq, Repr

/-- Where the main goroutine is: in `Run`, in `asyncAudit.Close()`, past it and about to
close the pool. -/
inductive Main where
  | running
  | closing
  | closed
  deriving DecidableEq, Repr

structure State (ε : Type*) where
  drain : Drain.State
  logger : Logger ε := newAsyncLogger
  handlers : List Handler := []
  main : Main := .running

/-- `Run` takes a step; a handler starts, calls `Log`, goes on behind it, returns; the
logger works inside a call or in its worker; the main goroutine calls the logger's
`Close` and comes back from it. -/
inductive Action (ε : Type*) where
  | run (a : Drain.Action)
  | accept
  | call (j : ℕ) (ev : ε)
  | resume (j : ℕ)
  | finish (j : ℕ)
  | work (a : Act ε)
  | close
  | closeReturns

variable {ε : Type*}

/-- `Shutdown` has come back without an error. -/
def quiet : Drain.Phase → Bool
  | .collecting _ => true
  | .returned (some _) none => true
  | _ => false

/-- The steps of the logger's own goroutine and of the calls that are under way. -/
def inner : Act ε → Bool
  | .log _ => false
  | .close => false
  | .closeReturns => false
  | _ => true

/-- The call with this number has returned. -/
def ended (l : Logger ε) (i : ℕ) : Bool := (l.calls[i]?.map Call.hasReturned).getD false

def step (delay : ℤ) (depth : ℕ) (s : State ε) : Action ε → Option (State ε)
  | .run a =>
    if a = .shutdownReturns none ∧ ¬ s.handlers.all (· == .returned) then none
    else (Drain.step delay s.drain a).map fun d => { s with drain := d }
  | .accept =>
    if quiet s.drain.phase then none else some { s with handlers := s.handlers ++ [.running] }
  | .call j ev =>
    if s.handlers[j]? = some .running then
      (Audit.Async.step depth s.logger (.log ev)).map fun l =>
        { s with logger := l, handlers := s.handlers.set j (.logging s.logger.calls.length) }
    else none
  | .resume j => match s.handlers[j]? with
    | some (.logging i) =>
      if ended s.logger i then some { s with handlers := s.handlers.set j .running } else none
    | _ => none
  | .finish j =>
    if s.handlers[j]? = some .running then some { s with handlers := s.handlers.set j .returned }
    else none
  | .work a =>
    if inner a then (Audit.Async.step depth s.logger a).map fun l => { s with logger := l } else none
  | .close => match s.main, s.drain.phase with
    | .running, .returned _ _ =>
      (Audit.Async.step depth s.logger .close).map fun l => { s with logger := l, main := .closing }
    | _, _ => none
  | .closeReturns => match s.main with
    | .closing =>
      (Audit.Async.step depth s.logger .closeReturns).map fun l => { s with logger := l, main := .closed }
    | _ => none

/-- `Run` is called at some time, with no request yet. -/
def start (now : ℤ) : State ε := { drain := Drain.start now }

/-- The branches of `step`. -/
inductive Moves (delay : ℤ) (depth : ℕ) (s : State ε) : Action ε → State ε → Prop where
  | run {a : Drain.Action} {d : Drain.State} (hd : Drain.step delay s.drain a = some d)
      (hall : a = .shutdownReturns none → ∀ h ∈ s.handlers, h = .returned) :
      Moves delay depth s (.run a) { s with drain := d }
  | accept (hquiet : quiet s.drain.phase = false) :
      Moves delay depth s .accept { s with handlers := s.handlers ++ [.running] }
  | call {j : ℕ} {ev : ε} (hj : s.handlers[j]? = some .running) :
      Moves delay depth s (.call j ev) { s with
        logger := { s.logger with calls := s.logger.calls ++ [⟨ev, .selecting⟩] }
        handlers := s.handlers.set j (.logging s.logger.calls.length) }
  | resume {j i : ℕ} (hj : s.handlers[j]? = some (.logging i)) (hi : ended s.logger i = true) :
      Moves delay depth s (.resume j) { s with handlers := s.handlers.set j .running }
  | finish {j : ℕ} (hj : s.handlers[j]? = some .running) :
      Moves delay depth s (.finish j) { s with handlers := s.handlers.set j .returned }
  | work {a : Act ε} {l : Logger ε} (ha : inner a = true) (hl : Audit.Async.step depth s.logger a = some l) :
      Moves delay depth s (.work a) { s with logger := l }
  | close {call : Option Drain.ShutdownCall} {err : Option GoString} {l : Logger ε}
      (hmain : s.main = .running) (hphase : s.drain.phase = .returned call err)
      (hl : Audit.Async.step depth s.logger .close = some l) :
      Moves delay depth s .close { s with logger := l, main := .closing }
  | closeReturns {l : Logger ε} (hmain : s.main = .closing)
      (hl : Audit.Async.step depth s.logger .closeReturns = some l) :
      Moves delay depth s .closeReturns { s with logger := l, main := .closed }

section Runs
variable {delay now : ℤ} {depth : ℕ} {s t : State ε} {a : Action ε} {as : List (Action ε)}

theorem moves_of_step (h : step delay depth s a = some t) : Moves delay depth s a t := by
  cases a with
  | run a =>
    simp only [step] at h
    split_ifs at h with hguard
    obtain ⟨d, hd, rfl⟩ := Option.map_eq_some_iff.mp h
    refine .run hd fun ha => ?_
    simpa [ha] using hguard
  | accept =>
    simp only [step] at h
    split_ifs at h with hquiet
    cases h
    exact .accept (by simpa using hquiet)
  | call j ev =>
    simp only [step] at h
    split_ifs at h with hj
    cases h
    exact .call hj
  | resume j =>
    simp only [step] at h
    split at h
    next i hj =>
      split_ifs at h with hi
      cases h
      exact .resume hj hi
    next => cases h
  | finish j =>
    simp only [step] at h
    split_ifs at h with hj
    cases h
    exact .finish hj
  | work a =>
    simp only [step] at h
    split_ifs at h with ha
    obtain ⟨l, hl, rfl⟩ := Option.map_eq_some_iff.mp h
    exact .work ha hl
  | close =>
    simp only [step] at h
    split at h
    next call err hmain hphase =>
      obtain ⟨l, hl, rfl⟩ := Option.map_eq_some_iff.mp h
      exact .close hmain hphase hl
    next => cases h
  | closeReturns =>
    simp only [step] at h
    split at h
    next hmain =>
      obtain ⟨l, hl, rfl⟩ := Option.map_eq_some_iff.mp h
      exact .closeReturns hmain hl
    next => cases h

/-! ### The invariant -/

/-- What holds in every run: a call of `Log` that has not returned has its handler in
it, no handler is left once `Shutdown` is back without an error, the logger is stopped
only when `Run` has returned, and then its worker leaves an empty channel behind. -/
structure Inv (depth : ℕ) (s : State ε) : Prop where
  logger : Audit.Async.Inv depth s.logger
  errs : Drain.Errs s.drain
  notNil : s.drain.phase ≠ .returned none none
  pending : ∀ i c, s.logger.calls[i]? = some c → c.hasReturned = false → .logging i ∈ s.handlers
  idle : quiet s.drain.phase = true → ∀ h ∈ s.handlers, h = .returned
  returned : s.main ≠ .running → ∃ call err, s.drain.phase = .returned call err
  stopped : s.logger.stop = true → s.main ≠ .running
  emptied : quiet s.drain.phase = true → s.logger.worker = .done → s.logger.ch = []
  waiting : s.main = .closing → s.logger.stop = true ∧ 0 < s.logger.closing
  closed : s.main = .closed → 0 < s.logger.closed

theorem inv_start : Inv depth (start now : State ε) where
  logger := inv_newAsyncLogger
  errs := fun _ _ => trivial
  notNil := by simp [start, Drain.start]
  pending := by simp [start, newAsyncLogger]
  idle := by simp [start]
  returned := by simp [start]
  stopped := by simp [start, newAsyncLogger]
  emptied := by simp [start, newAsyncLogger]
  waiting := by simp [start]
  closed := by simp [start]

/-- Once `Shutdown` is back without an error, every call of `Log` has returned. -/
theorem Inv.ended (h : Inv depth s) (hquiet : quiet s.drain.phase = true) :
    ∀ c ∈ s.logger.calls, c.hasReturned = true := by
  intro c hc
  obtain ⟨i, hi⟩ := List.mem_iff_getElem?.mp hc
  by_contra hopen
  have hmem := h.pending i c hi (by simpa using hopen)
  cases h.idle hquiet _ hmem

/-- The worker has left only when the main goroutine is in `Close`. -/
theorem Inv.main_of_done (h : Inv depth s) (hdone : s.logger.worker = .done) : s.main ≠ .running :=
  h.stopped (h.logger.stopped (by rw [hdone]; rfl))

/-- No handler is in the call `i` where it was not before, and the one at `j` was not. -/
theorem mem_set_of_ne {hs : List Handler} {i j : ℕ} {g g' : Handler} (hj : hs[j]? = some g)
    (hne : g ≠ .logging i) (hmem : .logging i ∈ hs) : .logging i ∈ hs.set j g' := by
  obtain ⟨k, hk⟩ := List.mem_iff_getElem?.mp hmem
  refine List.mem_iff_getElem?.mpr ⟨k, ?_⟩
  rw [List.getElem?_set_ne (fun hjk => hne ?_), hk]
  rw [hjk, hk] at hj
  exact (Option.some_inj.mp hj).symm

/-- A step of the logger does not reopen a call, and makes none. -/
theorem open_of_inner {l m : Logger ε} {a : Act ε} (ha : inner a = true)
    (h : Audit.Async.step depth l a = some m) {i : ℕ} {c : Call ε} (hc : m.calls[i]? = some c)
    (hopen : c.hasReturned = false) : ∃ c', l.calls[i]? = some c' ∧ c'.hasReturned = false := by
  have hset : ∀ {k : ℕ} {ev : ε} {pc pc' : LogPc}, l.calls[k]? = some ⟨ev, pc⟩ →
      (⟨ev, pc⟩ : Call ε).hasReturned = false → (l.calls.set k ⟨ev, pc'⟩)[i]? = some c →
      ∃ c', l.calls[i]? = some c' ∧ c'.hasReturned = false := by
    intro k ev pc pc' hget hpc hm
    by_cases hk : k = i
    · exact ⟨_, hk ▸ hget, hpc⟩
    · rw [List.getElem?_set_ne hk] at hm
      exact ⟨c, hm, hopen⟩
  cases Audit.Async.moves_of_step h with
  | log | close | closeReturns => cases ha
  | select k ev hget =>
    unfold trySend at hc
    split_ifs at hc <;> exact hset hget rfl hc
  | count k ev hget => exact hset hget rfl hc
  | retSent k ev hget => exact hset hget rfl hc
  | retCounted k ev total hget => exact hset hget rfl hc
  | receive | observeStop | hand | innerReturns | drained => exact ⟨c, hc, hopen⟩

theorem stop_of_inner {l m : Logger ε} {a : Act ε} (ha : inner a = true)
    (h : Audit.Async.step depth l a = some m) : m.stop = l.stop ∧ m.closing = l.closing ∧ m.closed = l.closed := by
  cases Audit.Async.moves_of_step h with
  | log | close | closeReturns => cases ha
  | select k ev hget =>
    unfold trySend
    split_ifs <;> exact ⟨rfl, rfl, rfl⟩
  | count | retSent | retCounted | receive | observeStop | hand | innerReturns | drained =>
    exact ⟨rfl, rfl, rfl⟩

theorem Inv.run (h : Inv depth s) {a : Drain.Action} {d : Drain.State}
    (hd : Drain.step delay s.drain a = some d)
    (hall : a = .shutdownReturns none → ∀ h ∈ s.handlers, h = .returned) :
    Inv depth { s with drain := d } := by
  have hret : s.main ≠ .running → ∃ call err, d.phase = .returned call err := fun hmain =>
    let ⟨call, err, hphase⟩ := h.returned hmain
    ⟨call, err, Drain.returned_of_step hphase hd⟩
  -- the phase becomes a quiet one in the step in which Shutdown finds no handler
  have hnew : quiet d.phase = true → quiet s.drain.phase = true ∨
      ((∀ h ∈ s.handlers, h = .returned) ∧ s.drain.phase.over = false) := by
    intro hquiet
    obtain hsame | hnext := Drain.next_of_step hd
    · exact .inl (hsame ▸ hquiet)
    · generalize d.phase = p at hnext hquiet
      cases hnext with
      | failed => cases hquiet
      | gaveUp => cases hquiet
      | forth _ hp =>
        cases p with
        | collecting => cases hp
        | returned => cases hp
        | _ => cases hquiet
      | emptied hphase ha => exact .inr ⟨hall ha, by rw [hphase]; rfl⟩
      | complete hphase => exact .inl (by rw [hphase]; rfl)
  exact { h with
    errs := Drain.errs_of_step h.errs hd
    notNil := Drain.not_nil_of_step h.errs h.notNil hd
    idle := fun hquiet => (hnew hquiet).elim h.idle And.left
    returned := hret
    emptied := fun hquiet hdone => by
      obtain hq | ⟨-, hover⟩ := hnew hquiet
      · exact h.emptied hq hdone
      · obtain ⟨call, err, hphase⟩ := h.returned (h.main_of_done hdone)
        rw [hphase] at hover
        cases hover }

theorem Inv.work (h : Inv depth s) {a : Act ε} {l : Logger ε} (ha : inner a = true)
    (hl : Audit.Async.step depth s.logger a = some l) : Inv depth { s with logger := l } := by
  obtain ⟨hstop, hclosing, hclosed⟩ := stop_of_inner ha hl
  refine { h with
    logger := Audit.Async.step_inv h.logger a hl
    pending := ?_
    stopped := fun hs => h.stopped (hstop ▸ hs)
    emptied := ?_
    waiting := fun hmain => by rw [hstop, hclosing]; exact h.waiting hmain
    closed := fun hmain => hclosed ▸ h.closed hmain }
  · intro i c hc hopen
    obtain ⟨c', hc', hopen'⟩ := open_of_inner ha hl hc hopen
    exact h.pending i c' hc' hopen'
  · intro hquiet hdone
    obtain hbefore | hch := step_to_done hl hdone
    · obtain ⟨-, hch | ⟨i, ev, rfl, -, -⟩⟩ := step_of_done hl hbefore
      · exact hch.trans (h.emptied hquiet hbefore)
      · -- a send would need a call that has not returned
        cases Audit.Async.moves_of_step hl with
        | select _ _ hget => cases h.ended hquiet _ (List.mem_of_getElem? hget)
    · exact hch

theorem Inv.call (h : Inv depth s) {j : ℕ} (ev : ε) (hj : s.handlers[j]? = some .running) :
    Inv depth { s with
      logger := { s.logger with calls := s.logger.calls ++ [⟨ev, .selecting⟩] }
      handlers := s.handlers.set j (.logging s.logger.calls.length) } := by
  have hloud : quiet s.drain.phase = true → False := fun hquiet => by
    cases h.idle hquiet _ (List.mem_of_getElem? hj)
  refine { h with
    logger := Audit.Async.step_inv h.logger (.log ev) rfl
    pending := ?_
    idle := fun hquiet => (hloud hquiet).elim
    emptied := fun hquiet => (hloud hquiet).elim }
  intro i c hc hopen
  by_cases hi : i < s.logger.calls.length
  · rw [List.getElem?_append_left hi] at hc
    exact mem_set_of_ne hj (by simp) (h.pending i c hc hopen)
  · have hlast : i = s.logger.calls.length := by
      have hlt : i < (s.logger.calls ++ [(⟨ev, .selecting⟩ : Call ε)]).length :=
        (List.getElem?_eq_some_iff.mp hc).1
      simp only [List.length_append, List.length_singleton] at hlt
      omega
    have hjlt : j < s.handlers.length := (List.getElem?_eq_some_iff.mp hj).1
    rw [hlast]
    exact List.mem_iff_getElem?.mpr ⟨j, List.getElem?_set_self hjlt⟩

theorem step_inv (h : Inv depth s) (hstep : step delay depth s a = some t) : Inv depth t := by
  cases moves_of_step hstep with
  | run hd hall => exact h.run hd hall
  | accept hquiet =>
    exact { h with
      pending := fun i c hc hopen => List.mem_append_left _ (h.pending i c hc hopen)
      idle := fun hq => by rw [hquiet] at hq; cases hq }
  | call hj => exact h.call _ hj
  | resume hj hi =>
    refine { h with
      pending := fun i c hc hopen => mem_set_of_ne hj ?_ (h.pending i c hc hopen)
      idle := fun hq => by cases h.idle hq _ (List.mem_of_getElem? hj) }
    rintro ⟨⟩
    rw [Process.ended, hc, Option.map_some, Option.getD_some, hopen] at hi
    cases hi
  | finish hj =>
    exact { h with
      pending := fun i c hc hopen => mem_set_of_ne hj (by simp) (h.pending i c hc hopen)
      idle := fun hq => by cases h.idle hq _ (List.mem_of_getElem? hj) }
  | work ha hl => exact h.work ha hl
  | close hmain hphase hl =>
    cases hl
    exact { h with
      logger := h.logger.close
      returned := fun _ => ⟨_, _, hphase⟩
      stopped := fun _ => by simp
      waiting := fun _ => ⟨rfl, Nat.succ_pos _⟩
      closed := by simp }
  | closeReturns hmain hl =>
    cases Audit.Async.moves_of_step hl with
    | closeReturns hw hpos =>
      exact { h with
        logger := Audit.Async.step_inv h.logger .closeReturns hl
        returned := fun _ => h.returned (by rw [hmain]; simp)
        stopped := fun _ => by simp
        waiting := by simp
        closed := fun _ => Nat.succ_pos _ }

theorem run_inv (h : Transition.run (step delay depth) (start now) as = some s) : Inv depth s :=
  run_invariant (Inv depth) (fun _ _ _ hi hs => step_inv hi hs) h inv_start

/-! ### What becomes of the events -/

/-- The call is before its send and before its count. -/
def underway (c : Call ε) : Bool := !c.wasSent && !c.wasCounted

/-- The calls are the sent ones, the counted ones and those under way. -/
theorem evs_calls (calls : List (Call ε)) : (calls.map Call.ev).Perm
    (evs Call.wasSent calls ++ (evs Call.wasCounted calls ++ evs underway calls)) := by
  have hcounted : (calls.filter (fun c => !c.wasSent)).filter Call.wasCounted =
      calls.filter Call.wasCounted := by
    rw [List.filter_filter]
    apply List.filter_congr
    rintro ⟨ev, pc⟩ -
    cases pc with
    | returned dropped => cases dropped <;> rfl
    | _ => rfl
  have hrest : (calls.filter (fun c => !c.wasSent)).filter (fun c => !c.wasCounted) =
      calls.filter underway := by
    rw [List.filter_filter]
    exact List.filter_congr fun c _ => Bool.and_comm _ _
  have hsent := (List.filter_append_perm Call.wasSent calls).symm
  have hopen := (List.filter_append_perm Call.wasCounted (calls.filter fun c => !c.wasSent)).symm
  rw [hcounted, hrest] at hopen
  simpa [evs] using (hsent.trans (hopen.append_left _)).map Call.ev

theorem Inv.perm (h : Inv depth s) (hdone : s.logger.worker = .done) :
    (s.logger.calls.map Call.ev).Perm (s.logger.handed ++ (s.logger.ch ++
      (s.logger.countedEvents ++ evs underway s.logger.calls))) := by
  have hfifo := h.logger.fifo
  rw [hdone, show (Worker.done : Worker ε).inHand = [] from rfl, List.append_nil] at hfifo
  refine (evs_calls s.logger.calls).trans ?_
  rw [← List.append_assoc s.logger.handed, ← hfifo]
  exact h.logger.sent.append_right _

end Runs

/-- When the logger's `Close` is back, whatever `Run` returned, the worker has left, so that
nothing is written to the pool that is closed next, and each event passed to `Log` has been handed to the store,
was counted as dropped, is left in the channel or belongs to a call that is under way.
When `Run` has returned no error, every handler has returned and no event is of the last
two kinds. -/
theorem shutdown_accounts (delay now bufferSize : ℤ) (as : List (Action ε)) (s : State ε)
    (h : Transition.run (step delay (bufferDepth bufferSize)) (start now) as = some s)
    (hmain : s.main = .closed) :
    s.logger.worker = .done ∧
      (s.logger.calls.map Call.ev).Perm (s.logger.handed ++ (s.logger.ch ++
        (s.logger.countedEvents ++ evs underway s.logger.calls))) ∧
      ∀ call, s.drain.phase = .returned call none →
        (∀ h ∈ s.handlers, h = .returned) ∧ s.logger.Accounted := by
  have hinv := run_inv h
  have hdone := hinv.logger.closed (hinv.closed hmain)
  refine ⟨hdone, hinv.perm hdone, fun call hphase => ?_⟩
  have hquiet : quiet s.drain.phase = true := by
    cases call with
    | none => exact absurd hphase hinv.notNil
    | some call => rw [hphase]; rfl
  exact ⟨hinv.idle hquiet, (accounted_iff_ch hinv.logger ⟨hinv.closed hmain, hinv.ended hquiet⟩).mpr
    (hinv.emptied hquiet hdone)⟩

/-- A request logs one event while a signal ends `Run`, up to the call of `Close`. -/
def oneRequest : List (Action ℕ) :=
  [.accept, .run .signal, .call 0 7, .run (.select .ctxDone), .run .proceed, .work (.select 0),
    .run .proceed, .work (.ret 0), .resume 0, .finish 0, .run (.shutdownReturns none),
    .run (.exit none), .run .close, .run (.select .errCh), .close]

/-- `Close` waits for the worker. -/
def oneClose : List (Action ℕ) :=
  [.work .receive, .work .hand, .work (.innerReturns false), .work .observeStop, .work .drained,
    .closeReturns]

theorem one_request_accounts : ∃ s : State ℕ,
    Transition.run (step 0 (bufferDepth 1)) (start 0) (oneRequest ++ oneClose) = some s ∧
      s.main = .closed ∧ s.logger.Accounted := by
  obtain ⟨s, hs, hend⟩ := Option.map_eq_some_iff.mp
    (show (Transition.run (step 0 (bufferDepth 1)) (start 0) (oneRequest ++ oneClose)).map
      (fun s => (s.main, s.drain.phase)) =
        some (.closed, .returned (some ⟨0, 0, false, 1⟩) none) by decide)
  rw [Prod.mk.injEq] at hend
  exact ⟨s, hs, hend.1, ((shutdown_accounts 0 0 1 _ s hs hend.1).2.2 _ hend.2).2⟩

/-- A handler that outlives the grace period sends into a channel nobody reads. -/
example : (Transition.run (step 0 (bufferDepth 1)) (start 0) [.accept, .run .signal,
    .run (.select .ctxDone), .run .proceed, .run .proceed,
    .run (.shutdownReturns (some (lit "context deadline exceeded"))), .close, .work .observeStop,
    .work .drained, .call 0 7, .work (.select 0), .closeReturns]).map
      (fun s : State ℕ => (s.main, s.logger.handed, s.logger.dropped, s.logger.ch)) =
    some (.closed, [], 0, [7]) := by decide

/-! ### `Close` returns -/

/-- The steps the logger is waited for with. -/
def Action.closes : Action ε → Bool
  | .work a => inner a
  | .closeReturns => true
  | _ => false

def rounds (draining : Bool) : ℕ := if draining then 1 else 2

/-- The steps the worker still takes for the event it has and to leave. -/
def toLeave : Worker ε → ℕ
  | .selecting draining => rounds draining
  | .holding draining _ => rounds draining + 2
  | .writing draining _ => rounds draining + 1
  | .done => 0

/-- The steps left until `Close` is back. -/
def left (s : State ε) : ℕ :=
  3 * s.logger.ch.length + toLeave s.logger.worker + if s.main = .closing then 1 else 0

section Closing
variable {delay now : ℤ} {depth : ℕ} {s t : State ε} {a : Action ε} {as : List (Action ε)}

/-- The part of the state that `Close` relies on. -/
def Settled (depth : ℕ) (s : State ε) : Prop :=
  Inv depth s ∧ quiet s.drain.phase = true ∧ s.main ≠ .running

theorem closes_step (s : State ε) (a : Action ε) (t : State ε) (ha : a.closes = true)
    (h : Settled depth s) (hstep : step delay depth s a = some t) :
    Settled depth t ∧ left t + 1 ≤ left s := by
  obtain ⟨hinv, hquiet, hmain⟩ := h
  have hinv' := step_inv hinv hstep
  have hended := hinv.ended hquiet
  cases moves_of_step hstep with
  | run | accept | call | resume | finish | close => cases ha
  | work hinner hl =>
    refine ⟨⟨hinv', hquiet, hmain⟩, ?_⟩
    cases Audit.Async.moves_of_step hl with
    | log | close | closeReturns => cases hinner
    | select _ _ hget => cases hended _ (List.mem_of_getElem? hget)
    | count _ _ hget => cases hended _ (List.mem_of_getElem? hget)
    | retSent _ _ hget => cases hended _ (List.mem_of_getElem? hget)
    | retCounted _ _ _ hget => cases hended _ (List.mem_of_getElem? hget)
    | receive draining ev rest hw hch => simp only [left, hw, hch, toLeave, List.length_cons]; omega
    | observeStop hw _ => simp only [left, hw, toLeave, rounds, if_true, Bool.false_eq_true, if_false]; omega
    | hand draining ev hw => simp only [left, hw, toLeave]; omega
    | innerReturns err draining ev hw => simp only [left, hw, toLeave]; omega
    | drained hw hch => simp only [left, hw, toLeave, rounds, if_true]; omega
  | closeReturns hclosing hl =>
    refine ⟨⟨hinv', hquiet, by simp⟩, ?_⟩
    cases Audit.Async.moves_of_step hl with
    | closeReturns hw hpos => simp [left, hclosing]

/-- While `Close` waits, some goroutine it waits for can go on. -/
theorem exists_closes (delay : ℤ) (h : Settled depth s) (hclosing : s.main = .closing) :
    ∃ a t, a.closes = true ∧ step delay depth s a = some t := by
  obtain ⟨hstop, hpos⟩ := h.1.waiting hclosing
  have hwork : ∀ a : Act ε, inner a = true → (Audit.Async.step depth s.logger a).isSome = true →
      ∃ a t, a.closes = true ∧ step delay depth s a = some t := by
    intro a ha hsome
    obtain ⟨l, hl⟩ := Option.isSome_iff_exists.mp hsome
    exact ⟨.work a, { s with logger := l }, ha, by simp [step, ha, hl]⟩
  cases hw : s.logger.worker with
  | selecting draining =>
    cases hch : s.logger.ch with
    | nil =>
      cases draining with
      | false => exact hwork .observeStop rfl (by simp [Audit.Async.step, hw, hstop])
      | true => exact hwork .drained rfl (by simp [Audit.Async.step, hw, hch])
    | cons ev rest => exact hwork .receive rfl (by simp [Audit.Async.step, hw, hch])
  | holding draining ev => exact hwork .hand rfl (by simp [Audit.Async.step, hw])
  | writing draining ev => exact hwork (.innerReturns false) rfl (by simp [Audit.Async.step, hw])
  | done =>
    have hsome : (step delay depth s .closeReturns).isSome = true := by
      simp [step, hclosing, Audit.Async.step, hw, hpos]
    obtain ⟨t, ht⟩ := Option.isSome_iff_exists.mp hsome
    exact ⟨.closeReturns, t, rfl, ht⟩

theorem left_le (h : Inv depth s) : left s ≤ 3 * depth + 5 := by
  have hbounded := h.logger.bounded
  have hworker : toLeave s.logger.worker ≤ 4 := by
    cases s.logger.worker with
    | selecting draining => cases draining <;> simp [toLeave, rounds]
    | holding draining ev => cases draining <;> simp [toLeave, rounds]
    | writing draining ev => cases draining <;> simp [toLeave, rounds]
    | done => simp [toLeave]
  unfold left
  split_ifs <;> omega

end Closing

/-- When `Run` has returned no error, `Close` waits for at most three steps for each
place of the channel and five more, and nothing it waits for gets stuck: the steps end
when `Close` is back. -/
theorem close_finishes (delay now bufferSize : ℤ) (as bs : List (Action ε)) (s t : State ε)
    (h : Transition.run (step delay (bufferDepth bufferSize)) (start now) as = some s)
    (call : Option Drain.ShutdownCall) (hphase : s.drain.phase = .returned call none)
    (hmain : s.main = .closing)
    (hrun : Transition.run (step delay (bufferDepth bufferSize)) s bs = some t)
    (hbs : ∀ b ∈ bs, b.closes = true) :
    bs.length ≤ 3 * bufferDepth bufferSize + 5 ∧
      ((∀ b, b.closes = true → step delay (bufferDepth bufferSize) t b = none) →
        t.main = .closed) := by
  have hinv := run_inv h
  have hquiet : quiet s.drain.phase = true := by
    cases call with
    | none => exact absurd hphase hinv.notNil
    | some call => rw [hphase]; rfl
  obtain ⟨hsettled, hlength⟩ := run_measure (Settled (bufferDepth bufferSize)) left
    (fun a => a.closes = true) closes_step hrun hbs ⟨hinv, hquiet, by rw [hmain]; simp⟩
  refine ⟨?_, fun hstuck => ?_⟩
  · have hle := left_le hinv
    omega
  · cases hend : t.main with
    | running => exact absurd hend hsettled.2.2
    | closed => rfl
    | closing =>
      obtain ⟨b, u, hb, hu⟩ := exists_closes delay hsettled hend
      rw [hstuck b hb] at hu
      cases hu

theorem one_close_finishes : ∃ s t : State ℕ,
    Transition.run (step 0 (bufferDepth 1)) (start 0) oneRequest = some s ∧
      Transition.run (step 0 (bufferDepth 1)) s oneClose = some t ∧
      oneClose.length ≤ 3 * bufferDepth 1 + 5 := by
  obtain ⟨t, ht⟩ := Option.isSome_iff_exists.mp
    (show (Transition.run (step 0 (bufferDepth 1)) (start 0) (oneRequest ++ oneClose)).isSome = true
      by decide)
  obtain ⟨s, hs, hst⟩ := run_append.mp ht
  have hend : (Transition.run (step 0 (bufferDepth 1)) (start 0) oneRequest).map
      (fun s => (s.main, s.drain.phase)) =
        some (.closing, .returned (some ⟨0, 0, false, 1⟩) none) := by decide
  rw [hs, Option.map_some, Option.some_inj, Prod.mk.injEq] at hend
  exact ⟨s, t, hs, hst, (close_finishes 0 0 1 oneRequest oneClose s t hs _ hend.2 hend.1 hst
    (by decide)).1⟩

end ApiTest.Server.Process
