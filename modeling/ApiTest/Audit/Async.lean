import Mathlib.Data.Int.Notation
import ApiTest.Transition.Run

/-! The asynchronous audit logger as an interleaving of its goroutines: any
number of `Log` calls, the worker of `run`, and any number of `Close` calls.
Each action is one step of one goroutine that the others can observe. A `select`
with several ready branches may take any of them; a `default` branch is taken
only when no other is ready. Besides the source's own fields the state records
the history the properties are about: the sends the channel accepted, the events
handed to `inner.Log`, and how many sends had been accepted when `stop` was
closed. The model is generic in the event, which the logger only carries. -/

namespace ApiTest.Audit.Async

variable {ε : Type*}

/-- Where one `Log` call stands. -/
inductive LogPc where
  /-- Before its `select`. -/
  | selecting
  /-- In the `default` branch, with `dropped` not yet increased. -/
  | dropping
  /-- Past the critical section; `total` is its copy of the counter. -/
  | counted (total : ℕ)
  | sent
  | returned (dropped : Bool)
  deriving DecidableEq, Repr

structure Call (ε : Type*) where
  ev : ε
  pc : LogPc

/-- The worker goroutine. The flag says which of the two loops of `run` it is
in: `true` for the draining loop it enters when it sees `stop` closed. -/
inductive Worker (ε : Type*) where
  | selecting (draining : Bool)
  /-- Received `ev`, about to call `inner.Log`. -/
  | holding (draining : Bool) (ev : ε)
  /-- Inside `inner.Log`. -/
  | writing (draining : Bool) (ev : ε)
  | done

/-- The state of the logger and of all its goroutines. -/
structure Logger (ε : Type*) where
  ch : List ε := []
  stop : Bool := false
  dropped : ℕ := 0
  calls : List (Call ε) := []
  worker : Worker ε := .selecting false
  /-- `Close` calls waiting for the worker, and those that have returned. -/
  closing : ℕ := 0
  closed : ℕ := 0
  /-- Totals logged as "audit buffer full; dropping events". -/
  warned : List ℕ := []
  /-- Events logged as "audit write failed". -/
  failed : List ε := []
  accepted : List ε := []
  handed : List ε := []
  stopMark : Option ℕ := none

/-- The channel depth `NewAsyncLogger` chooses. -/
def bufferDepth (bufferSize : ℤ) : ℕ :=
  if bufferSize ≤ 0 then 1024 else bufferSize.toNat

/-- `NewAsyncLogger`: an empty channel and a worker at its first `select`. -/
def newAsyncLogger : Logger ε := {}

inductive Act (ε : Type*) where
  /-- Some goroutine calls `Log`. -/
  | log (ev : ε)
  /-- Call `i` runs its `select`. -/
  | select (i : ℕ)
  /-- Call `i` increases `dropped` under the mutex. -/
  | count (i : ℕ)
  | ret (i : ℕ)
  | receive
  | observeStop
  | hand
  | innerReturns (err : Bool)
  | drained
  /-- Some goroutine calls `Close` and closes `stop` if it is the first. -/
  | close
  | closeReturns

def setPc (s : Logger ε) (i : ℕ) (ev : ε) (pc : LogPc) : Logger ε :=
  { s with calls := s.calls.set i ⟨ev, pc⟩ }

/-- The `select` of `Log`: the send when the channel has room, `default`
otherwise. -/
def trySend (depth : ℕ) (s : Logger ε) (i : ℕ) (ev : ε) : Logger ε :=
  if s.ch.length < depth then
    { setPc s i ev .sent with ch := s.ch ++ [ev], accepted := s.accepted ++ [ev] }
  else setPc s i ev .dropping

/-- One action, or `none` when the goroutine it belongs to is not at that point
or is blocked. -/
def step (depth : ℕ) (s : Logger ε) : Act ε → Option (Logger ε)
  | .log ev => some { s with calls := s.calls ++ [⟨ev, .selecting⟩] }
  | .select i => match s.calls[i]? with
    | some ⟨ev, .selecting⟩ => some (trySend depth s i ev)
    | _ => none
  | .count i => match s.calls[i]? with
    | some ⟨ev, .dropping⟩ =>
      some { setPc s i ev (.counted (s.dropped + 1)) with dropped := s.dropped + 1 }
    | _ => none
  | .ret i => match s.calls[i]? with
    | some ⟨ev, .sent⟩ => some (setPc s i ev (.returned false))
    | some ⟨ev, .counted total⟩ => some { setPc s i ev (.returned true) with
        warned := if total % 1000 = 1 then s.warned ++ [total] else s.warned }
    | _ => none
  | .receive => match s.worker, s.ch with
    | .selecting draining, ev :: rest =>
      some { s with worker := .holding draining ev, ch := rest }
    | _, _ => none
  | .observeStop => match s.worker with
    | .selecting false => if s.stop then some { s with worker := .selecting true } else none
    | _ => none
  | .hand => match s.worker with
    | .holding draining ev =>
      some { s with worker := .writing draining ev, handed := s.handed ++ [ev] }
    | _ => none
  | .innerReturns err => match s.worker with
    | .writing draining ev => some { s with
        worker := .selecting draining
        failed := if err then s.failed ++ [ev] else s.failed }
    | _ => none
  | .drained => match s.worker, s.ch with
    | .selecting true, [] => some { s with worker := .done }
    | _, _ => none
  | .close => some { s with
      stop := true
      closing := s.closing + 1
      stopMark := if s.stop then s.stopMark else some s.accepted.length }
  | .closeReturns => match s.worker with
    | .done => if 0 < s.closing then
        some { s with closing := s.closing - 1, closed := s.closed + 1 } else none
    | _ => none

/-- The branches of `step`: what an enabled action finds and what it leaves. -/
inductive Moves (depth : ℕ) (s : Logger ε) : Act ε → Logger ε → Prop where
  | log (ev : ε) : Moves depth s (.log ev) { s with calls := s.calls ++ [⟨ev, .selecting⟩] }
  | select (i : ℕ) (ev : ε) (hget : s.calls[i]? = some ⟨ev, .selecting⟩) :
      Moves depth s (.select i) (trySend depth s i ev)
  | count (i : ℕ) (ev : ε) (hget : s.calls[i]? = some ⟨ev, .dropping⟩) :
      Moves depth s (.count i)
        { setPc s i ev (.counted (s.dropped + 1)) with dropped := s.dropped + 1 }
  | retSent (i : ℕ) (ev : ε) (hget : s.calls[i]? = some ⟨ev, .sent⟩) :
      Moves depth s (.ret i) (setPc s i ev (.returned false))
  | retCounted (i : ℕ) (ev : ε) (total : ℕ) (hget : s.calls[i]? = some ⟨ev, .counted total⟩) :
      Moves depth s (.ret i) { setPc s i ev (.returned true) with
        warned := if total % 1000 = 1 then s.warned ++ [total] else s.warned }
  | receive (draining : Bool) (ev : ε) (rest : List ε) (hw : s.worker = .selecting draining)
      (hch : s.ch = ev :: rest) :
      Moves depth s .receive { s with worker := .holding draining ev, ch := rest }
  | observeStop (hw : s.worker = .selecting false) (hstop : s.stop = true) :
      Moves depth s .observeStop { s with worker := .selecting true }
  | hand (draining : Bool) (ev : ε) (hw : s.worker = .holding draining ev) :
      Moves depth s .hand { s with worker := .writing draining ev, handed := s.handed ++ [ev] }
  | innerReturns (err draining : Bool) (ev : ε) (hw : s.worker = .writing draining ev) :
      Moves depth s (.innerReturns err) { s with
        worker := .selecting draining
        failed := if err then s.failed ++ [ev] else s.failed }
  | drained (hw : s.worker = .selecting true) (hch : s.ch = []) :
      Moves depth s .drained { s with worker := .done }
  | close : Moves depth s .close { s with
      stop := true
      closing := s.closing + 1
      stopMark := if s.stop then s.stopMark else some s.accepted.length }
  | closeReturns (hw : s.worker = .done) (hpos : 0 < s.closing) :
      Moves depth s .closeReturns { s with closing := s.closing - 1, closed := s.closed + 1 }

theorem moves_of_step {depth : ℕ} {s t : Logger ε} {a : Act ε} (h : step depth s a = some t) :
    Moves depth s a t := by
  cases a with
  | log ev => cases h; exact .log ev
  | close => cases h; exact .close
  | select i =>
    simp only [step] at h
    split at h
    next ev hget => cases h; exact .select i ev hget
    next => contradiction
  | count i =>
    simp only [step] at h
    split at h
    next ev hget => cases h; exact .count i ev hget
    next => contradiction
  | ret i =>
    simp only [step] at h
    split at h
    next ev hget => cases h; exact .retSent i ev hget
    next ev total hget => cases h; exact .retCounted i ev total hget
    next => contradiction
  | receive =>
    simp only [step] at h
    split at h
    next draining ev rest hw hch => cases h; exact .receive draining ev rest hw hch
    next => contradiction
  | observeStop =>
    simp only [step] at h
    split at h
    next hw =>
      split_ifs at h with hstop
      cases h
      exact .observeStop hw hstop
    next => contradiction
  | hand =>
    simp only [step] at h
    split at h
    next draining ev hw => cases h; exact .hand draining ev hw
    next => contradiction
  | innerReturns err =>
    simp only [step] at h
    split at h
    next draining ev hw => cases h; exact .innerReturns err draining ev hw
    next => contradiction
  | drained =>
    simp only [step] at h
    split at h
    next hw hch => cases h; exact .drained hw hch
    next => contradiction
  | closeReturns =>
    simp only [step] at h
    split at h
    next hw =>
      split_ifs at h with hpos
      cases h
      exact .closeReturns hw hpos
    next => contradiction

/-! ### The ledger of calls -/

/-- The send of this call went through. -/
def Call.wasSent (c : Call ε) : Bool :=
  match c.pc with | .sent | .returned false => true | _ => false

/-- This call has been counted in `dropped`. -/
def Call.wasCounted (c : Call ε) : Bool :=
  match c.pc with | .counted _ | .returned true => true | _ => false

def Call.hasReturned (c : Call ε) : Bool :=
  match c.pc with | .returned _ => true | _ => false

/-- The event received from the channel and not yet handed to `inner.Log`. -/
def Worker.inHand : Worker ε → List ε
  | .holding _ ev => [ev]
  | _ => []

def Worker.sawStop : Worker ε → Bool
  | .selecting draining | .holding draining _ | .writing draining _ => draining
  | .done => true

/-- The events of the calls counted in `dropped`. -/
def Logger.countedEvents (s : Logger ε) : List ε :=
  (s.calls.filter Call.wasCounted).map Call.ev

theorem perm_set_of_getElem? {α : Type*} {l : List α} {i : ℕ} {a : α} (h : l[i]? = some a)
    (b : α) : ∃ rest, l.Perm (a :: rest) ∧ (l.set i b).Perm (b :: rest) := by
  obtain ⟨hi, ha⟩ := List.getElem?_eq_some_iff.mp h
  refine ⟨l.take i ++ l.drop (i + 1), ?_, ?_⟩
  · nth_rewrite 1 [← List.take_append_drop i l, List.drop_eq_getElem_cons hi, ha]
    exact List.perm_middle
  · rw [List.set_eq_take_append_cons_drop, if_pos hi]
    exact List.perm_middle

end ApiTest.Audit.Async
