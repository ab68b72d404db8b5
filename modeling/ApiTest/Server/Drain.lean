import ApiTest.Text.GoString
import ApiTest.Transition.Run

/-! The life of `Application.Run`, from serving to its return. The main goroutine waits
in a `select` for the listener or the end of its context, sets readiness to false, is to
wait for the pre-shutdown delay in a second `select`, and calls `srv.Shutdown`. The
context is that of `signal.NotifyContext`: it is done from the first termination signal
on and stays so. The second `select` waits for the same context, so the signal that
started the shutdown also ends the delay, and the second signal that the branch is
meant for makes no difference. -/

namespace ApiTest.Server.Drain

open Text

/-! ### The processes -/

/-- The goroutine of the listener: `ListenAndServe` returns, with `none` for
`ErrServerClosed`; any other error is sent; the channel is closed. -/
inductive Listener where
  | serving
  | exited (err : Option GoString)
  | sent
  | closed
  deriving DecidableEq, Repr

/-- How things stand when `srv.Shutdown` is called: since when readiness is false, the
time, whether the listener has exited, and how many signals have arrived. -/
structure ShutdownCall where
  since : ℤ
  calledAt : ℤ
  exited : Bool
  signals : ℕ
  deriving DecidableEq, Repr

/-- Where `Run` is: in its first `select`, before `SetReady(false)`, behind it, in the
`select` of the delay with the time its timer fires, in `Shutdown`, in the last receive,
returned. -/
inductive Phase where
  | serving
  | requested
  | draining (since : ℤ)
  | delaying (since timer : ℤ)
  | shuttingDown (call : ShutdownCall)
  | collecting (call : ShutdownCall)
  | returned (call : Option ShutdownCall) (err : Option GoString)
  deriving DecidableEq, Repr

/-- `errCh` holds at most one error, and may be closed. -/
structure State where
  now : ℤ
  signals : ℕ := 0
  ready : Bool := true
  listener : Listener := .serving
  buffered : Option GoString := none
  phase : Phase := .serving
  deriving DecidableEq, Repr

inductive Branch where
  | errCh
  | ctxDone
  | timer
  deriving DecidableEq, Repr

/-- Time passes, a signal arrives, the listener moves on, the main goroutine takes a
branch of the `select` it waits in, goes on to the next one, or comes back from
`Shutdown`. -/
inductive Action where
  | tick (now : ℤ)
  | signal
  | exit (err : Option GoString)
  | send
  | close
  | select (branch : Branch)
  | proceed
  | shutdownReturns (err : Option GoString)
  deriving DecidableEq, Repr

namespace State

/-- A receive from `errCh` does not block. -/
def receives (s : State) : Bool := s.buffered.isSome || s.listener == .closed

/-- The context is done. -/
def ctxDone (s : State) : Bool := 1 ≤ s.signals

/-- A call of `srv.Shutdown` now. -/
def call (s : State) (since : ℤ) : ShutdownCall := ⟨since, s.now, s.listener ≠ .serving, s.signals⟩

end State

def Phase.shutdown : Phase → Option ShutdownCall
  | .shuttingDown call => some call
  | .collecting call => some call
  | .returned call _ => call
  | _ => none

/-- A branch of the `select` the main goroutine is in; only a ready one can be taken,
and any ready one may be. -/
def take (s : State) : Branch → Option State
  | .errCh =>
    if s.receives then
      match s.phase with
      | .serving => some { s with buffered := none, phase := .returned none s.buffered }
      | .delaying since _ => some { s with buffered := none, phase := .shuttingDown (s.call since) }
      | .collecting call => some { s with buffered := none, phase := .returned (some call) none }
      | _ => none
    else none
  | .ctxDone =>
    if s.ctxDone then
      match s.phase with
      | .serving => some { s with phase := .requested }
      | .delaying since _ => some { s with phase := .shuttingDown (s.call since) }
      | _ => none
    else none
  | .timer =>
    match s.phase with
    | .delaying since timer =>
      if timer ≤ s.now then some { s with phase := .shuttingDown (s.call since) } else none
    | _ => none

/-- One atomic step, for a pre-shutdown delay. `ListenAndServe` returns
`ErrServerClosed` only when `Shutdown` has been called. -/
def step (delay : ℤ) (s : State) : Action → Option State
  | .tick now => if s.now ≤ now then some { s with now := now } else none
  | .signal => some { s with signals := s.signals + 1 }
  | .exit err =>
    if s.listener = .serving ∧ (err.isSome ∨ s.phase.shutdown.isSome) then
      some { s with listener := .exited err }
    else none
  | .send =>
    match s.listener with
    | .exited (some err) => some { s with listener := .sent, buffered := some err }
    | _ => none
  | .close =>
    match s.listener with
    | .exited none => some { s with listener := .closed }
    | .sent => some { s with listener := .closed }
    | _ => none
  | .select branch => take s branch
  | .proceed =>
    match s.phase with
    | .requested => some { s with ready := false, phase := .draining s.now }
    | .draining since =>
      if 0 < delay then some { s with phase := .delaying since (s.now + delay) }
      else some { s with phase := .shuttingDown (s.call since) }
    | _ => none
  | .shutdownReturns err =>
    match s.phase, err with
    | .shuttingDown call, some err =>
      some { s with phase := .returned (some call) (some (lit "shutdown: " ++ err)) }
    | .shuttingDown call, none => some { s with phase := .collecting call }
    | _, _ => none

/-- `Run` is called at some time. -/
def start (now : ℤ) : State := { now := now }

/-! ### The delay -/

/-- The delay is honoured: it has passed since readiness was set to false, or the
listener has exited, or a second signal has arrived. -/
def ShutdownCall.Honours (delay : ℤ) (c : ShutdownCall) : Prop :=
  c.since + delay ≤ c.calledAt ∨ c.exited = true ∨ 2 ≤ c.signals

instance (delay : ℤ) : DecidablePred (ShutdownCall.Honours delay) :=
  fun _ => inferInstanceAs (Decidable (_ ∨ _))

/-- `Shutdown` is not called too early. -/
def Honoured (delay : ℤ) (s : State) : Prop := ∀ c, s.phase.shutdown = some c → c.Honours delay

/-- Nothing is left to wait for: a second signal has arrived, the listener has exited, or
the delay has passed since readiness was set to false. -/
def State.Waited (delay : ℤ) (s : State) (since : ℤ) : Prop :=
  2 ≤ s.signals ∨ s.listener ≠ .serving ∨ since + delay ≤ s.now

/-- The `select` of the delay is entered when there is nothing left to wait for. -/
def EntersLate (delay : ℤ) (s : State) : Action → Prop
  | .proceed => ∀ since, s.phase = .draining since → s.Waited delay since
  | _ => True

/-! ### What a step can do -/

/-- The steps of the clock, the signals, the listener, and `Run` from one `select` to the next. -/
inductive Moves (delay : ℤ) (s : State) : Action → State → Prop
  | tick {now : ℤ} (hle : s.now ≤ now) : Moves delay s (.tick now) { s with now := now }
  | signal : Moves delay s .signal { s with signals := s.signals + 1 }
  | exit {err : Option GoString} (hserving : s.listener = .serving) :
      Moves delay s (.exit err) { s with listener := .exited err }
  | send {err : GoString} (hexited : s.listener = .exited (some err)) :
      Moves delay s .send { s with listener := .sent, buffered := some err }
  | close (hserving : s.listener ≠ .serving) : Moves delay s .close { s with listener := .closed }
  | failed (hphase : s.phase = .serving) :
      Moves delay s (.select .errCh) { s with buffered := none, phase := .returned none s.buffered }
  | requested (hphase : s.phase = .serving) (hdone : s.ctxDone = true) :
      Moves delay s (.select .ctxDone) { s with phase := .requested }
  | unready (hphase : s.phase = .requested) :
      Moves delay s .proceed { s with ready := false, phase := .draining s.now }
  | undelayed {since : ℤ} (hphase : s.phase = .draining since) (hdelay : delay ≤ 0) :
      Moves delay s .proceed { s with phase := .shuttingDown (s.call since) }
  | enter {since : ℤ} (hphase : s.phase = .draining since) :
      Moves delay s .proceed { s with phase := .delaying since (s.now + delay) }
  | listener {since timer : ℤ} (hphase : s.phase = .delaying since timer)
      (hreceives : s.receives = true) :
      Moves delay s (.select .errCh) { s with buffered := none, phase := .shuttingDown (s.call since) }
  | context {since timer : ℤ} (hphase : s.phase = .delaying since timer) :
      Moves delay s (.select .ctxDone) { s with phase := .shuttingDown (s.call since) }
  | timer {since timer : ℤ} (hphase : s.phase = .delaying since timer) (htimer : timer ≤ s.now) :
      Moves delay s (.select .timer) { s with phase := .shuttingDown (s.call since) }
  | gaveUp {call : ShutdownCall} {err : GoString} (hphase : s.phase = .shuttingDown call) :
      Moves delay s (.shutdownReturns (some err))
        { s with phase := .returned (some call) (some (lit "shutdown: " ++ err)) }
  | emptied {call : ShutdownCall} (hphase : s.phase = .shuttingDown call) :
      Moves delay s (.shutdownReturns none) { s with phase := .collecting call }
  | collected {call : ShutdownCall} (hphase : s.phase = .collecting call) :
      Moves delay s (.select .errCh) { s with buffered := none, phase := .returned (some call) none }

section Runs
variable {delay now : ℤ} {s t : State} {a : Action}

theorem moves_of_take {branch : Branch} (h : take s branch = some t) :
    Moves delay s (.select branch) t := by
  cases branch with
  | errCh =>
    simp only [take] at h
    split_ifs at h with hreceives
    split at h
    next hphase => cases h; exact .failed hphase
    next hphase => cases h; exact .listener hphase hreceives
    next hphase => cases h; exact .collected hphase
    next => cases h
  | ctxDone =>
    simp only [take] at h
    split_ifs at h with hdone
    split at h
    next hphase => cases h; exact .requested hphase hdone
    next hphase => cases h; exact .context hphase
    next => cases h
  | timer =>
    simp only [take] at h
    split at h
    next hphase =>
      split_ifs at h with htimer
      cases h
      exact .timer hphase htimer
    next => cases h

theorem moves_of_step (h : step delay s a = some t) : Moves delay s a t := by
  cases a with
  | tick now =>
    simp only [step] at h
    split_ifs at h with hle
    cases h
    exact .tick hle
  | signal => cases h; exact .signal
  | exit err =>
    simp only [step] at h
    split_ifs at h with hexit
    cases h
    exact .exit hexit.1
  | send =>
    simp only [step] at h
    split at h
    next hexited => cases h; exact .send hexited
    next => cases h
  | close =>
    simp only [step] at h
    split at h
    next hexited => cases h; exact .close (by simp [hexited])
    next hsent => cases h; exact .close (by simp [hsent])
    next => cases h
  | select branch => exact moves_of_take h
  | proceed =>
    simp only [step] at h
    split at h
    next hphase => cases h; exact .unready hphase
    next since hphase =>
      split_ifs at h with hdelay
      · cases h
        exact .enter hphase
      · cases h
        exact .undelayed hphase (Int.not_lt.mp hdelay)
    next => cases h
  | shutdownReturns err =>
    simp only [step] at h
    split at h
    next hphase => cases h; exact .gaveUp hphase
    next hphase => cases h; exact .emptied hphase
    next => cases h

/-! ### Every run -/

/-- `Run` is between the end of its context and the call of `Shutdown`. -/
def Phase.drains : Phase → Bool
  | .requested => true
  | .draining _ => true
  | .delaying _ _ => true
  | _ => false

/-- What holds in every run. -/
structure Inv (delay : ℤ) (s : State) : Prop where
  exited : s.receives = true → s.listener ≠ .serving
  draining : ∀ since, s.phase = .draining since → since ≤ s.now
  delaying : ∀ since timer, s.phase = .delaying since timer → since + delay ≤ timer
  signalled : s.phase.drains = true → s.ctxDone = true

theorem inv_start : Inv delay (start now) :=
  ⟨by simp [start, State.receives], by simp [start], by simp [start], by simp [start, Phase.drains]⟩

/-- The main goroutine leaves a `select`, and with it the drain. -/
theorem Inv.leave (h : Inv delay s) {p : Phase} (hp : p.drains = false) (buffered : Option GoString)
    (hbuffered : buffered.isSome = true → s.buffered.isSome = true) :
    Inv delay { s with buffered := buffered, phase := p } where
  exited hreceives := h.exited (by
    simp only [State.receives, Bool.or_eq_true] at hreceives ⊢
    exact hreceives.imp_left hbuffered)
  draining since hs := by
    dsimp only at hs
    rw [hs] at hp
    cases hp
  delaying since timer hs := by
    dsimp only at hs
    rw [hs] at hp
    cases hp
  signalled hd := by
    dsimp only at hd
    rw [hp] at hd
    cases hd

theorem inv_step (h : Inv delay s) (hmoves : Moves delay s a t) : Inv delay t := by
  cases hmoves with
  | tick hle => exact { h with draining := fun since hs => Int.le_trans (h.draining since hs) hle }
  | signal => exact { h with signalled := fun _ => by simp [State.ctxDone] }
  | exit => exact { h with exited := by simp }
  | send => exact { h with exited := by simp }
  | close => exact { h with exited := by simp }
  | requested hphase hdone =>
    exact { h with draining := by simp, delaying := by simp, signalled := fun _ => hdone }
  | unready hphase =>
    have hdone := h.signalled (by rw [hphase]; rfl)
    exact { h with
      draining := by rintro since ⟨⟩; exact Int.le_refl _
      delaying := by simp
      signalled := fun _ => hdone }
  | @enter since hphase =>
    have hsince := h.draining since hphase
    have hdone := h.signalled (by rw [hphase]; rfl)
    exact { h with
      draining := by simp
      delaying := by rintro since timer ⟨⟩; exact Int.add_le_add_right hsince _
      signalled := fun _ => hdone }
  | failed => exact h.leave rfl none (by simp)
  | listener => exact h.leave rfl none (by simp)
  | collected => exact h.leave rfl none (by simp)
  | undelayed => exact h.leave rfl s.buffered id
  | context => exact h.leave rfl s.buffered id
  | timer => exact h.leave rfl s.buffered id
  | gaveUp => exact h.leave rfl s.buffered id
  | emptied => exact h.leave rfl s.buffered id

/-- Signals are not taken back, the listener does not come back, time does not go back. -/
theorem Moves.forward (h : Moves delay s a t) :
    s.signals ≤ t.signals ∧ (s.listener ≠ .serving → t.listener ≠ .serving) ∧ s.now ≤ t.now := by
  cases h with
  | tick hle => exact ⟨Nat.le_refl _, id, hle⟩
  | signal => exact ⟨Nat.le_succ _, id, Int.le_refl _⟩
  | exit => exact ⟨Nat.le_refl _, fun _ => by simp, Int.le_refl _⟩
  | send => exact ⟨Nat.le_refl _, fun _ => by simp, Int.le_refl _⟩
  | close => exact ⟨Nat.le_refl _, fun _ => by simp, Int.le_refl _⟩
  | _ => exact ⟨Nat.le_refl _, id, Int.le_refl _⟩

theorem State.Waited.moves {since : ℤ} (h : s.Waited delay since) (hmoves : Moves delay s a t) :
    t.Waited delay since := by
  obtain ⟨hsignals, hlistener, hnow⟩ := hmoves.forward
  obtain hsecond | hexited | hpassed := h
  · exact Or.inl (Nat.le_trans hsecond hsignals)
  · exact Or.inr (Or.inl (hlistener hexited))
  · exact Or.inr (Or.inr (Int.le_trans hpassed hnow))

theorem honours_call {since : ℤ} : (s.call since).Honours delay ↔ s.Waited delay since := by
  simp only [ShutdownCall.Honours, State.Waited, State.call, decide_eq_true_eq]
  tauto

/-- What a run keeps that enters the `select` of the delay late. -/
structure Keeps (delay : ℤ) (s : State) : Prop where
  inv : Inv delay s
  waited : ∀ since timer, s.phase = .delaying since timer → s.Waited delay since
  honoured : Honoured delay s

theorem keeps_start : Keeps delay (start now) :=
  ⟨inv_start, by simp [start], by simp [Honoured, start, Phase.shutdown]⟩

/-- `Shutdown` is called. -/
theorem Keeps.call (h : Keeps delay s) (hmoves : Moves delay s a t) {since : ℤ}
    (hphase : t.phase = .shuttingDown (s.call since)) (hhonours : (s.call since).Honours delay) :
    Keeps delay t := by
  refine ⟨inv_step h.inv hmoves, fun since timer hdelaying => ?_, fun c hc => ?_⟩
  · rw [hphase] at hdelaying
    cases hdelaying
  · rw [hphase] at hc
    cases hc
    exact hhonours

/-- Neither is `Shutdown` called nor the `select` of the delay entered. -/
theorem Keeps.stay (h : Keeps delay s) (hmoves : Moves delay s a t)
    (hdelaying : ∀ since timer, t.phase = .delaying since timer → s.phase = .delaying since timer)
    (hshutdown : ∀ c, t.phase.shutdown = some c → s.phase.shutdown = some c) : Keeps delay t where
  inv := inv_step h.inv hmoves
  waited since timer hphase := (h.waited since timer (hdelaying since timer hphase)).moves hmoves
  honoured c hc := h.honoured c (hshutdown c hc)

theorem keeps_step (henters : EntersLate delay s a) (h : Keeps delay s) (hmoves : Moves delay s a t) :
    Keeps delay t := by
  have hstay := h.stay hmoves
  have hcall := @Keeps.call _ _ _ _ h hmoves
  cases hmoves with
  | tick => exact hstay (fun _ _ => id) fun _ => id
  | signal => exact hstay (fun _ _ => id) fun _ => id
  | exit => exact hstay (fun _ _ => id) fun _ => id
  | send => exact hstay (fun _ _ => id) fun _ => id
  | close => exact hstay (fun _ _ => id) fun _ => id
  | failed hphase => exact hstay (by simp) (by simp [Phase.shutdown])
  | requested hphase => exact hstay (by simp) (by simp [Phase.shutdown])
  | unready hphase => exact hstay (by simp) (by simp [Phase.shutdown])
  | gaveUp hphase => exact hstay (by simp) (by simp [Phase.shutdown, hphase])
  | emptied hphase => exact hstay (by simp) (by simp [Phase.shutdown, hphase])
  | collected hphase => exact hstay (by simp) (by simp [Phase.shutdown, hphase])
  | @enter since hphase =>
    refine ⟨inv_step h.inv (.enter hphase), ?_, by simp [Honoured, Phase.shutdown]⟩
    rintro since timer ⟨⟩
    exact (henters since hphase).moves (.enter hphase)
  | @undelayed since hphase hdelay =>
    have hsince := h.inv.draining since hphase
    refine hcall rfl (Or.inl ?_)
    show since + delay ≤ s.now
    omega
  | timer hphase htimer =>
    exact hcall rfl (Or.inl (Int.le_trans (h.inv.delaying _ _ hphase) htimer))
  | listener hphase hreceives =>
    exact hcall rfl (Or.inr (Or.inl (decide_eq_true (h.inv.exited hreceives))))
  | context hphase => exact hcall rfl (honours_call.mpr (h.waited _ _ hphase))

/-- The `select` of the delay is behind `Run`, or `Run` is in it. -/
def Phase.entered : Phase → Bool
  | .serving => false
  | .requested => false
  | .draining _ => false
  | _ => true

theorem entered_step (h : s.phase.entered = true) (hmoves : Moves delay s a t) :
    t.phase.entered = true := by
  cases hmoves with
  | failed => rfl
  | requested hphase => rw [hphase] at h; cases h
  | unready hphase => rw [hphase] at h; cases h
  | enter => rfl
  | undelayed => rfl
  | listener => rfl
  | context => rfl
  | timer => rfl
  | gaveUp => rfl
  | emptied => rfl
  | collected => rfl
  | _ => exact h

/-- The `select` is not entered a second time. -/
theorem entersLate_of_entered (h : s.phase.entered = true) (a : Action) : EntersLate delay s a := by
  cases a with
  | proceed =>
    intro since hphase
    rw [hphase] at h
    cases h
  | _ => trivial

theorem step_enter {since : ℤ} (hdelay : 0 < delay) (hphase : s.phase = .draining since) :
    step delay s .proceed = some { s with phase := .delaying since (s.now + delay) } := by
  simp only [step, hphase, if_pos hdelay]

/-- In the `select` of the delay, the branch of the context is ready at all times. -/
theorem step_context (h : Inv delay s) {since timer : ℤ} (hphase : s.phase = .delaying since timer) :
    step delay s (.select .ctxDone) = some { s with phase := .shuttingDown (s.call since) } := by
  have hdone := h.signalled (by rw [hphase]; rfl)
  simp only [step, take, hdone, if_true, hphase]

/-- A run in which the `select` of the delay is entered, if at all, when a second signal has
arrived, the listener has exited or the delay has passed, honours the delay. And this is what
it takes: whatever is chosen and whatever happens from then on, the delay is honoured if and
only if it was so when the `select` was entered. -/
theorem honoured_iff (delay now : ℤ) (hdelay : 0 < delay) :
    (∀ acts t, Transition.run (step delay) (start now) acts = some t →
      Transition.Meets (step delay) (EntersLate delay) (start now) acts → Honoured delay t) ∧
    ∀ front s since, Transition.run (step delay) (start now) front = some s →
      s.phase = .draining since →
      ((∀ back t, Transition.run (step delay) s (.proceed :: back) = some t → Honoured delay t) ↔
        2 ≤ s.signals ∨ s.listener ≠ .serving ∨ since + delay ≤ s.now) := by
  refine ⟨fun acts t hrun hmeets => ?_, fun front s since hrun hphase => ⟨fun h => ?_, ?_⟩⟩
  · exact (Transition.run_invariant_of_meets (Keeps delay)
      (fun _ _ _ henters h hstep => keeps_step henters h (moves_of_step hstep)) hrun hmeets
      keeps_start).honoured
  · -- the branch of the context is taken at once
    have hinv := Transition.run_invariant (Inv delay)
      (fun _ _ _ h hstep => inv_step h (moves_of_step hstep)) hrun inv_start
    have henter := step_enter hdelay hphase
    have hcontext := step_context (inv_step hinv (moves_of_step henter)) rfl
    exact honours_call.mp (h [.select .ctxDone] _
      (Transition.run_cons.mpr ⟨_, henter, Transition.run_cons.mpr ⟨_, hcontext, rfl⟩⟩) _ rfl)
  · intro hwaited back t hback
    obtain ⟨u, henter, hrest⟩ := Transition.run_cons.mp hback
    have hinv := Transition.run_invariant (Inv delay)
      (fun _ _ _ h hstep => inv_step h (moves_of_step hstep)) hrun inv_start
    rw [step_enter hdelay hphase] at henter
    cases henter
    have hkeeps : Keeps delay { s with phase := .delaying since (s.now + delay) } := by
      refine ⟨inv_step hinv (.enter hphase), ?_, by simp [Honoured, Phase.shutdown]⟩
      rintro since timer ⟨⟩
      exact hwaited
    exact (Transition.run_invariant (fun s => Keeps delay s ∧ s.phase.entered = true)
      (fun s a _ h hstep => ⟨keeps_step (entersLate_of_entered h.2 a) h.1 (moves_of_step hstep),
        entered_step h.2 (moves_of_step hstep)⟩) hrest ⟨hkeeps, rfl⟩).1.honoured

end Runs

/-- Two seconds, in nanoseconds. -/
def twoSeconds : ℤ := 2000000000

/-- A signal, and readiness set to false a second later. -/
def drained : List Action := [.signal, .select .ctxDone, .tick 1000000000, .proceed]

/-- A second signal before the `select` of the delay: whatever follows, the delay is
honoured, also if the branch of the context is taken at once. -/
theorem second_signal_honoured :
    ∃ s, Transition.run (step twoSeconds) (start 0) (drained ++ [.signal]) = some s ∧
      (∀ back t, Transition.run (step twoSeconds) s (.proceed :: back) = some t →
        Honoured twoSeconds t) ∧
      (Transition.run (step twoSeconds) s [.proceed, .select .ctxDone]).map State.phase =
        some (.shuttingDown ⟨1000000000, 1000000000, false, 2⟩) := by
  have hrun : Transition.run (step twoSeconds) (start 0) (drained ++ [.signal]) =
      some { now := 1000000000, signals := 2, ready := false, phase := .draining 1000000000 } := by
    decide
  refine ⟨_, hrun, ?_, by decide⟩
  exact ((honoured_iff twoSeconds 0 (by decide)).2 _ _ _ hrun rfl).mpr (Or.inl (Nat.le_refl 2))

/-- The signal that started the shutdown ends the delay as well. -/
theorem delay_skipped :
    ∃ t, Transition.run (step twoSeconds) (start 0) (drained ++ [.proceed, .select .ctxDone]) = some t ∧
      t.ready = false ∧ t.phase = .shuttingDown ⟨1000000000, 1000000000, false, 1⟩ ∧
      ¬ Honoured twoSeconds t :=
  ⟨_, rfl, rfl, rfl, fun h => absurd (h _ rfl) (by decide)⟩

end ApiTest.Server.Drain
