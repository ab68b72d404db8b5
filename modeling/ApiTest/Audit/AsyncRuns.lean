import ApiTest.Audit.Async
import ApiTest.Audit.Event

/-! What holds in every interleaving of the asynchronous logger. One invariant
ties the channel, the event in the worker's hand, the history and the ledger of
calls together; it gives the bounded first-in first-out behaviour at once, and
it reduces the accounting of a finished run to the question whether the channel
is empty, that is, whether a send went through after the worker had left. -/

namespace ApiTest.Audit.Async

open Transition

variable {ε : Type*} {depth : ℕ} {s t : Logger ε} {a : Act ε} {as : List (Act ε)}

/-! ### The ledger -/

/-- The events of the calls that satisfy `p`. -/
def evs (p : Call ε → Bool) (calls : List (Call ε)) : List ε := (calls.filter p).map Call.ev

theorem evs_set_of_eq (p : Call ε → Bool) {calls : List (Call ε)} {i : ℕ} {c : Call ε}
    (d : Call ε) (h : calls[i]? = some c) (hp : p c = p d) (hev : c.ev = d.ev) :
    (evs p (calls.set i d)).Perm (evs p calls) := by
  obtain ⟨rest, hold, hnew⟩ := perm_set_of_getElem? h d
  refine ((hnew.filter p).map _).trans (List.Perm.trans ?_ ((hold.filter p).map _).symm)
  simp only [List.filter_cons, hp]
  split <;> simp [hev]

theorem evs_set_of_new (p : Call ε → Bool) {calls : List (Call ε)} {i : ℕ} {c : Call ε}
    (d : Call ε) (h : calls[i]? = some c) (hc : p c = false) (hd : p d = true) :
    (evs p (calls.set i d)).Perm (evs p calls ++ [d.ev]) := by
  obtain ⟨rest, hold, hnew⟩ := perm_set_of_getElem? h d
  have hrest : (evs p calls).Perm (evs p rest) := by
    simpa [evs, hc] using (hold.filter p).map Call.ev
  have hset : (evs p (calls.set i d)).Perm (d.ev :: evs p rest) := by
    simpa [evs, hd] using (hnew.filter p).map Call.ev
  exact hset.trans ((hrest.symm.cons _).trans (List.perm_append_singleton _ _).symm)

theorem evs_append_of_not (p : Call ε → Bool) (calls : List (Call ε)) {c : Call ε}
    (hc : p c = false) : evs p (calls ++ [c]) = evs p calls := by
  simp [evs, List.filter_append, hc]

/-! ### The invariant -/

structure Inv (depth : ℕ) (s : Logger ε) : Prop where
  fifo : s.accepted = s.handed ++ s.worker.inHand ++ s.ch
  bounded : s.ch.length ≤ depth
  sent : (evs Call.wasSent s.calls).Perm s.accepted
  counted : (evs Call.wasCounted s.calls).length = s.dropped
  stopped : s.worker.sawStop = true → s.stop = true
  marked : s.stop = s.stopMark.isSome
  markLe : ∀ n ∈ s.stopMark, n ≤ s.accepted.length
  drained : s.worker = .done → ∀ n ∈ s.stopMark, n ≤ s.handed.length
  closed : 0 < s.closed → s.worker = .done

theorem inv_newAsyncLogger : Inv depth (newAsyncLogger : Logger ε) := by
  constructor <;> simp [newAsyncLogger, Worker.inHand, Worker.sawStop, evs]

/-- Moving one call of the ledger keeps the invariant when the call is neither
sent nor counted by the move. -/
theorem Inv.setPc (hi : Inv depth s) {i : ℕ} {ev : ε} {pc : LogPc}
    (pc' : LogPc) (h : s.calls[i]? = some ⟨ev, pc⟩)
    (hs : (⟨ev, pc⟩ : Call ε).wasSent = (⟨ev, pc'⟩ : Call ε).wasSent)
    (hc : (⟨ev, pc⟩ : Call ε).wasCounted = (⟨ev, pc'⟩ : Call ε).wasCounted) :
    Inv depth (setPc s i ev pc') :=
  { hi with
    sent := (evs_set_of_eq _ ⟨ev, pc'⟩ h hs rfl).trans hi.sent
    counted := (evs_set_of_eq _ ⟨ev, pc'⟩ h hc rfl).length_eq.trans hi.counted }

theorem Inv.trySend (hi : Inv depth s) {i : ℕ} {ev : ε}
    (h : s.calls[i]? = some ⟨ev, .selecting⟩) : Inv depth (trySend depth s i ev) := by
  unfold Async.trySend
  split_ifs with hroom
  · exact {
      fifo := by simp [hi.fifo, Async.setPc]
      bounded := by simp only [List.length_append, List.length_singleton]; omega
      sent := (evs_set_of_new _ ⟨ev, .sent⟩ h rfl rfl).trans (hi.sent.append_right _)
      counted := (evs_set_of_eq _ ⟨ev, .sent⟩ h rfl rfl).length_eq.trans hi.counted
      stopped := hi.stopped
      marked := hi.marked
      markLe := fun n hn => by
        have := hi.markLe n hn
        simp only [List.length_append, List.length_singleton]
        omega
      drained := hi.drained
      closed := hi.closed }
  · exact hi.setPc .dropping h rfl rfl

/-- A move of a worker that goes on keeps the invariant when no event gets lost
on its way from the channel to `inner.Log`. -/
theorem Inv.work (hi : Inv depth s) {w : Worker ε} {ch handed : List ε} (failed : List ε)
    (hbefore : s.worker ≠ .done) (hafter : w ≠ .done)
    (hfifo : handed ++ w.inHand ++ ch = s.handed ++ s.worker.inHand ++ s.ch)
    (hbound : ch.length ≤ s.ch.length) (hstop : w.sawStop = true → s.stop = true) :
    Inv depth { s with worker := w, ch := ch, handed := handed, failed := failed } :=
  { hi with
    fifo := hi.fifo.trans hfifo.symm
    bounded := hbound.trans hi.bounded
    stopped := hstop
    drained := fun hw => absurd hw hafter
    closed := fun hpos => absurd (hi.closed hpos) hbefore }

/-- The worker leaves with the channel empty, so everything accepted so far has
been handed over. -/
theorem Inv.leave (hi : Inv depth s) (hw : s.worker = .selecting true) (hch : s.ch = []) :
    Inv depth { s with worker := .done } := by
  have hfifo := hi.fifo
  rw [hw] at hfifo
  have hall : s.accepted = s.handed := by simpa [Worker.inHand, hch] using hfifo
  exact { hi with
    fifo := hfifo
    stopped := fun _ => hi.stopped (by rw [hw]; rfl)
    drained := fun _ n hn => hall ▸ hi.markLe n hn
    closed := fun _ => rfl }

theorem Inv.close (hi : Inv depth s) : Inv depth { s with
    stop := true
    closing := s.closing + 1
    stopMark := if s.stop then s.stopMark else some s.accepted.length } := by
  by_cases hs : s.stop = true
  · exact { hi with
      stopped := fun _ => rfl
      marked := by simp [hs, ← hi.marked]
      markLe := by simpa [hs] using hi.markLe
      drained := by simpa [hs] using hi.drained }
  · have hnot : s.worker ≠ .done := fun hw => hs (hi.stopped (by rw [hw]; rfl))
    exact { hi with
      stopped := fun _ => rfl
      marked := by simp [hs]
      markLe := by simp [hs]
      drained := fun hw => absurd hw hnot }

theorem step_inv (hi : Inv depth s) (a : Act ε) (h : step depth s a = some t) : Inv depth t := by
  cases moves_of_step h with
  | log ev =>
    exact { hi with
      sent := by
        rw [evs_append_of_not Call.wasSent s.calls rfl]
        exact hi.sent
      counted := by
        rw [evs_append_of_not Call.wasCounted s.calls rfl]
        exact hi.counted }
  | select i ev hget => exact hi.trySend hget
  | count i ev hget =>
    exact { hi with
      sent := (evs_set_of_eq _ ⟨ev, .counted (s.dropped + 1)⟩ hget rfl rfl).trans hi.sent
      counted := by
        have hnew := evs_set_of_new Call.wasCounted ⟨ev, .counted (s.dropped + 1)⟩ hget rfl rfl
        simpa [hi.counted, setPc] using hnew.length_eq }
  | retSent i ev hget => exact hi.setPc (.returned false) hget rfl rfl
  | retCounted i ev total hget => exact { hi.setPc (.returned true) hget rfl rfl with }
  | receive draining ev rest hw hch =>
    apply hi.work s.failed
    · simp [hw]
    · simp
    · simp [hw, hch, Worker.inHand]
    · simp [hch]
    · intro hd
      exact hi.stopped (by rw [hw]; exact hd)
  | observeStop hw hstop =>
    apply hi.work s.failed
    · simp [hw]
    · simp
    · simp [hw, Worker.inHand]
    · exact le_rfl
    · exact fun _ => hstop
  | hand draining ev hw =>
    apply hi.work s.failed
    · simp [hw]
    · simp
    · simp [hw, Worker.inHand]
    · exact le_rfl
    · intro hd
      exact hi.stopped (by rw [hw]; exact hd)
  | innerReturns err draining ev hw =>
    apply hi.work
    · simp [hw]
    · simp
    · simp [hw, Worker.inHand]
    · exact le_rfl
    · intro hd
      exact hi.stopped (by rw [hw]; exact hd)
  | drained hw hch => exact hi.leave hw hch
  | close => exact hi.close
  | closeReturns hw hpos => exact { hi with closed := fun _ => hw }

theorem run_inv (h : run (step depth) newAsyncLogger as = some s) : Inv depth s :=
  run_invariant (Inv depth) (fun _ a _ hi hs => step_inv hi a hs) h inv_newAsyncLogger

/-! ### First in, first out -/

/-- Returned calls are the sent ones and the counted ones. -/
theorem evs_returned {calls : List (Call ε)} (h : ∀ c ∈ calls, c.hasReturned = true) :
    (calls.map Call.ev).Perm (evs Call.wasSent calls ++ evs Call.wasCounted calls) := by
  have hcounted : calls.filter Call.wasCounted = calls.filter (fun c => !c.wasSent) := by
    apply List.filter_congr
    intro c hc
    have hret := h c hc
    obtain ⟨ev, pc⟩ := c
    cases pc with
    | returned dropped => cases dropped <;> rfl
    | _ => simp [Call.hasReturned] at hret
  rw [evs, evs, hcounted, ← List.map_append]
  exact (List.filter_append_perm Call.wasSent calls).symm.map _

/-- In every reachable state the events handed to `inner.Log` are a prefix of
the accepted sends, the channel holds at most its depth, the ledger of finished
calls balances, and a returned `Close` has seen everything accepted before
`stop` was closed handed over. -/
theorem bounded_fifo (bufferSize : ℤ) (as : List (Act ε)) (s : Logger ε)
    (h : run (step (bufferDepth bufferSize)) newAsyncLogger as = some s) :
    s.handed <+: s.accepted ∧ s.ch.length ≤ bufferDepth bufferSize ∧
      ((∀ c ∈ s.calls, c.hasReturned = true) →
        s.calls.length = s.accepted.length + s.dropped) ∧
      (0 < s.closed → ∀ n ∈ s.stopMark, s.accepted.take n <+: s.handed) := by
  have hi := run_inv h
  have hpre : s.handed <+: s.accepted := by
    rw [hi.fifo, List.append_assoc]
    exact List.prefix_append _ _
  refine ⟨hpre, hi.bounded, ?_, ?_⟩
  · intro hret
    have hlen := (evs_returned hret).length_eq
    rw [List.length_map, List.length_append, hi.sent.length_eq, hi.counted] at hlen
    exact hlen
  · intro hclosed n hn
    have hle := hi.drained (hi.closed hclosed) n hn
    exact List.prefix_of_prefix_length_le (List.take_prefix _ _) hpre
      (by rw [List.length_take]; omega)

/-- Two calls on a channel of depth one, then a `Close`. -/
def twoLogs : List (Act Event) :=
  [.log {}, .log {}, .select 1, .select 0, .count 0, .ret 0, .ret 1, .close, .observeStop,
    .receive, .hand, .innerReturns true, .drained, .closeReturns]

theorem bounded_fifo_two_logs :
    ∃ s, run (step (bufferDepth 1)) newAsyncLogger twoLogs = some s ∧
      s.handed <+: s.accepted ∧ s.ch.length ≤ bufferDepth 1 ∧
      ((∀ c ∈ s.calls, c.hasReturned = true) →
        s.calls.length = s.accepted.length + s.dropped) ∧
      (0 < s.closed → ∀ n ∈ s.stopMark, s.accepted.take n <+: s.handed) :=
  ⟨_, rfl, bounded_fifo 1 twoLogs _ rfl⟩

/-! ### Accounting -/

/-- A `Close` and every `Log` call have returned. -/
def Logger.Quiescent (s : Logger ε) : Prop :=
  0 < s.closed ∧ ∀ c ∈ s.calls, c.hasReturned = true

/-- The events passed to `Log` are the events handed to `inner.Log` together
with those counted in `dropped`. -/
def Logger.Accounted (s : Logger ε) : Prop :=
  (s.calls.map Call.ev).Perm (s.handed ++ s.countedEvents) ∧ s.countedEvents.length = s.dropped

/-- The action is not a send into the channel of a worker that has left. -/
def SendsWhileRunning (depth : ℕ) (s : Logger ε) : Act ε → Prop
  | .select _ => s.ch.length < depth → s.worker ≠ .done
  | _ => True

/-- A finished run accounts for every event exactly when it leaves the channel
empty. -/
theorem accounted_iff_ch (hi : Inv depth s) (hq : s.Quiescent) : s.Accounted ↔ s.ch = [] := by
  have hfifo := hi.fifo
  rw [hi.closed hq.1] at hfifo
  have hperm : (s.calls.map Call.ev).Perm (s.handed ++ s.ch ++ s.countedEvents) := by
    refine (evs_returned hq.2).trans ?_
    simpa [hfifo, Worker.inHand, Logger.countedEvents, evs] using hi.sent.append_right s.countedEvents
  constructor
  · rintro ⟨hacc, -⟩
    have hlen := hperm.length_eq.symm.trans hacc.length_eq
    simp only [List.length_append] at hlen
    exact List.length_eq_zero_iff.mp (by omega)
  · intro hch
    exact ⟨by simpa [hch] using hperm, hi.counted⟩

/-- Once the worker has left, the channel only grows, by sends. -/
theorem step_of_done (h : step depth s a = some t) (hd : s.worker = .done) :
    t.worker = .done ∧ (t.ch = s.ch ∨
      ∃ i ev, a = .select i ∧ s.ch.length < depth ∧ t.ch = s.ch ++ [ev]) := by
  cases moves_of_step h with
  | select i ev hget =>
    unfold trySend
    split_ifs with hroom
    · exact ⟨hd, .inr ⟨i, ev, rfl, hroom, rfl⟩⟩
    · exact ⟨hd, .inl rfl⟩
  | log | count | retSent | retCounted | close => exact ⟨hd, .inl rfl⟩
  | closeReturns => exact ⟨hd, .inl rfl⟩
  | receive _ _ _ hw | observeStop hw | hand _ _ hw | innerReturns _ _ _ hw | drained hw =>
    rw [hd] at hw
    cases hw

/-- The worker leaves only in the `default` branch of its draining loop. -/
theorem step_to_done (h : step depth s a = some t) (hd : t.worker = .done) :
    s.worker = .done ∨ t.ch = [] := by
  cases moves_of_step h with
  | drained hw hch => exact .inr hch
  | select i ev hget =>
    unfold trySend at hd
    split_ifs at hd <;> exact .inl hd
  | log | count | retSent | retCounted | close | closeReturns => exact .inl hd
  | receive | observeStop | hand | innerReturns => cases hd

/-- An event in the channel of a worker that has left stays there. -/
theorem step_stuck (s : Logger ε) (a : Act ε) (t : Logger ε) (hs : s.worker = .done ∧ s.ch ≠ [])
    (h : step depth s a = some t) : t.worker = .done ∧ t.ch ≠ [] := by
  obtain ⟨hd, hch | ⟨_, ev, -, -, hch⟩⟩ := step_of_done h hs.1
  · exact ⟨hd, hch ▸ hs.2⟩
  · exact ⟨hd, by simp [hch]⟩

/-- A send that breaks the guard puts its event into such a channel. -/
theorem stuck_of_late_send (h : step depth s a = some t) (hlate : ¬ SendsWhileRunning depth s a) :
    t.worker = .done ∧ t.ch ≠ [] := by
  cases moves_of_step h with
  | select i ev hget =>
    simp only [SendsWhileRunning, Classical.not_imp, not_not] at hlate
    rw [trySend, if_pos hlate.1]
    exact ⟨hlate.2, by simp⟩
  | _ => exact absurd trivial hlate

theorem ch_ne_nil_of_not_meets (h : run (step depth) newAsyncLogger as = some s)
    (hnot : ¬ Meets (step depth) (SendsWhileRunning depth) newAsyncLogger as) : s.ch ≠ [] := by
  obtain ⟨xs, a, ys, m, -, -, -, hrest, hlate⟩ := exists_of_not_meets h hnot
  obtain ⟨u, hu, hys⟩ := run_cons.mp hrest
  exact (run_invariant (fun v : Logger ε => v.worker = .done ∧ v.ch ≠ []) step_stuck hys
    (stuck_of_late_send hu hlate)).2

/-- Without late sends the worker leaves an empty channel behind for good. -/
theorem ch_eq_nil_of_meets (h : run (step depth) newAsyncLogger as = some s)
    (hmeets : Meets (step depth) (SendsWhileRunning depth) newAsyncLogger as) :
    s.worker = .done → s.ch = [] := by
  apply run_invariant_of_meets (fun v : Logger ε => v.worker = .done → v.ch = []) _ h hmeets
  · intro hd
    cases hd
  · intro v a w hguard hv hw hd
    rcases step_to_done hw hd with hvd | hch
    · obtain ⟨-, hch | ⟨i, ev, rfl, hroom, -⟩⟩ := step_of_done hw hvd
      · rw [hch]
        exact hv hvd
      · exact absurd hvd (hguard hroom)
    · exact hch

/-- In every run that reaches a quiescent state, every event passed to `Log` has
been handed to `inner.Log` or counted if and only if no send of the run went
through after the worker had left. -/
theorem accounted_iff_sends_while_running (bufferSize : ℤ) (as : List (Act ε)) (s : Logger ε)
    (h : run (step (bufferDepth bufferSize)) newAsyncLogger as = some s) (hq : s.Quiescent) :
    s.Accounted ↔ Meets (step (bufferDepth bufferSize))
      (SendsWhileRunning (bufferDepth bufferSize)) newAsyncLogger as := by
  rw [accounted_iff_ch (run_inv h) hq]
  constructor
  · intro hch
    by_contra hnot
    exact ch_ne_nil_of_not_meets h hnot hch
  · intro hmeets
    exact ch_eq_nil_of_meets h hmeets ((run_inv h).closed hq.1)

theorem accounted_two_logs :
    ∃ s, run (step (bufferDepth 1)) newAsyncLogger twoLogs = some s ∧ s.Quiescent ∧
      (s.Accounted ↔ Meets (step (bufferDepth 1)) (SendsWhileRunning (bufferDepth 1))
        newAsyncLogger twoLogs) := by
  have hq : ∀ s, run (step (bufferDepth 1)) newAsyncLogger twoLogs = some s → s.Quiescent := by
    rintro s ⟨⟩
    exact ⟨by decide, by decide⟩
  exact ⟨_, rfl, hq _ rfl, accounted_iff_sends_while_running 1 twoLogs _ rfl (hq _ rfl)⟩

/-- The event of a `Log` call that starts after `Close` has returned is accepted
by the channel and then neither handed over nor counted. -/
theorem log_after_close_unaccounted :
    ∃ s : Logger Event, run (step (bufferDepth 1)) newAsyncLogger
        [.close, .observeStop, .drained, .closeReturns, .log {}, .select 0, .ret 0] = some s ∧
      s.Quiescent ∧ ¬ s.Accounted := by
  refine ⟨_, rfl, ⟨by decide, by decide⟩, ?_⟩
  rintro ⟨hperm, -⟩
  exact absurd hperm.length_eq (by decide)

end ApiTest.Audit.Async
