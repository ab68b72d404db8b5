import ApiTest.Portal.Stream
import ApiTest.Transition.Run

/-! The live tail as a system of its own: the handler with a tick in progress,
the clock, and the store that other goroutines write to between and during the
page queries. An answer is any list of stored rows of the filter's time window,
or an error; no order, limit or completeness of the rows is assumed here. -/

namespace ApiTest.Portal.Tail

open Text Audit

/-- The handler, the clock and the store. -/
structure Session where
  clock : Time
  log : List Event
  lastSeen : Time
  /-- The tick in progress and the number of its next page. -/
  poll : Option (ℕ × Poll) := none
  out : List Frame
  deriving DecidableEq, Repr

namespace Session

/-- The handler after its first flush. -/
def opened (now : Time) (log : List Event) : Session where
  clock := now
  log := log
  lastSeen := (openStream now).lastSeen
  out := (openStream now).out

inductive Act where
  | advance (t : Time)
  | append (ev : Event)
  | heartbeat
  | beginTick
  | page (answer : Answer)
  deriving DecidableEq, Repr

/-- Every row of the answer is stored and inside the filter's window. -/
def Allowed (log : List Event) (f : QueryFilter) (answer : Answer) : Prop :=
  ∀ ev ∈ rows answer, ev ∈ log ∧ f.fromTime ≤ ev.timestamp ∧ ev.timestamp ≤ f.toTime

instance (log : List Event) (f : QueryFilter) (answer : Answer) :
    Decidable (Allowed log f answer) := inferInstanceAs (Decidable (∀ ev ∈ rows answer, _))

/-- The end of a tick. -/
def finish (s : Session) (p : Poll) : Session :=
  { s with poll := none, lastSeen := p.now, out := s.out ++ p.frames }

/-- The state after an iteration of the page loop that was page `k`. -/
def afterPage (s : Session) (k : ℕ) : Exit → Session
  | .leave p => s.finish p
  | .again p =>
    if k + 1 < auditStreamMaxPagesPerTick then { s with poll := some (k + 1, p) } else s.finish p

/-- One atomic step. The clock does not run backwards, an appended event has an
ID of its own, and the handler's `select` is only reached between ticks. -/
def step (s : Session) : Act → Option Session
  | .advance t => if s.clock ≤ t then some { s with clock := t } else none
  | .append ev => if ev.id ∉ s.log.map Event.id then some { s with log := s.log ++ [ev] } else none
  | .heartbeat =>
    if s.poll = none then some { s with out := s.out ++ [.heartbeat, .flush] } else none
  | .beginTick =>
    if s.poll = none then some { s with poll := some (0, { now := s.clock, cursor := s.clock }) }
    else none
  | .page answer =>
    match s.poll with
    | none => none
    | some (k, p) =>
      if Allowed s.log (pageFilter s.lastSeen p.cursor) answer then
        some (s.afterPage k (pollPage s.lastSeen p answer))
      else none

/-- The branches of `step`. -/
inductive Moves (s : Session) : Act → Session → Prop where
  | advance (t : Time) (hle : s.clock ≤ t) : Moves s (.advance t) { s with clock := t }
  | append (ev : Event) (hfresh : ev.id ∉ s.log.map Event.id) :
      Moves s (.append ev) { s with log := s.log ++ [ev] }
  | heartbeat (hidle : s.poll = none) :
      Moves s .heartbeat { s with out := s.out ++ [.heartbeat, .flush] }
  | beginTick (hidle : s.poll = none) :
      Moves s .beginTick { s with poll := some (0, { now := s.clock, cursor := s.clock }) }
  | page (answer : Answer) (k : ℕ) (p : Poll) (hpoll : s.poll = some (k, p))
      (hallowed : Allowed s.log (pageFilter s.lastSeen p.cursor) answer) :
      Moves s (.page answer) (s.afterPage k (pollPage s.lastSeen p answer))

theorem moves_of_step {s t : Session} {a : Act} (h : step s a = some t) : Moves s a t := by
  cases a with
  | advance clock =>
    simp only [step, Option.ite_none_right_eq_some] at h
    obtain ⟨hle, ⟨⟩⟩ := h
    exact .advance clock hle
  | append ev =>
    simp only [step, Option.ite_none_right_eq_some] at h
    obtain ⟨hfresh, ⟨⟩⟩ := h
    exact .append ev hfresh
  | heartbeat =>
    simp only [step, Option.ite_none_right_eq_some] at h
    obtain ⟨hidle, ⟨⟩⟩ := h
    exact .heartbeat hidle
  | beginTick =>
    simp only [step, Option.ite_none_right_eq_some] at h
    obtain ⟨hidle, ⟨⟩⟩ := h
    exact .beginTick hidle
  | page answer =>
    simp only [step] at h
    split at h
    · cases h
    · next k p hpoll =>
      simp only [Option.ite_none_right_eq_some] at h
      obtain ⟨hallowed, ⟨⟩⟩ := h
      exact .page answer k p hpoll hallowed

/-- The frames the client has been sent, those of a tick in progress included. -/
def written (s : Session) : List Frame :=
  s.out ++ match s.poll with
    | none => []
    | some (_, p) => p.out

@[simp] theorem finish_clock (s : Session) (p : Poll) : (s.finish p).clock = s.clock := rfl

@[simp] theorem afterPage_clock (s : Session) (k : ℕ) (e : Exit) :
    (s.afterPage k e).clock = s.clock := by
  cases e with
  | leave p => rfl
  | again p => rw [afterPage]; split_ifs <;> rfl

theorem clock_le {s t : Session} {a : Act} (h : step s a = some t) : s.clock ≤ t.clock := by
  cases moves_of_step h with
  | advance clock hle => exact hle
  | page answer k p => exact (afterPage_clock ..).ge
  | append | heartbeat | beginTick => exact le_rfl

/-! ### Windows of different ticks are disjoint -/

/-- A tick in progress has written events of its own window, none twice. -/
structure PollInv (log : List Event) (lastSeen clock : Time) (p : Poll) : Prop where
  le_now : lastSeen ≤ p.now
  now_le : p.now ≤ clock
  cursor_le : p.cursor ≤ p.now
  mem : ∀ ev ∈ audits p.out, ev ∈ log ∧ lastSeen < ev.timestamp ∧ ev.timestamp ≤ p.now
  seen_eq : p.seen = (audits p.out).map Event.id
  nodup : UniqueIDs (audits p.out)

/-- What the finished ticks have written is at or before the high-water mark. -/
structure Inv (s : Session) : Prop where
  uniqueIDs : UniqueIDs s.log
  lastSeen_le : s.lastSeen ≤ s.clock
  mem : ∀ ev ∈ audits s.out, ev ∈ s.log ∧ ev.timestamp ≤ s.lastSeen
  nodup : UniqueIDs (audits s.out)
  poll : ∀ k p, s.poll = some (k, p) → PollInv s.log s.lastSeen s.clock p

theorem inv_opened (now : Time) {log : List Event} (hu : UniqueIDs log) : Inv (opened now log) where
  uniqueIDs := hu
  lastSeen_le := le_rfl
  mem := by simp [opened, openStream]
  nodup := List.nodup_nil
  poll := by simp [opened]

theorem PollInv.mono {log log' : List Event} {lastSeen clock clock' : Time} {p : Poll}
    (h : PollInv log lastSeen clock p) (hlog : log ⊆ log') (hclock : clock ≤ clock') :
    PollInv log' lastSeen clock' p :=
  { h with
    now_le := h.now_le.trans hclock
    mem := fun ev hev => ⟨hlog (h.mem ev hev).1, (h.mem ev hev).2⟩ }

theorem PollInv.pollPage {log : List Event} {lastSeen clock : Time} {p : Poll} {answer : Answer}
    (h : PollInv log lastSeen clock p) (ha : Allowed log (pageFilter lastSeen p.cursor) answer) :
    PollInv log lastSeen clock (pollPage lastSeen p answer).poll := by
  obtain ⟨es, hpage⟩ := pollPage_spec lastSeen p answer
  have hle : ∀ ev ∈ rows answer, ev.timestamp ≤ p.now :=
    fun ev hev => (ha ev hev).2.2.trans h.cursor_le
  refine ⟨?_, ?_, ?_, ?_, ?_, ?_⟩
  · exact h.le_now.trans_eq hpage.now_eq.symm
  · exact hpage.now_eq.trans_le h.now_le
  · rw [hpage.now_eq]
    rcases hpage.cursor with hc | ⟨ev, hev, hc⟩
    · exact hc.trans_le h.cursor_le
    · exact hc.trans_le (hle ev hev)
  · rw [hpage.audits_eq, hpage.now_eq]
    intro ev hev
    rcases List.mem_append.mp hev with hev | hev
    · exact h.mem ev hev
    · obtain ⟨hrow, hnew, -⟩ := hpage.mem ev hev
      exact ⟨(ha ev hrow).1, hnew, hle ev hrow⟩
  · rw [hpage.seen_eq, hpage.audits_eq, h.seen_eq, List.map_append]
  · rw [UniqueIDs, hpage.audits_eq, List.map_append, List.nodup_append]
    refine ⟨h.nodup, hpage.nodup, ?_⟩
    rintro id hold _ hes rfl
    obtain ⟨ev, hev, rfl⟩ := List.mem_map.mp hes
    rw [← h.seen_eq] at hold
    exact (hpage.mem ev hev).2.2 hold

/-- The IDs of events of a store on both sides of an instant are disjoint. -/
theorem uniqueIDs_append {log old new : List Event} {t : Time} (hu : UniqueIDs log)
    (hold : ∀ ev ∈ old, ev ∈ log ∧ ev.timestamp ≤ t) (hnew : ∀ ev ∈ new, ev ∈ log ∧ t < ev.timestamp)
    (ho : UniqueIDs old) (hn : UniqueIDs new) : UniqueIDs (old ++ new) := by
  rw [UniqueIDs, List.map_append, List.nodup_append]
  refine ⟨ho, hn, ?_⟩
  rintro id hid _ hid' rfl
  obtain ⟨a, ha, rfl⟩ := List.mem_map.mp hid
  obtain ⟨b, hb, heq⟩ := List.mem_map.mp hid'
  have hab : a = b := hu.eq_of_id (hold a ha).1 (hnew b hb).1 heq.symm
  have hlt : t < a.timestamp := by
    rw [hab]
    exact (hnew b hb).2
  exact absurd (hold a ha).2 (not_le.mpr hlt)

theorem audits_frames (p : Poll) : audits p.frames = audits p.out := by
  unfold Poll.frames
  split_ifs
  · rw [audits_append]
    exact List.append_nil _
  · rw [List.append_nil]

theorem Inv.finish {s : Session} {p : Poll} (h : Inv s) (hp : PollInv s.log s.lastSeen s.clock p) :
    Inv (s.finish p) where
  uniqueIDs := h.uniqueIDs
  lastSeen_le := hp.now_le
  mem := by
    intro ev hev
    rw [Session.finish, audits_append, audits_frames] at hev
    rcases List.mem_append.mp hev with hev | hev
    · exact ⟨(h.mem ev hev).1, (h.mem ev hev).2.trans hp.le_now⟩
    · exact ⟨(hp.mem ev hev).1, (hp.mem ev hev).2.2⟩
  nodup := by
    rw [Session.finish, audits_append, audits_frames]
    exact uniqueIDs_append h.uniqueIDs h.mem
      (fun ev hev => ⟨(hp.mem ev hev).1, (hp.mem ev hev).2.1⟩) h.nodup hp.nodup
  poll := by simp [Session.finish]

theorem Inv.afterPage {s : Session} {k : ℕ} {e : Exit} (h : Inv s)
    (hp : PollInv s.log s.lastSeen s.clock e.poll) : Inv (s.afterPage k e) := by
  cases e with
  | leave p => exact h.finish hp
  | again p =>
    unfold Session.afterPage
    split_ifs
    · refine { h with poll := ?_ }
      rintro _ _ ⟨⟩
      exact hp
    · exact h.finish hp

theorem audits_heartbeat (s : Session) :
    audits (s.out ++ [.heartbeat, .flush]) = audits s.out := by
  rw [audits_append]
  exact List.append_nil _

theorem step_inv (s : Session) (a : Act) (t : Session) (h : Inv s) (hstep : step s a = some t) :
    Inv t := by
  cases moves_of_step hstep with
  | advance clock hle =>
    exact { h with
      lastSeen_le := h.lastSeen_le.trans hle
      poll := fun k p hp => (h.poll k p hp).mono (List.Subset.refl _) hle }
  | append ev hfresh =>
    exact { h with
      uniqueIDs := h.uniqueIDs.concat hfresh
      mem := fun e he => ⟨List.mem_append_left _ (h.mem e he).1, (h.mem e he).2⟩
      poll := fun k p hp => (h.poll k p hp).mono (List.subset_append_left _ _) le_rfl }
  | heartbeat hidle =>
    exact { h with
      mem := by rw [audits_heartbeat]; exact h.mem
      nodup := by rw [audits_heartbeat]; exact h.nodup }
  | beginTick hidle =>
    refine { h with poll := ?_ }
    rintro _ _ ⟨⟩
    exact ⟨h.lastSeen_le, le_rfl, le_rfl, by simp, rfl, List.nodup_nil⟩
  | page answer k p hpoll hallowed => exact h.afterPage ((h.poll k p hpoll).pollPage hallowed)

theorem Inv.written_nodup {s : Session} (h : Inv s) : UniqueIDs (audits s.written) := by
  unfold written
  rw [audits_append]
  split
  · simpa using h.nodup
  · next k p hpoll =>
    have hp := h.poll k p hpoll
    exact uniqueIDs_append h.uniqueIDs h.mem
      (fun ev hev => ⟨(hp.mem ev hev).1, (hp.mem ev hev).2.1⟩) h.nodup hp.nodup

/-- Over any run of the handler no event ID is written twice, whatever the
queries answer and however the store grows under them. -/
theorem written_at_most_once (now : Time) (log : List Event) (acts : List Act) (s : Session)
    (hu : UniqueIDs log) (hrun : Transition.run step (opened now log) acts = some s) :
    ((audits s.written).map Event.id).Nodup :=
  (Transition.run_invariant Inv step_inv hrun (inv_opened now hu)).written_nodup

/-- Two ticks with a growing store and a failed query between them. -/
def twoTicks : List Act :=
  [.advance 5, .append { id := lit "a", timestamp := 4 }, .beginTick,
    .append { id := lit "b", timestamp := 5 },
    .page (.ok [{ id := lit "b", timestamp := 5 }, { id := lit "a", timestamp := 4 }]),
    .heartbeat, .advance 8, .append { id := lit "c", timestamp := 8 }, .beginTick,
    .page (.ok [{ id := lit "c", timestamp := 8 }, { id := lit "b", timestamp := 5 }]),
    .beginTick, .page (.error (lit "boom"))]

theorem written_at_most_once_twoTicks : ∃ s, Transition.run step (opened 2 []) twoTicks = some s ∧
    (audits s.written).map Event.id = [lit "b", lit "a", lit "c"] ∧
    ((audits s.written).map Event.id).Nodup :=
  ⟨_, rfl, by decide, written_at_most_once 2 [] twoTicks _ (by decide) rfl⟩

/-! ### A tick is a run of the system -/

theorem run_pollPages (answer : ℕ → QueryFilter → Answer) (s : Session) (fuel k : ℕ) (p : Poll)
    (hk : k + (fuel + 1) = auditStreamMaxPagesPerTick)
    (ha : ∀ k c, Allowed s.log (pageFilter s.lastSeen c) (answer k (pageFilter s.lastSeen c))) :
    ∃ acts, Transition.run step { s with poll := some (k, p) } acts =
      some (s.finish (pollPages answer s.lastSeen (fuel + 1) k p)) := by
  induction fuel generalizing k p with
  | zero =>
    refine ⟨[.page (answer k (pageFilter s.lastSeen p.cursor))], ?_⟩
    rw [Transition.run_cons]
    refine ⟨_, if_pos (ha k p.cursor), ?_⟩
    rw [Transition.run_nil, pollPages]
    cases pollPage s.lastSeen p (answer k (pageFilter s.lastSeen p.cursor)) with
    | leave q => rfl
    | again q =>
      rw [afterPage, if_neg (by omega)]
      rfl
  | succ fuel ih =>
    rw [pollPages]
    cases hpage : pollPage s.lastSeen p (answer k (pageFilter s.lastSeen p.cursor)) with
    | leave q =>
      refine ⟨[.page (answer k (pageFilter s.lastSeen p.cursor))], ?_⟩
      rw [Transition.run_cons]
      refine ⟨_, if_pos (ha k p.cursor), ?_⟩
      rw [Transition.run_nil, hpage]
      rfl
    | again q =>
      obtain ⟨acts, hacts⟩ := ih (k + 1) q (by omega)
      refine ⟨.page (answer k (pageFilter s.lastSeen p.cursor)) :: acts, ?_⟩
      rw [Transition.run_cons]
      refine ⟨_, if_pos (ha k p.cursor), ?_⟩
      rw [hpage, afterPage, if_pos (by omega)]
      exact hacts

/-- The handler between two ticks. -/
def stream (s : Session) : Stream := ⟨s.lastSeen, s.out⟩

/-- `tick`, on answers the store can give, is a run of the system from an idle
handler to an idle handler. -/
theorem run_tick (answer : ℕ → QueryFilter → Answer) (s : Session) (hidle : s.poll = none)
    (ha : ∀ k c, Allowed s.log (pageFilter s.lastSeen c) (answer k (pageFilter s.lastSeen c))) :
    ∃ acts t, Transition.run step s acts = some t ∧ t.poll = none ∧
      t.stream = tick answer s.clock s.stream := by
  obtain ⟨acts, hacts⟩ := run_pollPages answer s 9 0 { now := s.clock, cursor := s.clock } rfl ha
  refine ⟨.beginTick :: acts, _, Transition.run_cons.mpr ⟨_, if_pos hidle, hacts⟩, rfl, ?_⟩
  have hnow : (pollPages answer s.lastSeen 10 0 { now := s.clock, cursor := s.clock }).now =
      s.clock := by
    refine pollPages_invariant (fun p => p.now = s.clock) answer s.lastSeen ?_ _ 0 rfl
    intro k p hp
    obtain ⟨es, hpage⟩ := pollPage_spec s.lastSeen p (answer k (pageFilter s.lastSeen p.cursor))
    exact hpage.now_eq.trans hp
  exact congrArg (Stream.mk · _) hnow

theorem allowed_windowQuery (log : List Event) (lastSeen c : Time) :
    Allowed log (pageFilter lastSeen c) (windowQuery log (pageFilter lastSeen c)) := by
  rw [windowQuery_pageFilter]
  intro ev hev
  exact mem_window.mp (List.mem_of_mem_take hev)

/-- In particular the tick that queries the store itself. -/
theorem run_tick_windowQuery (s : Session) (hidle : s.poll = none) :
    ∃ acts t, Transition.run step s acts = some t ∧ t.poll = none ∧
      t.stream = tick (fun _ => windowQuery s.log) s.clock s.stream := by
  apply run_tick _ s hidle
  intro k c
  exact allowed_windowQuery s.log s.lastSeen c

end Session

end ApiTest.Portal.Tail
