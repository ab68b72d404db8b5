import ApiTest.Portal.StreamRun

/-! Delivery by the live tail when the events come from requests. `Audit` stamps
an event when it starts on a request and logs it after the handler returns, so
stamps and visibility may come in different orders. Every query succeeds here
and every window stays below the page limit: what is lost is lost to the two
orders alone. -/

namespace ApiTest.Portal.Tail

open Text Audit

/-- The live tail together with the requests that are being handled. -/
structure Pipeline where
  session : Session
  /-- The stamps of the requests whose events are not visible yet. -/
  inflight : List Time
  deriving DecidableEq, Repr

namespace Pipeline

/-- The stream opens on a store and on requests that have started before. -/
def opened (now : Time) (log : List Event) (inflight : List Time) : Pipeline :=
  ⟨Session.opened now log, inflight⟩

inductive Act where
  | advance (t : Time)
  /-- `Audit` starts on a request. -/
  | request
  /-- The event of a request becomes visible to `Query`. -/
  | commit (ev : Event)
  | heartbeat
  | beginTick
  | page
  deriving DecidableEq, Repr

/-- A step of the stream alone. -/
def lift (w : Pipeline) (a : Session.Act) : Option Pipeline :=
  (w.session.step a).map fun s => { w with session := s }

def step (w : Pipeline) : Act → Option Pipeline
  | .advance t => w.lift (.advance t)
  | .request => some { w with inflight := w.inflight ++ [w.session.clock] }
  | .commit ev =>
    if ev.timestamp ∈ w.inflight then
      { w with inflight := w.inflight.erase ev.timestamp }.lift (.append ev)
    else none
  | .heartbeat => w.lift .heartbeat
  | .beginTick => w.lift .beginTick
  | .page =>
    match w.session.poll with
    | none => none
    | some (_, p) =>
      if (window w.session.log w.session.lastSeen p.cursor).length < maxQueryLimit then
        w.lift (.page (windowQuery w.session.log (pageFilter w.session.lastSeen p.cursor)))
      else none

/-- The branches of `step`, with the step of the stream inside each. -/
inductive Moves (w : Pipeline) : Act → Pipeline → Prop where
  | request : Moves w .request { w with inflight := w.inflight ++ [w.session.clock] }
  | advance (t : Time) (s' : Session) (hs : w.session.step (.advance t) = some s') :
      Moves w (.advance t) { w with session := s' }
  | heartbeat (s' : Session) (hs : w.session.step .heartbeat = some s') :
      Moves w .heartbeat { w with session := s' }
  | beginTick (s' : Session) (hs : w.session.step .beginTick = some s') :
      Moves w .beginTick { w with session := s' }
  | commit (ev : Event) (s' : Session) (hstamp : ev.timestamp ∈ w.inflight)
      (hs : w.session.step (.append ev) = some s') :
      Moves w (.commit ev) ⟨s', w.inflight.erase ev.timestamp⟩
  | page (k : ℕ) (p : Poll) (s' : Session) (hpoll : w.session.poll = some (k, p))
      (hshort : (window w.session.log w.session.lastSeen p.cursor).length < maxQueryLimit)
      (hs : w.session.step (.page (windowQuery w.session.log
        (pageFilter w.session.lastSeen p.cursor))) = some s') :
      Moves w .page { w with session := s' }

theorem moves_of_step {w w' : Pipeline} {a : Act} (h : step w a = some w') : Moves w a w' := by
  cases a with
  | request =>
    cases h
    exact .request
  | advance t =>
    obtain ⟨s', hs, rfl⟩ := Option.map_eq_some_iff.mp h
    exact .advance t s' hs
  | heartbeat =>
    obtain ⟨s', hs, rfl⟩ := Option.map_eq_some_iff.mp h
    exact .heartbeat s' hs
  | beginTick =>
    obtain ⟨s', hs, rfl⟩ := Option.map_eq_some_iff.mp h
    exact .beginTick s' hs
  | commit ev =>
    simp only [step, Option.ite_none_right_eq_some] at h
    obtain ⟨s', hs, rfl⟩ := Option.map_eq_some_iff.mp h.2
    exact .commit ev s' h.1 hs
  | page =>
    simp only [step] at h
    split at h
    · cases h
    · next k p hpoll =>
      simp only [Option.ite_none_right_eq_some] at h
      obtain ⟨s', hs, rfl⟩ := Option.map_eq_some_iff.mp h.2
      exact .page k p s' hpoll h.1 hs

/-! ### What a step does to the stream -/

/-- No request is stamped after the clock, and a tick in progress has not asked
for its page yet. -/
structure Inv (w : Pipeline) : Prop where
  session : w.session.Inv
  inflight : ∀ t ∈ w.inflight, t ≤ w.session.clock
  poll : ∀ k p, w.session.poll = some (k, p) → p = { now := p.now, cursor := p.now }

/-- A step that writes no event: the store may grow and a tick may begin. -/
structure Quiet (s s' : Session) : Prop where
  log : s.log ⊆ s'.log
  lastSeen : s'.lastSeen = s.lastSeen
  audits_eq : audits s'.out = audits s.out
  poll : s'.poll = s.poll ∨
    s.poll = none ∧ s'.poll = some (0, { now := s.clock, cursor := s.clock })

/-- The step that completes the tick begun at `now`. -/
structure Completes (s : Session) (now : Time) (s' : Session) : Prop where
  poll : ∃ k, s.poll = some (k, { now := now, cursor := now })
  idle : s'.poll = none
  log : s'.log = s.log
  lastSeen : s'.lastSeen = now
  audits_eq : audits s'.out =
    audits s.out ++ (window s.log s.lastSeen now).filter (isNew s.lastSeen)

/-- Every step of the pipeline is a step of the stream or leaves it alone. -/
theorem step_session {w w' : Pipeline} {a : Act} (h : step w a = some w') :
    w'.session = w.session ∨ ∃ b, w.session.step b = some w'.session := by
  cases moves_of_step h with
  | request => exact .inl rfl
  | advance t s' hs | heartbeat s' hs | beginTick s' hs => exact .inr ⟨_, hs⟩
  | commit ev s' hstamp hs => exact .inr ⟨_, hs⟩
  | page k p s' hpoll hshort hs => exact .inr ⟨_, hs⟩

theorem quiet_or_completes {w w' : Pipeline} {a : Act} (hw : Inv w) (h : step w a = some w') :
    Quiet w.session w'.session ∨ ∃ now, Completes w.session now w'.session := by
  cases moves_of_step h with
  | request => exact .inl ⟨List.Subset.refl _, rfl, rfl, .inl rfl⟩
  | advance t s' hs =>
    cases Session.moves_of_step hs
    exact .inl ⟨List.Subset.refl _, rfl, rfl, .inl rfl⟩
  | commit ev s' hstamp hs =>
    cases Session.moves_of_step hs
    exact .inl ⟨List.subset_append_left _ _, rfl, rfl, .inl rfl⟩
  | heartbeat s' hs =>
    cases Session.moves_of_step hs
    exact .inl ⟨List.Subset.refl _, rfl, Session.audits_heartbeat _, .inl rfl⟩
  | beginTick s' hs =>
    cases Session.moves_of_step hs with
    | beginTick hidle => exact .inl ⟨List.Subset.refl _, rfl, rfl, .inr ⟨hidle, rfl⟩⟩
  | page k p s' hpoll hshort hs =>
    -- the window fits into one page, so this page is the last of its tick
    have hp := hw.poll k p hpoll
    rw [hp] at hshort hpoll hs
    simp only [Session.step, hpoll, Option.ite_none_right_eq_some,
      pollPage_short hw.session.uniqueIDs _ _ hshort] at hs
    rw [← Option.some.inj hs.2]
    refine .inr ⟨p.now, ⟨k, hpoll⟩, rfl, rfl, rfl, ?_⟩
    simp only [Session.afterPage, Session.finish, audits_append, Session.audits_frames]
    rw [pollAfter, audits_map]

theorem step_inflight {w w' : Pipeline} {a : Act} (h : step w a = some w') {t : Time}
    (ht : t ∈ w'.inflight) : t ∈ w.inflight ∨ t = w.session.clock := by
  cases moves_of_step h with
  | request =>
    rcases List.mem_append.mp ht with ht | ht
    · exact .inl ht
    · exact .inr (List.mem_singleton.mp ht)
  | commit ev s' hstamp hs => exact .inl (List.mem_of_mem_erase ht)
  | advance | heartbeat | beginTick | page => exact .inl ht

theorem clock_le {w w' : Pipeline} {a : Act} (h : step w a = some w') :
    w.session.clock ≤ w'.session.clock := by
  rcases step_session h with heq | ⟨b, hb⟩
  · rw [heq]
  · exact Session.clock_le hb

theorem step_inv (w : Pipeline) (a : Act) (w' : Pipeline) (hw : Inv w) (h : step w a = some w') :
    Inv w' where
  session := by
    rcases step_session h with heq | ⟨b, hb⟩
    · rw [heq]
      exact hw.session
    · exact Session.step_inv _ b _ hw.session hb
  inflight := by
    intro t ht
    rcases step_inflight h ht with ht | rfl
    · exact (hw.inflight t ht).trans (clock_le h)
    · exact clock_le h
  poll := by
    intro k p hp
    rcases quiet_or_completes hw h with hq | ⟨now, hc⟩
    · rcases hq.poll with hsame | ⟨-, hbegin⟩
      · exact hw.poll k p (hsame ▸ hp)
      · rw [hbegin] at hp
        cases hp
        rfl
    · rw [hc.idle] at hp
      cases hp

theorem inv_opened (now : Time) {log : List Event} {inflight : List Time} (hu : UniqueIDs log)
    (hin : ∀ t ∈ inflight, t ≤ now) : Inv (opened now log inflight) :=
  ⟨Session.inv_opened now hu, hin, by simp [opened, Session.opened]⟩

/-! ### The fate of one event -/

/-- The event is visible, and written or still ahead of the high-water mark. -/
def Owed (ev : Event) (s : Session) : Prop :=
  ev ∈ s.log ∧ (ev ∈ audits s.out ∨ s.lastSeen < ev.timestamp)

/-- The event is written, or the tick in progress is going to write it. -/
def Due (ev : Event) (s : Session) : Prop :=
  ev ∈ s.log ∧ (ev ∈ audits s.out ∨
    s.lastSeen < ev.timestamp ∧ ∃ k p, s.poll = some (k, p) ∧ ev.timestamp ≤ p.now)

/-- The event is not written and behind the high-water mark. -/
def Lost (ev : Event) (s : Session) : Prop :=
  ev ∉ audits s.out ∧ ev.timestamp ≤ s.lastSeen

variable {ev : Event} {s s' : Session} {now : Time}

/-- A completed tick has written every visible event of its window. -/
theorem Completes.mem_of_window (hc : Completes s now s') (hev : ev ∈ s.log)
    (hnew : s.lastSeen < ev.timestamp) (hle : ev.timestamp ≤ now) : ev ∈ audits s'.out := by
  rw [hc.audits_eq, List.mem_append]
  exact .inr (List.mem_filter.mpr
    ⟨mem_window.mpr ⟨hev, hnew.le, hle⟩, by simpa [isNew] using hnew⟩)

theorem Completes.mem_of_mem (hc : Completes s now s') (h : ev ∈ audits s.out) :
    ev ∈ audits s'.out := by
  rw [hc.audits_eq]
  exact List.mem_append_left _ h

theorem Owed.quiet (hq : Quiet s s') (h : Owed ev s) : Owed ev s' := by
  refine ⟨hq.log h.1, ?_⟩
  rw [hq.audits_eq, hq.lastSeen]
  exact h.2

theorem Owed.completes (hc : Completes s now s') (h : Owed ev s) : Owed ev s' := by
  refine ⟨hc.log ▸ h.1, ?_⟩
  rcases h.2 with hout | hnew
  · exact .inl (hc.mem_of_mem hout)
  · rcases le_or_gt ev.timestamp now with hle | hlt
    · exact .inl (hc.mem_of_window h.1 hnew hle)
    · exact .inr (hc.lastSeen.trans_lt hlt)

theorem Due.quiet (hq : Quiet s s') (h : Due ev s) : Due ev s' := by
  refine ⟨hq.log h.1, ?_⟩
  rw [hq.audits_eq, hq.lastSeen]
  rcases h.2 with hout | ⟨hnew, k, p, hp, hle⟩
  · exact .inl hout
  · rcases hq.poll with hsame | ⟨hidle, -⟩
    · exact .inr ⟨hnew, k, p, hsame.trans hp, hle⟩
    · rw [hidle] at hp
      cases hp

theorem Due.completes (hc : Completes s now s') (h : Due ev s) : Due ev s' := by
  refine ⟨hc.log ▸ h.1, .inl ?_⟩
  rcases h.2 with hout | ⟨hnew, k, p, hp, hle⟩
  · exact hc.mem_of_mem hout
  · obtain ⟨k', hpoll⟩ := hc.poll
    rw [hpoll] at hp
    cases hp
    exact hc.mem_of_window h.1 hnew hle

theorem Lost.quiet (hq : Quiet s s') (h : Lost ev s) : Lost ev s' := by
  rw [Lost, hq.audits_eq, hq.lastSeen]
  exact h

theorem Lost.completes (hc : Completes s now s') (hle : s.lastSeen ≤ now) (h : Lost ev s) :
    Lost ev s' := by
  refine ⟨?_, h.2.trans (hle.trans_eq hc.lastSeen.symm)⟩
  rw [hc.audits_eq, List.mem_append]
  rintro (hout | hwin)
  · exact h.1 hout
  · have hnew : s.lastSeen < ev.timestamp := by simpa [isNew] using (List.mem_filter.mp hwin).2
    exact absurd h.2 (not_le.mpr hnew)

/-- A fate that quiet steps and completed ticks keep is kept by every run. -/
theorem run_fate {w w' : Pipeline} {acts : List Act} (fate : Session → Prop)
    (hquiet : ∀ {s s'}, Quiet s s' → fate s → fate s')
    (hcompletes : ∀ {s now s'}, Completes s now s' → s.lastSeen ≤ now → fate s → fate s')
    (hrun : Transition.run step w acts = some w') (hw : Inv w) (hfate : fate w.session) :
    Inv w' ∧ fate w'.session := by
  refine Transition.run_invariant (fun w => Inv w ∧ fate w.session) ?_ hrun ⟨hw, hfate⟩
  intro w a w' h hstep
  refine ⟨step_inv w a w' h.1 hstep, ?_⟩
  rcases quiet_or_completes h.1 hstep with hq | ⟨now, hc⟩
  · exact hquiet hq h.2
  · obtain ⟨k, hpoll⟩ := hc.poll
    exact hcompletes hc (h.1.session.poll _ _ hpoll).le_now h.2

/-- The stream when an event has become visible. -/
theorem step_commit {w w' : Pipeline} (h : step w (.commit ev) = some w') :
    ev.timestamp ∈ w.inflight ∧ ev.id ∉ w.session.log.map Event.id ∧
      w'.session = { w.session with log := w.session.log ++ [ev] } := by
  cases moves_of_step h with
  | commit _ s' hstamp hs =>
    cases Session.moves_of_step hs with
    | append _ hfresh => exact ⟨hstamp, hfresh, rfl⟩

/-- The tick that begins after an event is visible makes it due. -/
theorem due_of_beginTick {w w' : Pipeline} (h : step w .beginTick = some w')
    (hev : Owed ev w.session) (hle : ev.timestamp ≤ w.session.clock) : Due ev w'.session := by
  cases moves_of_step h with
  | beginTick s' hs =>
    cases Session.moves_of_step hs
    refine ⟨hev.1, ?_⟩
    rcases hev.2 with hout | hnew
    · exact .inl hout
    · exact .inr ⟨hnew, _, _, rfl, hle⟩

theorem run_clock_le {w w' : Pipeline} {acts : List Act}
    (h : Transition.run step w acts = some w') : w.session.clock ≤ w'.session.clock :=
  Transition.run_relation (fun a b => a.session.clock ≤ b.session.clock) (fun _ => le_rfl)
    (fun _ _ _ => le_trans) (fun _ _ _ => clock_le) h

/-- An event that is owed before a tick begins is written when that tick has
completed. -/
theorem mem_audits_of_owed {w w' : Pipeline} {ys zs : List Act} (hw : Inv w)
    (howed : Owed ev w.session) (hle : ev.timestamp ≤ w.session.clock)
    (hrun : Transition.run step w (ys ++ .beginTick :: zs) = some w')
    (hidle : w'.session.poll = none) : ev ∈ audits w'.session.out := by
  obtain ⟨w₁, hys, htick⟩ := Transition.run_append.mp hrun
  obtain ⟨w₂, hbegin, hzs⟩ := Transition.run_cons.mp htick
  obtain ⟨hw₁, howed₁⟩ := run_fate (Owed ev) Owed.quiet (fun hc _ => Owed.completes hc) hys hw howed
  have hdue := due_of_beginTick hbegin howed₁ (hle.trans (run_clock_le hys))
  obtain ⟨-, -, hfinal⟩ := run_fate (Due ev) Due.quiet (fun hc _ => Due.completes hc) hzs
    (step_inv _ _ _ hw₁ hbegin) hdue
  rcases hfinal with hout | ⟨-, k, p, hp, -⟩
  · exact hout
  · rw [hidle] at hp
    cases hp

/-- After a tick that has begun with the event visible and has completed, the
event is on the stream if and only if it was ahead of the high-water mark when
it became visible. -/
theorem delivered_iff (now : Time) (log : List Event) (inflight : List Time)
    (hu : UniqueIDs log) (hin : ∀ t ∈ inflight, t ≤ now) (xs ys zs : List Act) (ev : Event)
    (w w' : Pipeline) (hxs : Transition.run step (opened now log inflight) xs = some w)
    (hrun : Transition.run step w (.commit ev :: (ys ++ .beginTick :: zs)) = some w')
    (hidle : w'.session.poll = none) :
    Frame.audit ev ∈ w'.session.out ↔ w.session.lastSeen < ev.timestamp := by
  have hw : Inv w := Transition.run_invariant Inv step_inv hxs (inv_opened now hu hin)
  obtain ⟨w₁, hcommit, hrest⟩ := Transition.run_cons.mp hrun
  obtain ⟨hstamp, hfresh, hs₁⟩ := step_commit hcommit
  have hw₁ : Inv w₁ := step_inv _ _ _ hw hcommit
  rw [← mem_audits]
  constructor
  · intro hout
    by_contra hnot
    have hlost : Lost ev w₁.session := by
      rw [hs₁]
      refine ⟨fun hmem => hfresh ?_, not_lt.mp hnot⟩
      exact List.mem_map_of_mem (hw.session.mem ev hmem).1
    exact (run_fate (Lost ev) Lost.quiet Lost.completes hrest hw₁ hlost).2.1 hout
  · intro hnew
    have howed : Owed ev w₁.session := by
      rw [hs₁]
      exact ⟨List.mem_append_right _ (List.mem_singleton_self ev), .inr hnew⟩
    have hle : ev.timestamp ≤ w₁.session.clock := (hw.inflight _ hstamp).trans (clock_le hcommit)
    exact mem_audits_of_owed hw₁ howed hle hrest hidle

theorem delivered_fast_request : ∃ w w',
    Transition.run step (opened 10 [] []) [.advance 11, .request] = some w ∧
    Transition.run step w [.commit { id := lit "a", timestamp := 11 }, .beginTick, .page] = some w' ∧
    Frame.audit { id := lit "a", timestamp := 11 } ∈ w'.session.out :=
  ⟨_, _, rfl, rfl, (delivered_iff 10 [] [] (by decide) (by decide) [.advance 11, .request] []
    [.page] { id := lit "a", timestamp := 11 } _ _ rfl rfl rfl).mpr (by decide)⟩

/-- A request that is still being handled when a tick passes its stamp. -/
theorem slow_request_not_delivered : ∃ w w',
    Transition.run step (opened 10 [] []) [.advance 11, .request, .advance 20, .beginTick, .page] =
      some w ∧
    Transition.run step w [.commit { id := lit "a", timestamp := 11 }, .advance 30, .beginTick,
      .page] = some w' ∧
    w'.session.poll = none ∧ Frame.audit { id := lit "a", timestamp := 11 } ∉ w'.session.out :=
  ⟨_, _, rfl, rfl, rfl, by decide⟩

end Pipeline

end ApiTest.Portal.Tail
