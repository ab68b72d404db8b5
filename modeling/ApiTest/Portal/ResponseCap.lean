import ApiTest.Middleware.Captured

/-! `capResponseWriter` (`portal_audit_replay.go`), which holds the response of a
replayed or tried request, beside `auditRecorder`, which copies the same response into
its audit row. Both keep the first bytes and note whether there were more. The first
one takes a write to a full buffer for a dropped one even if there is nothing in it. -/

namespace ApiTest.Portal

open Text Net Middleware

/-- `capResponseWriter`, without its header map. -/
structure CapResponse where
  status : ℤ := 200
  body : GoString := []
  truncated : Bool := false
  wroteHdr : Bool := false

namespace CapResponse

def writeHeader (status : ℤ) (c : CapResponse) : CapResponse :=
  if c.wroteHdr then c else { c with status := status, wroteHdr := true }

/-- `capResponseWriter.Write`, which reports every byte as taken. -/
def write (maxBytes : ℤ) (p : GoString) (c : CapResponse) : ℕ × CapResponse :=
  let c := if c.wroteHdr then c else c.writeHeader 200
  let remaining := maxBytes - c.body.length
  if remaining ≤ 0 then (p.length, { c with truncated := true })
  else if remaining < p.length then
    (p.length, { c with body := c.body ++ p.take remaining.toNat, truncated := true })
  else (p.length, { c with body := c.body ++ p })

end CapResponse

/-- `newCapResponseWriter`; a fresh one is `{}`. -/
def capResponseWriter (maxBytes : ℤ) : ResponseWriter CapResponse where
  writeHeader := CapResponse.writeHeader
  write := CapResponse.write maxBytes
  flush := none

/-- The writes among a handler's calls. -/
def offered (calls : List Call) : List GoString :=
  calls.filterMap fun
    | .write b => some b
    | .writeHeader _ => none

/-- The response to a handler's calls. -/
def written (calls : List Call) : GoString := (offered calls).flatten

/-- The writes fill the buffer to the last byte, and the last one is empty. -/
def EndsFull (cap : ℕ) (calls : List Call) : Prop :=
  (written calls).length = cap ∧ (offered calls).getLast? = some []

instance (cap : ℕ) : DecidablePred (EndsFull cap) := fun _ => inferInstanceAs (Decidable (_ ∧ _))

/-! ### The buffer of the portal -/

section Cap
variable {cap : ℕ} {calls : List Call} {c : CapResponse}

@[simp] theorem written_concat_writeHeader (code : ℤ) :
    written (calls ++ [.writeHeader code]) = written calls := by
  simp [written, offered]

@[simp] theorem written_concat_write (b : GoString) :
    written (calls ++ [.write b]) = written calls ++ b := by
  simp [written, offered]

/-- What the buffer holds after some calls. -/
structure Filled (cap : ℕ) (calls : List Call) (c : CapResponse) : Prop where
  body : c.body = (written calls).take cap
  truncated : c.truncated = true ↔ cap < (written calls).length ∨ EndsFull cap calls

theorem body_writeHeader (code : ℤ) : (c.writeHeader code).body = c.body := by
  unfold CapResponse.writeHeader
  split_ifs <;> rfl

theorem truncated_writeHeader (code : ℤ) : (c.writeHeader code).truncated = c.truncated := by
  unfold CapResponse.writeHeader
  split_ifs <;> rfl

theorem Filled.writeHeader (h : Filled cap calls c) (code : ℤ) :
    Filled cap (calls ++ [.writeHeader code]) (c.writeHeader code) := by
  have hoffered : offered (calls ++ [.writeHeader code]) = offered calls := by simp [offered]
  constructor
  · rw [body_writeHeader, written_concat_writeHeader, h.body]
  · rw [truncated_writeHeader, EndsFull, hoffered, written_concat_writeHeader]
    exact h.truncated

theorem Filled.write (h : Filled cap calls c) (b : GoString) :
    Filled cap (calls ++ [.write b]) (c.write cap b).2 := by
  have hlast : (offered (calls ++ [.write b])).getLast? = some b := by simp [offered]
  set d := if c.wroteHdr then c else c.writeHeader 200 with hd
  have hbody : d.body = (written calls).take cap := by
    rw [hd, apply_ite CapResponse.body, body_writeHeader, ite_self, h.body]
  have htrunc : d.truncated = true ↔ cap < (written calls).length ∨ EndsFull cap calls := by
    rw [hd, apply_ite CapResponse.truncated, truncated_writeHeader, ite_self, h.truncated]
  have hlength : d.body.length = min cap (written calls).length := by
    rw [hbody, List.length_take]
  have hempty : b = [] ↔ b.length = 0 := List.length_eq_zero_iff.symm
  simp only [CapResponse.write, ← hd]
  split_ifs with hfull hlong
  · -- no room: an empty write either comes late or fills the condition
    refine ⟨?_, ?_⟩
    · have hcap : cap - (written calls).length = 0 := by omega
      rw [hbody, written_concat_write, List.take_append, hcap, List.take_zero, List.append_nil]
    · simp only [EndsFull, hlast, Option.some.injEq, hempty, written_concat_write,
        List.length_append, true_iff]
      omega
  · refine ⟨?_, ?_⟩
    · have hroom : ((cap : ℤ) - d.body.length).toNat = cap - (written calls).length := by omega
      rw [written_concat_write, List.take_append, hroom, hbody]
    · simp only [written_concat_write, List.length_append, true_iff]
      omega
  · refine ⟨?_, ?_⟩
    · rw [written_concat_write, List.take_of_length_le (by rw [List.length_append]; omega), hbody,
        List.take_of_length_le (by omega)]
    · simp only [htrunc, EndsFull, hlast, Option.some.injEq, hempty, written_concat_write,
        List.length_append]
      omega

theorem filled_run (cap : ℕ) (calls : List Call) :
    Filled cap calls ((capResponseWriter cap).run {} calls) := by
  induction calls using List.reverseRecOn with
  | nil => exact ⟨by simp [written, offered], by simp [written, offered, EndsFull]⟩
  | append_singleton calls call ih =>
    have hrun : (capResponseWriter cap).run {} (calls ++ [call]) =
        (capResponseWriter cap).call ((capResponseWriter cap).run {} calls) call :=
      List.foldl_concat ..
    rw [hrun]
    cases call with
    | writeHeader code => exact ih.writeHeader code
    | write b => exact ih.write b

end Cap

/-! ### The copy of the middleware -/

section Recorder
variable {σ : Type} (W : ResponseWriter σ)

theorem attempted_handlerActs (calls : List Call) (s : σ) :
    attempted (handlerActs W s calls) = written calls := by
  induction calls generalizing s with
  | nil => rfl
  | cons call calls ih =>
    cases call with
    | writeHeader code => exact ih _
    | write b =>
      rw [handlerActs, attempted_write, ih]
      rfl

theorem copied_run (cap : ℕ) (s : σ) (calls : List Call) :
    let a := ((auditRecorder (cappedAt cap) W).run ({}, s) calls).1
    a.body = (written calls).take cap ∧ a.truncated = decide (cap < (written calls).length) := by
  have hcopied := @copied_serve (cappedAt cap) false rfl
    (handlerActs (auditRecorder (cappedAt cap) W) ({}, s) calls)
  have hserve := serve_handlerActs (cappedAt cap) false W calls {} s
  rw [serve, hserve] at hcopied
  obtain ⟨hbody, htruncated, -⟩ := hcopied
  rw [attempted_handlerActs] at hbody htruncated
  exact ⟨hbody, htruncated⟩

end Recorder

/-! ### The two side by side -/

section Status
variable {σ : Type} (W : ResponseWriter σ)

/-- The two hold the same status. -/
def SameStatus (a : Recorder × σ) (c : CapResponse) : Prop :=
  a.1.status = c.status ∧ a.1.wroteHeader = c.wroteHdr

theorem write_sent (maxBytes : ℤ) (b : GoString) (c : CapResponse) :
    (c.write maxBytes b).2.status = (c.writeHeader 200).status ∧
      (c.write maxBytes b).2.wroteHdr = true := by
  unfold CapResponse.write CapResponse.writeHeader
  dsimp only
  split_ifs with hsent <;> simp [hsent]

theorem sameStatus_call (opts : AuditOptions) (maxBytes : ℤ) (a : Recorder × σ) (c : CapResponse)
    (call : Call) (h : SameStatus a c) :
    SameStatus ((auditRecorder opts W).call a call) ((capResponseWriter maxBytes).call c call) := by
  obtain ⟨a, s⟩ := a
  obtain ⟨hstatus, hsent⟩ := h
  dsimp only at hstatus hsent
  cases call with
  | writeHeader code =>
    cases hc : c.wroteHdr with
    | true =>
      rw [hc] at hsent
      simp [SameStatus, auditRecorder, recording, ResponseWriter.call, capResponseWriter,
        CapResponse.writeHeader, hsent, hc, hstatus]
    | false =>
      rw [hc] at hsent
      simp [SameStatus, auditRecorder, recording, ResponseWriter.call, capResponseWriter,
        Recorder.writeHeader, CapResponse.writeHeader, hsent, hc]
  | write b =>
    obtain ⟨hstatus', hsent'⟩ := write_sent maxBytes b c
    -- either side has sent 200 by now, if it had sent nothing before
    have hfirst : (a.writeHeader 200).status = (c.writeHeader 200).status := by
      unfold Recorder.writeHeader CapResponse.writeHeader
      rw [hsent]
      split_ifs
      · exact hstatus
      · rfl
    refine ⟨?_, ?_⟩
    · show ((auditRecorder opts W).call (a, s) (.write b)).1.status = (c.write maxBytes b).2.status
      rw [hstatus', ← hfirst]
      unfold auditRecorder recording ResponseWriter.call
      cases ha : a.wroteHeader <;> simp [ha, Recorder.writeHeader]
    · show ((auditRecorder opts W).call (a, s) (.write b)).1.wroteHeader =
        (c.write maxBytes b).2.wroteHdr
      rw [hsent']
      unfold auditRecorder recording ResponseWriter.call
      cases ha : a.wroteHeader <;> simp [ha]

end Status

/-- The two hold the same response, and both say exactly when it was cut. -/
structure Agree (cap : ℕ) (calls : List Call) (a : Recorder) (c : CapResponse) : Prop where
  status : c.status = a.status
  body : c.body = a.body
  truncated : c.truncated = a.truncated
  exact_flag : c.truncated = true ↔ cap < (written calls).length

/-- For every cap and all calls of a handler, over any writer: the two agree, and flag
a response exactly if it is larger than the cap, unless the writes fill the cap to the
last byte and end with an empty one. -/
theorem captures_agree_iff {σ : Type} (W : ResponseWriter σ) (s : σ) (cap : ℕ)
    (calls : List Call) :
    Agree cap calls ((auditRecorder (cappedAt cap) W).run ({}, s) calls).1
      ((capResponseWriter cap).run {} calls) ↔ ¬ EndsFull cap calls := by
  obtain ⟨hbody, htruncated⟩ := copied_run W cap s calls
  have hfilled := filled_run cap calls
  constructor
  · intro h hfull
    have hlt := h.exact_flag.mp (hfilled.truncated.mpr (Or.inr hfull))
    exact absurd hfull.1 (Nat.ne_of_gt hlt)
  · intro hfull
    have hflag : ((capResponseWriter cap).run {} calls).truncated = true ↔
        cap < (written calls).length := by
      rw [hfilled.truncated, or_iff_left hfull]
    have hstatus : SameStatus ((auditRecorder (cappedAt cap) W).run ({}, s) calls)
        ((capResponseWriter cap).run {} calls) :=
      ResponseWriter.run_related _ _ SameStatus (sameStatus_call W (cappedAt cap) cap) calls
        ⟨rfl, rfl⟩
    refine ⟨hstatus.1.symm, by rw [hfilled.body, hbody], ?_, hflag⟩
    rw [htruncated, Bool.eq_iff_iff, hflag, decide_eq_true_eq]

/-- Four bytes, as many as fit, and an empty write: the replay reports a truncated
body, the audit row of the same request does not. -/
theorem empty_write_flagged :
    let calls := [Call.write (lit "full"), .write []]
    let recorded := ((auditRecorder (cappedAt 4) (serverWriter {})).run ({}, {}) calls).1
    let held := (capResponseWriter 4).run {} calls
    held.body = lit "full" ∧ recorded.body = lit "full" ∧ held.truncated = true ∧
      recorded.truncated = false ∧ ¬ Agree 4 calls recorded held := by
  refine ⟨by decide, by decide, by decide, by decide, fun h => absurd h.truncated (by decide)⟩

end ApiTest.Portal
