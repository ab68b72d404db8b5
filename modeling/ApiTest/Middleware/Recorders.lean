import ApiTest.Middleware.Audit
import ApiTest.Net.Writer

/-! The recording writers of `pkg/httpmw`. `statusRecorder` stands between the
server's writer and everything `AccessLog` wraps, `auditRecorder` between that
and the handlers of `/v1` routes. Both keep a `wroteHeader` flag of their own,
which shadows the server's: it is set by the first status whatever its code,
while the server waits for one that is not informational. The two sides agree
until a handler opens with an informational status. -/

namespace ApiTest.Middleware

open Text Audit Net

variable {σ ρ : Type}

/-! ### The wrappers -/

/-- The scheme of both wrappers. The first status is recorded and passed on,
later ones are dropped; a write sends 200 first if no status was sent. Only
`http.ResponseWriter` is embedded, so `Flush` is not promoted. -/
def recording (wroteHeader : ρ → Bool) (sendHeader : ℤ → ρ → ρ)
    (recordWrite : GoString → ℕ → ρ → ρ) (W : ResponseWriter σ) : ResponseWriter (ρ × σ) where
  writeHeader code s :=
    if wroteHeader s.1 then s else (sendHeader code s.1, W.writeHeader code s.2)
  write b s :=
    let s := if wroteHeader s.1 then s else (sendHeader 200 s.1, W.writeHeader 200 s.2)
    let (n, inner) := W.write b s.2
    (n, (recordWrite b n s.1, inner))
  flush := none

structure StatusRecorder where
  status : ℤ := 200
  bytes : ℤ := 0
  wroteHeader : Bool := false
  deriving DecidableEq, Repr

def StatusRecorder.sendHeader (code : ℤ) (s : StatusRecorder) : StatusRecorder :=
  { s with wroteHeader := true, status := code }

def StatusRecorder.recordWrite (_ : GoString) (n : ℕ) (s : StatusRecorder) : StatusRecorder :=
  { s with bytes := s.bytes + n }

def statusRecorder (W : ResponseWriter σ) : ResponseWriter (StatusRecorder × σ) :=
  recording StatusRecorder.wroteHeader StatusRecorder.sendHeader StatusRecorder.recordWrite W

def auditRecorder (opts : AuditOptions) (W : ResponseWriter σ) : ResponseWriter (Recorder × σ) :=
  recording Recorder.wroteHeader Recorder.writeHeader
    (Recorder.write opts.maxPayloadBytes opts.capturePayloads) W

/-- The writer a `/v1` handler is given under `Build`'s middleware. The other
layers (`RequestID`, `CORS`, the mux, `Identity`) pass their writer on. -/
def endpointWriter (opts : AuditOptions) (W : ResponseWriter σ) :
    ResponseWriter (Recorder × StatusRecorder × σ) :=
  auditRecorder opts (statusRecorder W)

/-! ### What the wrappers record -/

/-- The actions the audit middleware sees for a handler's calls: the bytes a
write takes are those the wrapped writer takes. -/
def handlerActs (W : ResponseWriter σ) : σ → List Call → List HandlerAct
  | _, [] => []
  | s, .writeHeader code :: calls =>
    .writeHeader code :: handlerActs W (W.writeHeader code s) calls
  | s, .write b :: calls => .write b (W.write b s).1 :: handlerActs W (W.write b s).2 calls

/-- `auditRecorder` over any writer fills its fields as `Exchange.act` does. -/
theorem serve_handlerActs (opts : AuditOptions) (hasBody : Bool) (W : ResponseWriter σ)
    (calls : List Call) (x : Exchange) (s : σ) :
    ((handlerActs (auditRecorder opts W) (x.response, s) calls).foldl
        (Exchange.act opts hasBody) x).response =
      ((auditRecorder opts W).run (x.response, s) calls).1 := by
  induction calls generalizing x s with
  | nil => rfl
  | cons c calls ih =>
    rw [ResponseWriter.run_cons]
    cases c with
    | writeHeader code =>
      rw [handlerActs, List.foldl_cons]
      by_cases hw : x.response.wroteHeader
      · have hsame : (auditRecorder opts W).writeHeader code (x.response, s) = (x.response, s) :=
          if_pos hw
        have hact : Exchange.act opts hasBody x (.writeHeader code) = x := by
          simp [Exchange.act, Recorder.writeHeader, hw]
        rw [hact, ResponseWriter.call, hsame]
        exact ih x s
      · have hsent : (auditRecorder opts W).writeHeader code (x.response, s) =
            (x.response.writeHeader code, W.writeHeader code s) := if_neg hw
        rw [ResponseWriter.call, hsent]
        exact ih { x with response := x.response.writeHeader code } _
    | write b =>
      rw [handlerActs, List.foldl_cons]
      set inner := if x.response.wroteHeader then s else W.writeHeader 200 s with hinner
      have hwrite : (auditRecorder opts W).write b (x.response, s) =
          ((W.write b inner).1, x.response.write opts.maxPayloadBytes opts.capturePayloads b
            (W.write b inner).1, (W.write b inner).2) := by
        unfold auditRecorder recording
        by_cases hw : x.response.wroteHeader
        · simp [hinner, hw]
        · simp [hinner, hw, Recorder.write, Recorder.writeHeader]
      rw [ResponseWriter.call, hwrite]
      exact ih { x with response := _ } _

/-- The line `AccessLog` emits; the identity is the one recorded in the request's
holder. -/
structure AccessLine where
  method : GoString
  path : GoString
  status : ℤ
  bytes : ℤ
  durationMS : ℤ
  requestID : GoString
  identity : Option (GoString × GoString)

def accessLog (r : Inbound) (start finish : Time) (rec : StatusRecorder) : AccessLine where
  method := r.method
  path := r.path
  status := rec.status
  bytes := rec.bytes
  durationMS := (finish - start).tdiv 1000000
  requestID := r.requestID
  identity := r.identity.map fun id => (id.authType, id.subject)

/-! ### The stack over the server's writer -/

section Stack
variable (opts : AuditOptions) (framing : Framing)

abbrev Stack := Recorder × StatusRecorder × Response

/-- The recorders and the response after a handler's calls under the stack. -/
def underStack (calls : List Call) : Stack :=
  (endpointWriter opts (serverWriter framing)).run ({}, {}, {}) calls

/-- The response after the same calls on the server's writer. -/
def onServer (calls : List Call) : Response := (serverWriter framing).run {} calls

variable {a : Recorder} {l : StatusRecorder} {w : Response}

@[simp] theorem write_wroteHeader (max : ℤ) (capture : Bool) (b : GoString) (n : ℕ) :
    (a.write max capture b n).wroteHeader = true := by
  have hsent : (a.writeHeader 200).wroteHeader = true := by
    unfold Recorder.writeHeader
    split_ifs with h
    · exact h
    · rfl
  cases capture <;> exact hsent

@[simp] theorem write_recorded_status (max : ℤ) (capture : Bool) (b : GoString) (n : ℕ) :
    (a.write max capture b n).status = (a.writeHeader 200).status := by
  cases capture <;> rfl

/-- The first call reaches the server as it is and is recorded by both. -/
theorem call_of_fresh (ha : a.wroteHeader = false) (hl : l.wroteHeader = false) (c : Call) :
    ∃ a' l', (endpointWriter opts (serverWriter framing)).call (a, l, w) c =
        (a', l', (serverWriter framing).call w c) ∧
      a'.wroteHeader = true ∧ l'.wroteHeader = true ∧
      a'.status = c.status ∧ l'.status = c.status := by
  cases c with
  | writeHeader code =>
    refine ⟨a.writeHeader code, l.sendHeader code, ?_, ?_⟩
    · simp [endpointWriter, auditRecorder, statusRecorder, recording, ResponseWriter.call, ha, hl]
    · simp [Recorder.writeHeader, StatusRecorder.sendHeader, Call.status, ha]
  | write b =>
    -- both wrappers send 200 ahead of the bytes, which the server would do as well
    have hwrite : (serverWriter framing).write b ((serverWriter framing).writeHeader 200 w) =
        (serverWriter framing).write b w := Response.write_writeHeader framing b
    have hcall : (endpointWriter opts (serverWriter framing)).call (a, l, w) (.write b) =
        ((a.writeHeader 200).write opts.maxPayloadBytes opts.capturePayloads b
            ((serverWriter framing).write b w).1,
          (l.sendHeader 200).recordWrite b ((serverWriter framing).write b w).1,
          ((serverWriter framing).write b w).2) := by
      simp [endpointWriter, auditRecorder, statusRecorder, recording, ResponseWriter.call, ha, hl,
        hwrite, StatusRecorder.sendHeader]
    refine ⟨_, _, hcall, write_wroteHeader _ _ _ _, rfl, ?_, rfl⟩
    rw [write_recorded_status]
    simp [Recorder.writeHeader, Call.status, ha]

/-- Later statuses are dropped, later writes reach the server. -/
theorem call_of_sent (ha : a.wroteHeader = true) (hl : l.wroteHeader = true) (c : Call) :
    ∃ a' l' w', (endpointWriter opts (serverWriter framing)).call (a, l, w) c = (a', l', w') ∧
      a'.wroteHeader = true ∧ l'.wroteHeader = true ∧
      a'.status = a.status ∧ l'.status = l.status ∧
      (w' = w ∧ (∃ code, c = .writeHeader code) ∨
        ∃ b, c = .write b ∧ w' = (w.write framing b).2) := by
  cases c with
  | writeHeader code =>
    refine ⟨a, l, w, ?_, ha, hl, rfl, rfl, Or.inl ⟨rfl, code, rfl⟩⟩
    simp [endpointWriter, auditRecorder, recording, ResponseWriter.call, ha]
  | write b =>
    have hcall : (endpointWriter opts (serverWriter framing)).call (a, l, w) (.write b) =
        (a.write opts.maxPayloadBytes opts.capturePayloads b (w.write framing b).1,
          l.recordWrite b (w.write framing b).1, (w.write framing b).2) := by
      simp [endpointWriter, auditRecorder, statusRecorder, recording, ResponseWriter.call, ha, hl,
        serverWriter]
    refine ⟨_, _, _, hcall, write_wroteHeader _ _ _ _, hl, ?_, rfl, Or.inr ⟨b, rfl, rfl⟩⟩
    rw [write_recorded_status, Recorder.writeHeader, if_pos ha]

/-! ### Agreement -/

/-- Both sides have settled on one status: nothing a handler calls can tell them
apart any more. -/
def InStep (s : Stack) (bare : Response) : Prop :=
  s.2.2 = bare ∧ bare.Decided ∧ s.1.wroteHeader = true ∧ s.2.1.wroteHeader = true ∧
    (bare.panicked = false → s.1.status = bare.finalStatus ∧ s.2.1.status = bare.finalStatus)

theorem inStep_call (s : Stack) (bare : Response) (c : Call) (h : InStep s bare) :
    InStep ((endpointWriter opts (serverWriter framing)).call s c)
      ((serverWriter framing).call bare c) := by
  obtain ⟨a, l, w⟩ := s
  obtain ⟨rfl, hdecided, ha, hl, hstatus⟩ := h
  obtain ⟨a', l', w', hcall, ha', hl', hsa, hsl, hw⟩ := call_of_sent opts framing ha hl c
  rw [hcall]
  rcases hw with ⟨rfl, code, rfl⟩ | ⟨b, rfl, rfl⟩
  · have hsame : (serverWriter framing).call w' (.writeHeader code) = w' :=
      Response.writeHeader_of_decided hdecided code
    rw [hsame]
    exact ⟨rfl, hdecided, ha', hl', fun hp => ⟨hsa.trans (hstatus hp).1, hsl.trans (hstatus hp).2⟩⟩
  · have hkeep : (w.write framing b).2.status = w.status := by
      rw [Response.write_status, Response.writeHeader_of_decided hdecided]
    have hfinal : (w.write framing b).2.finalStatus = w.finalStatus := by
      rw [Response.finalStatus, hkeep, Response.finalStatus]
    refine ⟨rfl, ?_, ha', hl', ?_⟩
    · show (w.write framing b).2.Decided
      unfold Response.Decided
      rw [Response.write_panicked, hkeep]
      exact hdecided
    · show (w.write framing b).2.panicked = false → _
      rw [Response.write_panicked]
      intro hp
      show a'.status = (w.write framing b).2.finalStatus ∧ _ = (w.write framing b).2.finalStatus
      rw [hfinal]
      exact ⟨hsa.trans (hstatus hp).1, hsl.trans (hstatus hp).2⟩

/-- The wrappers have latched an informational status, and the server will end on
200 whatever the handler sends. -/
def Latched (code : ℤ) (s : Stack) : Prop :=
  s.1.wroteHeader = true ∧ s.2.1.wroteHeader = true ∧ s.1.status = code ∧
    s.2.2.panicked = false ∧ s.2.2.finalStatus = 200

theorem latched_call (code : ℤ) (s : Stack) (c : Call) (h : Latched code s) :
    Latched code ((endpointWriter opts (serverWriter framing)).call s c) := by
  obtain ⟨a, l, w⟩ := s
  obtain ⟨ha, hl, hstatus, hpanic, hfinal⟩ := h
  obtain ⟨a', l', w', hcall, ha', hl', hsa, -, hw⟩ := call_of_sent opts framing ha hl c
  rw [hcall]
  refine ⟨ha', hl', hsa.trans hstatus, ?_⟩
  rcases hw with ⟨rfl, -⟩ | ⟨b, -, rfl⟩
  · exact ⟨hpanic, hfinal⟩
  · refine ⟨(Response.write_panicked framing b).trans hpanic, ?_⟩
    show (w.write framing b).2.status.getD 200 = 200
    rw [Response.write_status, Response.writeHeader]
    split_ifs with hdone hvalid hinfo
    · exact hfinal
    · exact absurd hinfo (by decide)
    · rfl
    · exact absurd (by decide) hvalid

/-- The handler's first call is an informational status. -/
def OpensInformational : List Call → Prop
  | .writeHeader code :: _ => Informational code
  | _ => False

instance : DecidablePred OpensInformational
  | [] => inferInstanceAs (Decidable False)
  | .writeHeader code :: _ => inferInstanceAs (Decidable (Informational code))
  | .write _ :: _ => inferInstanceAs (Decidable False)

theorem inStep_of_run {calls : List Call} (hne : calls ≠ []) (h : ¬ OpensInformational calls) :
    InStep (underStack opts framing calls) (onServer framing calls) := by
  cases calls with
  | nil => exact absurd rfl hne
  | cons c calls =>
    obtain ⟨a, l, hcall, ha, hl, hsa, hsl⟩ :=
      call_of_fresh (w := {}) opts framing (a := {}) (l := {}) rfl rfl c
    unfold underStack onServer
    rw [ResponseWriter.run_cons, ResponseWriter.run_cons, hcall]
    apply ResponseWriter.run_related _ _ InStep (inStep_call opts framing) calls
    have hinfo : ¬ Informational c.status := by
      cases c with
      | writeHeader code => exact h
      | write b => exact (by decide : ¬ Informational 200)
    obtain ⟨hdecided, hfinal⟩ := serverWriter_first framing hinfo
    exact ⟨rfl, hdecided, ha, hl, fun hp =>
      ⟨hsa.trans (hfinal hp).symm, hsl.trans (hfinal hp).symm⟩⟩

theorem latched_of_run {code : ℤ} (hinfo : Informational code) (calls : List Call) :
    Latched code (underStack opts framing (.writeHeader code :: calls)) := by
  obtain ⟨a, l, hcall, ha, hl, hsa, -⟩ :=
    call_of_fresh (w := {}) opts framing (a := {}) (l := {}) rfl rfl (.writeHeader code)
  unfold underStack
  rw [ResponseWriter.run_cons, hcall]
  apply ResponseWriter.run_invariant _ (Latched code) (latched_call opts framing code) calls
  have hsent : (serverWriter framing).call {} (.writeHeader code) = { informational := [code] } := by
    have hvalid : ValidCode code := ⟨hinfo.1, by have := hinfo.2.1; omega⟩
    show Response.writeHeader code {} = _
    simp [Response.writeHeader, hvalid, hinfo]
  rw [hsent]
  exact ⟨ha, hl, hsa, rfl, rfl⟩

end Stack

/-- The recorders are transparent and truthful on a handler's calls: the client
receives what it would receive without them, and when the handler returns, the
audit event and the access log carry the final status. -/
structure Truthful [UnicodeCase] (registry : Option Endpoints.Registry) (opts : AuditOptions)
    (clock : Clock) (r : Inbound) (framing : Framing) (calls : List Call) : Prop where
  received : (underStack opts.withDefaults framing calls).2.2.received =
    (onServer framing calls).received
  audited : (underStack opts.withDefaults framing calls).2.2.panicked = false →
    (audit registry opts clock r (handlerActs
      (endpointWriter opts.withDefaults (serverWriter framing)) ({}, {}, {}) calls)).status =
      (underStack opts.withDefaults framing calls).2.2.finalStatus
  logged : (underStack opts.withDefaults framing calls).2.2.panicked = false →
    (accessLog r clock.start clock.finish (underStack opts.withDefaults framing calls).2.1).status =
      (underStack opts.withDefaults framing calls).2.2.finalStatus

section Truthful
variable [UnicodeCase] (registry : Option Endpoints.Registry) (opts : AuditOptions)
  (clock : Clock) (r : Inbound) (framing : Framing) (calls : List Call)

/-- The audit event carries the status its recorder ends with. -/
theorem audit_status :
    (audit registry opts clock r (handlerActs
      (endpointWriter opts.withDefaults (serverWriter framing)) ({}, {}, {}) calls)).status =
      (underStack opts.withDefaults framing calls).1.status :=
  congrArg Recorder.status
    (serve_handlerActs opts.withDefaults r.hasBody (statusRecorder (serverWriter framing)) calls {}
      ({}, {}))

/-- The recorders are transparent and truthful exactly on the handlers that do
not open with an informational status. -/
theorem truthful_iff :
    Truthful registry opts clock r framing calls ↔ ¬ OpensInformational calls := by
  constructor
  · intro h hopens
    cases calls with
    | nil => exact hopens
    | cons c calls =>
      cases c with
      | write b => exact hopens
      | writeHeader code =>
        obtain ⟨-, -, hstatus, hpanic, hfinal⟩ :=
          latched_of_run opts.withDefaults framing hopens calls
        have haudited := h.audited hpanic
        rw [audit_status, hstatus, hfinal] at haudited
        have := hopens.2.1
        omega
  · intro h
    by_cases hne : calls = []
    · subst hne
      exact ⟨rfl, fun _ => rfl, fun _ => rfl⟩
    · obtain ⟨hsame, -, -, -, hstatus⟩ := inStep_of_run opts.withDefaults framing hne h
      refine ⟨by rw [hsame], fun hp => ?_, fun hp => ?_⟩
      · rw [audit_status, hsame]
        exact (hstatus (hsame ▸ hp)).1
      · rw [hsame]
        exact (hstatus (hsame ▸ hp)).2

end Truthful

/-- `GET /v1/status/103` sends 103 and a body: the client receives an
informational response and a final 200, the audit event and the access log say
103. -/
theorem status_103_recorded :
    ¬ @Truthful asciiCase none ⟨true, true, 0, []⟩ ⟨0, 0, 0⟩
      ⟨lit "GET", lit "/v1/status/103", [], [], [], false, [], none⟩ {}
      [.writeHeader 103, .write (lit "\x7b\"status\":103,\"message\":\"Early Hints\"\x7d\n")] := by
  rintro ⟨-, -, hlogged⟩
  have hstatus : (103 : ℤ) = 200 := hlogged rfl
  exact absurd hstatus (by decide)

end ApiTest.Middleware
