import ApiTest.Text.GoString

/-! The response side of `net/http`. A handler is given an `http.ResponseWriter`
and calls `WriteHeader` and `Write` on it; whether it can also flush is found out
by a type assertion to `http.Flusher`, so the capability is part of the writer.
The server's own writer sends informational statuses at once, lets the first
other status or the first write decide the final one, and drops the bytes the
final status, the declared length or a HEAD request leave no room for. -/

namespace ApiTest.Net

open ApiTest.Text

/-- The method set of a writer over its state. `write` returns the number of
bytes taken, and `flush` is there if the type assertion succeeds. -/
structure ResponseWriter (σ : Type) where
  writeHeader : ℤ → σ → σ
  write : GoString → σ → ℕ × σ
  flush : Option (σ → σ)

/-- A call on `http.ResponseWriter`. -/
inductive Call where
  | writeHeader (code : ℤ)
  | write (b : GoString)
  deriving DecidableEq, Repr

/-- The status a call stands for: a write sends 200. -/
def Call.status : Call → ℤ
  | .writeHeader code => code
  | .write _ => 200

namespace ResponseWriter

variable {σ : Type} (W : ResponseWriter σ)

def call (s : σ) : Call → σ
  | .writeHeader code => W.writeHeader code s
  | .write b => (W.write b s).2

/-- A handler's calls, in order. -/
def run (s : σ) (calls : List Call) : σ := calls.foldl W.call s

@[simp] theorem run_nil (s : σ) : W.run s [] = s := rfl

@[simp] theorem run_cons (s : σ) (c : Call) (calls : List Call) :
    W.run s (c :: calls) = W.run (W.call s c) calls := rfl

/-- What every call keeps, every run keeps. -/
theorem run_invariant (W : ResponseWriter σ) (inv : σ → Prop)
    (hcall : ∀ s c, inv s → inv (W.call s c)) (calls : List Call) {s : σ} (h : inv s) :
    inv (W.run s calls) := by
  induction calls generalizing s with
  | nil => exact h
  | cons c calls ih => exact ih (hcall s c h)

/-- A relation between the states of two writers that every call keeps is kept
by every run. -/
theorem run_related {τ : Type} (W : ResponseWriter σ) (V : ResponseWriter τ) (R : σ → τ → Prop)
    (hcall : ∀ s t c, R s t → R (W.call s c) (V.call t c)) (calls : List Call) {s : σ} {t : τ}
    (h : R s t) : R (W.run s calls) (V.run t calls) := by
  induction calls generalizing s t with
  | nil => exact h
  | cons c calls ih => exact ih (hcall s t c h)

end ResponseWriter

/-! ### Streaming -/

/-- A call of a handler that may hold a flusher. -/
inductive StreamCall where
  | call (c : Call)
  | flush
  deriving DecidableEq, Repr

/-- A handler that asks `w.(http.Flusher)` and goes on with the answer. Without a
flusher it has nothing to flush with. -/
structure StreamHandler where
  calls : Bool → List StreamCall
  noFlush : .flush ∉ calls false

/-- What reaches a writer. -/
inductive Traffic where
  | write (b : GoString)
  | flush
  deriving DecidableEq, Repr

def Call.traffic : Call → List Traffic
  | .writeHeader _ => []
  | .write b => [.write b]

def StreamCall.traffic : StreamCall → List Traffic
  | .call c => c.traffic
  | .flush => [.flush]

/-- The bytes a list of calls writes. -/
def writes (calls : List StreamCall) : List GoString :=
  calls.filterMap fun
    | .call (.write b) => some b
    | _ => none

namespace ResponseWriter

variable {σ : Type}

def streamCall (W : ResponseWriter σ) (s : σ) : StreamCall → σ
  | .call c => W.call s c
  | .flush => (W.flush.map (· s)).getD s

/-- `h.ServeHTTP(w, r)` on this writer. -/
def stream (W : ResponseWriter σ) (s : σ) (h : StreamHandler) : σ :=
  (h.calls W.flush.isSome).foldl W.streamCall s

/-- The writer with a record of what reaches it. -/
def tap (W : ResponseWriter σ) : ResponseWriter (List Traffic × σ) where
  writeHeader code s := (s.1, W.writeHeader code s.2)
  write b s := ((W.write b s.2).1, s.1 ++ [.write b], (W.write b s.2).2)
  flush := W.flush.map fun f s => (s.1 ++ [.flush], f s.2)

/-- Every call passes its writes on to the record, and nothing else. -/
def Relays (W : ResponseWriter σ) (log : σ → List Traffic) : Prop :=
  ∀ s c, log (W.call s c) = log s ++ c.traffic

theorem relays_tap (W : ResponseWriter σ) : W.tap.Relays Prod.fst := by
  intro s c
  cases c with
  | writeHeader code => exact (List.append_nil _).symm
  | write b => rfl

/-- A writer that relays and cannot flush receives just the writes. -/
theorem Relays.stream {W : ResponseWriter σ} {log : σ → List Traffic} (hW : W.Relays log)
    (hflush : W.flush = none) (s : σ) (h : StreamHandler) :
    log (W.stream s h) = log s ++ (h.calls false).flatMap StreamCall.traffic := by
  have hno := h.noFlush
  unfold ResponseWriter.stream
  rw [hflush, Option.isSome_none]
  generalize h.calls false = calls at hno
  induction calls generalizing s with
  | nil => exact (List.append_nil _).symm
  | cons c calls ih =>
    rw [List.mem_cons, not_or] at hno
    rw [List.foldl_cons, ih _ hno.2, List.flatMap_cons]
    cases c with
    | call c => rw [streamCall, hW, List.append_assoc]; rfl
    | flush => exact absurd rfl hno.1

/-- On a writer that flushes, writes and flushes arrive as they are made. -/
theorem tap_stream {W : ResponseWriter σ} {f : σ → σ} (hflush : W.flush = some f)
    (s : List Traffic × σ) (h : StreamHandler) :
    (W.tap.stream s h).1 = s.1 ++ (h.calls true).flatMap StreamCall.traffic := by
  have hsome : W.tap.flush = some fun s => (s.1 ++ [.flush], f s.2) := by
    rw [tap, hflush, Option.map_some]
  unfold ResponseWriter.stream
  rw [hsome, Option.isSome_some]
  generalize h.calls true = calls
  induction calls generalizing s with
  | nil => exact (List.append_nil _).symm
  | cons c calls ih =>
    rw [List.foldl_cons, ih, List.flatMap_cons]
    cases c with
    | call c => rw [streamCall, relays_tap, List.append_assoc]; rfl
    | flush =>
      rw [streamCall, hsome, Option.map_some, Option.getD_some, List.append_assoc]
      rfl

end ResponseWriter

/-- Two handlers produce the same traffic, the second without a flush, if and only
if they make the same writes and the first does not flush. -/
theorem traffic_eq_iff {calls calls' : List StreamCall} (hno : .flush ∉ calls') :
    calls'.flatMap StreamCall.traffic = calls.flatMap StreamCall.traffic ↔
      .flush ∉ calls ∧ writes calls = writes calls' := by
  -- without a flush the traffic is that of the writes
  have hwrites {calls : List StreamCall} (h : .flush ∉ calls) :
      calls.flatMap StreamCall.traffic = (writes calls).map .write := by
    induction calls with
    | nil => rfl
    | cons c calls ih =>
      rw [List.mem_cons, not_or] at h
      rw [List.flatMap_cons, ih h.2]
      rcases c with (code | b) | _
      · rfl
      · rfl
      · exact absurd rfl h.1
  have hinj : Function.Injective Traffic.write := fun _ _ h => Traffic.write.inj h
  constructor
  · intro heq
    have hflush : .flush ∉ calls := by
      intro hmem
      have htraffic : Traffic.flush ∈ calls.flatMap StreamCall.traffic :=
        List.mem_flatMap.mpr ⟨.flush, hmem, List.mem_singleton_self _⟩
      rw [← heq, hwrites hno] at htraffic
      simp at htraffic
    rw [hwrites hno, hwrites hflush] at heq
    exact ⟨hflush, (List.map_injective_iff.mpr hinj heq).symm⟩
  · rintro ⟨hflush, heq⟩
    rw [hwrites hno, hwrites hflush, heq]

/-! ### The server's writer -/

/-- What the request and the response header say about the body: whether the
method is HEAD, and the `Content-Length` declared. -/
structure Framing where
  head : Bool := false
  declared : Option ℕ := none

/-- What has been sent on a connection. `status` is the final status once it is
decided; `written` counts the bytes offered, `body` holds those sent. -/
structure Response where
  informational : List ℤ := []
  status : Option ℤ := none
  written : ℕ := 0
  body : GoString := []
  panicked : Bool := false
  deriving DecidableEq, Repr

/-- An informational status: 1xx, but not 101 Switching Protocols. -/
def Informational (code : ℤ) : Prop := 100 ≤ code ∧ code ≤ 199 ∧ code ≠ 101

instance : DecidablePred Informational := fun _ => inferInstanceAs (Decidable (_ ∧ _))

/-- `checkWriteHeaderCode` panics outside this range. -/
def ValidCode (code : ℤ) : Prop := 100 ≤ code ∧ code ≤ 999

instance : DecidablePred ValidCode := fun _ => inferInstanceAs (Decidable (_ ∧ _))

/-- `bodyAllowedForStatus`. -/
def bodyAllowed (status : ℤ) : Bool :=
  !(100 ≤ status ∧ status ≤ 199) && status ≠ 204 && status ≠ 304

namespace Response

/-- A panic unwinds the handler, so afterwards no call has an effect; a second
final status is superfluous. -/
def writeHeader (code : ℤ) (w : Response) : Response :=
  if w.panicked || w.status.isSome then w
  else if ValidCode code then
    if Informational code then { w with informational := w.informational ++ [code] }
    else { w with status := some code }
  else { w with panicked := true }

/-- All bytes of a write or none of them are taken. -/
def takes (framing : Framing) (b : GoString) (w : Response) : Bool :=
  b ≠ [] && bodyAllowed (w.status.getD 200) && framing.declared.all (w.written + b.length ≤ ·)

/-- The body part of a write. Bytes beyond the declared length count as written
although they are dropped. -/
def push (framing : Framing) (b : GoString) (w : Response) : ℕ × Response :=
  let written := if bodyAllowed (w.status.getD 200) then w.written + b.length else w.written
  if w.takes framing b then
    (b.length, { w with
      written := written
      body := if framing.head then w.body else w.body ++ b })
  else (0, { w with written := written })

def write (framing : Framing) (b : GoString) (w : Response) : ℕ × Response :=
  if w.panicked then (0, w) else (w.writeHeader 200).push framing b

/-- A handler that decides nothing leaves 200. -/
def finalStatus (w : Response) : ℤ := w.status.getD 200

/-- What the client receives: informational statuses, the final status and the
body, and whether the connection is cut by a panic. -/
def received (w : Response) : List ℤ × ℤ × GoString × Bool :=
  (w.informational, w.finalStatus, w.body, w.panicked)

end Response

/-- The writer the server hands to its handler. Flushing changes when bytes are
sent, not which, beyond deciding the status. -/
def serverWriter (framing : Framing) : ResponseWriter Response where
  writeHeader := Response.writeHeader
  write := Response.write framing
  flush := some (Response.writeHeader 200)

namespace Response

variable {w : Response}

/-- Once the status is decided or the handler has panicked, nothing more is said
about the status. -/
def Decided (w : Response) : Prop := w.panicked = true ∨ w.status.isSome = true

theorem writeHeader_of_decided (h : w.Decided) (code : ℤ) : w.writeHeader code = w := by
  rw [writeHeader, if_pos]
  simpa [Decided] using h

/-- A code that is not informational decides. -/
theorem decided_writeHeader {code : ℤ} (h : ¬ Informational code) :
    (w.writeHeader code).Decided := by
  unfold writeHeader Decided
  split_ifs with hdone <;> simp_all

@[simp] theorem push_status (framing : Framing) (b : GoString) :
    (w.push framing b).2.status = w.status := by
  rw [push, apply_ite Prod.snd, apply_ite Response.status]
  exact ite_self _

@[simp] theorem push_panicked (framing : Framing) (b : GoString) :
    (w.push framing b).2.panicked = w.panicked := by
  rw [push, apply_ite Prod.snd, apply_ite Response.panicked]
  exact ite_self _

@[simp] theorem panicked_writeHeader_ok : (w.writeHeader 200).panicked = w.panicked := by
  unfold writeHeader
  split_ifs with hdone hvalid
  · rfl
  · rfl
  · rfl
  · exact absurd (by decide) hvalid

@[simp] theorem write_status (framing : Framing) (b : GoString) :
    (w.write framing b).2.status = (w.writeHeader 200).status := by
  unfold write
  split_ifs with hpanic
  · rw [writeHeader_of_decided (Or.inl hpanic)]
  · exact push_status framing b

@[simp] theorem write_panicked (framing : Framing) (b : GoString) :
    (w.write framing b).2.panicked = w.panicked := by
  unfold write
  split_ifs with hpanic
  · rfl
  · rw [push_panicked, panicked_writeHeader_ok]

/-- A write decides the status first, so deciding it beforehand makes no
difference. -/
theorem write_writeHeader (framing : Framing) (b : GoString) :
    (w.writeHeader 200).write framing b = w.write framing b := by
  have hdecided : (w.writeHeader 200).Decided := decided_writeHeader (by decide)
  unfold write
  rw [panicked_writeHeader_ok, writeHeader_of_decided hdecided]
  split_ifs with hpanic
  · rw [writeHeader_of_decided (Or.inl hpanic)]
  · rfl

end Response

/-- A first call that is not informational decides the status, or panics. -/
theorem serverWriter_first (framing : Framing) {c : Call} (h : ¬ Informational c.status) :
    ((serverWriter framing).call {} c).Decided ∧
      (((serverWriter framing).call {} c).panicked = false →
        ((serverWriter framing).call {} c).finalStatus = c.status) := by
  cases c with
  | writeHeader code =>
    change (Response.writeHeader code {}).Decided ∧ _
    refine ⟨Response.decided_writeHeader h, ?_⟩
    show (Response.writeHeader code {}).panicked = false →
      (Response.writeHeader code {}).finalStatus = code
    unfold Response.writeHeader
    split_ifs with hdone hvalid hinfo
    · simp at hdone
    · exact absurd hinfo h
    · exact fun _ => rfl
    · exact fun hp => absurd hp (by simp)
  | write b =>
    have hstatus : ((serverWriter framing).call {} (.write b)).status = some 200 :=
      Response.write_status framing b
    refine ⟨Or.inr (by rw [hstatus]; rfl), fun _ => ?_⟩
    rw [Response.finalStatus, hstatus]
    rfl

end ApiTest.Net
