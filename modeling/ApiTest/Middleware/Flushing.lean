import ApiTest.Endpoints.Streaming
import ApiTest.Middleware.Recorders

/-! Flushing through the middleware. The recording writers embed
`http.ResponseWriter`, which has no `Flush`, so the type assertion of a streaming
handler fails below them even if the server's writer can flush. What reaches the
server is then the handler's traffic without a flusher. -/

namespace ApiTest.Middleware

open Text Net Endpoints

variable {σ ρ : Type}

/-- A recording writer relays what its inner writer relays: the status it may
send first is no write. -/
theorem relays_recording (wroteHeader : ρ → Bool) (sendHeader : ℤ → ρ → ρ)
    (recordWrite : GoString → ℕ → ρ → ρ) {W : ResponseWriter σ} {log : σ → List Traffic}
    (hW : W.Relays log) :
    (recording wroteHeader sendHeader recordWrite W).Relays fun s => log s.2 := by
  rintro ⟨a, s⟩ c
  have hheader (code : ℤ) : log (W.writeHeader code s) = log s :=
    (hW s (.writeHeader code)).trans (List.append_nil _)
  cases c with
  | writeHeader code =>
    by_cases hw : wroteHeader a
    · simp [ResponseWriter.call, recording, hw, Call.traffic]
    · simp [ResponseWriter.call, recording, hw, Call.traffic, hheader]
  | write b =>
    by_cases hw : wroteHeader a
    · simpa [ResponseWriter.call, recording, hw] using hW s (.write b)
    · have hwrite := hW (W.writeHeader 200 s) (.write b)
      rw [hheader] at hwrite
      simpa [ResponseWriter.call, recording, hw] using hwrite

section Stack
variable (opts : AuditOptions) (W : ResponseWriter σ) (s : σ) (h : StreamHandler)

/-- What reaches the server's writer when the handler runs on it directly. -/
def reachesDirectly : List Traffic := (W.tap.stream ([], s) h).1

/-- What reaches it from a portal handler, below `AccessLog`. -/
def reachesFromPortal : List Traffic := ((statusRecorder W.tap).stream ({}, [], s) h).2.1

/-- What reaches it from a `/v1` handler, below `AccessLog` and `Audit`. -/
def reachesFromEndpoint : List Traffic := ((endpointWriter opts W.tap).stream ({}, {}, [], s) h).2.2.1

theorem reachesFromPortal_eq :
    reachesFromPortal W s h = (h.calls false).flatMap StreamCall.traffic := by
  have hrelays : (statusRecorder W.tap).Relays fun s => s.2.1 :=
    relays_recording _ _ _ W.relays_tap
  exact hrelays.stream rfl ({}, [], s) h

theorem reachesFromEndpoint_eq :
    reachesFromEndpoint opts W s h = (h.calls false).flatMap StreamCall.traffic := by
  have hrelays : (endpointWriter opts W.tap).Relays fun s => s.2.2.1 :=
    relays_recording _ _ _ (relays_recording _ _ _ W.relays_tap)
  exact hrelays.stream rfl ({}, {}, [], s) h

/-- The stack preserves the traffic of a handler exactly if the handler, given a
flusher, does not flush and writes what it writes without one. -/
theorem streaming_preserved_iff (f : σ → σ) (hflush : W.flush = some f) :
    (reachesFromPortal W s h = reachesDirectly W s h ↔
      .flush ∉ h.calls true ∧ writes (h.calls true) = writes (h.calls false)) ∧
    (reachesFromEndpoint opts W s h = reachesDirectly W s h ↔
      .flush ∉ h.calls true ∧ writes (h.calls true) = writes (h.calls false)) := by
  have hdirect : reachesDirectly W s h = (h.calls true).flatMap StreamCall.traffic :=
    ResponseWriter.tap_stream hflush ([], s) h
  rw [reachesFromPortal_eq, reachesFromEndpoint_eq, hdirect]
  exact ⟨traffic_eq_iff h.noFlush, traffic_eq_iff h.noFlush⟩

end Stack

/-- A request that `chunked` refuses: the error is written and not flushed. -/
def refusedStream : StreamHandler :=
  Streaming.chunked (fun _ _ => []) [(lit "count", [lit "x"])] fun _ => true

theorem streaming_preserved_refused :
    (serverWriter {}).flush = some (Response.writeHeader 200) ∧
      reachesDirectly (serverWriter {}) {} refusedStream =
        [.write (lit "\x7b\"error\":\"count must be a non-negative integer\"\x7d\n")] ∧
      reachesFromPortal (serverWriter {}) {} refusedStream =
        reachesDirectly (serverWriter {}) {} refusedStream ∧
      reachesFromEndpoint ⟨true, true, 0, []⟩ (serverWriter {}) {} refusedStream =
        reachesDirectly (serverWriter {}) {} refusedStream := by
  have hplain : .flush ∉ refusedStream.calls true ∧
      writes (refusedStream.calls true) = writes (refusedStream.calls false) := by decide
  have hiff := streaming_preserved_iff ⟨true, true, 0, []⟩ (serverWriter {}) {} refusedStream
    (Response.writeHeader 200) rfl
  exact ⟨rfl, by decide, hiff.1.mpr hplain, hiff.2.mpr hplain⟩

/-- `auditStream` on the server's writer opens the stream and flushes; below
`AccessLog` it refuses to run. -/
theorem auditStream_refused :
    reachesDirectly (serverWriter {}) {} (Streaming.auditStream []) =
        [.write (lit ": stream open\n"), .flush] ∧
      reachesFromPortal (serverWriter {}) {} (Streaming.auditStream []) =
        [.write (lit "\x7b\"error\":\"streaming not supported by this writer\"\x7d\n")] := by
  decide

end ApiTest.Middleware
