import ApiTest.Audit.Event
import ApiTest.Endpoints.Registry

/-! The audit middleware (`pkg/httpmw/audit.go`). The request body is copied
while the handler reads it, the response while the handler writes it, each up to
a cap; when the handler has returned, one event with its payload goes to the
logger. What the handler does is a list of actions on the two sides, so the
model holds for every handler that returns. -/

namespace ApiTest.Middleware

open Text Audit Endpoints

structure AuditOptions where
  capturePayloads : Bool
  captureHeaders : Bool
  maxPayloadBytes : ℤ
  redactKeys : List GoString

def AuditOptions.withDefaults (o : AuditOptions) : AuditOptions :=
  if o.maxPayloadBytes = 0 then { o with maxPayloadBytes := 2 ^ 20 } else o

@[simp] theorem withDefaults_capturePayloads (o : AuditOptions) :
    o.withDefaults.capturePayloads = o.capturePayloads := by
  unfold AuditOptions.withDefaults
  split <;> rfl

@[simp] theorem withDefaults_captureHeaders (o : AuditOptions) :
    o.withDefaults.captureHeaders = o.captureHeaders := by
  unfold AuditOptions.withDefaults
  split <;> rfl

@[simp] theorem withDefaults_redactKeys (o : AuditOptions) :
    o.withDefaults.redactKeys = o.redactKeys := by
  unfold AuditOptions.withDefaults
  split <;> rfl

/-- The fields of `inbound.Identity` the event takes. -/
structure Identity where
  subject : GoString
  email : GoString
  authType : GoString
  keyName : GoString

/-- The request as the middleware finds it: `r.Method`, `r.URL.Path`,
`r.URL.Query()`, `r.Header`, `r.RemoteAddr`, whether `r.Body` is set, and what
the context holds. -/
structure Inbound where
  method : GoString
  path : GoString
  query : Values
  header : Values
  remoteAddr : GoString
  hasBody : Bool
  requestID : GoString
  identity : Option Identity

/-! ### Capture -/

/-- The capped copy of the request body. -/
structure Capture where
  buf : GoString := []
  oversize : Bool := false

/-- `capWriter.Write`. -/
def Capture.write (max : ℤ) (p : GoString) (c : Capture) : Capture :=
  let remaining := max - c.buf.length
  if remaining ≤ 0 then { c with oversize := true }
  else
    let n := min remaining.toNat p.length
    { buf := c.buf ++ p.take n, oversize := c.oversize || n < p.length }

/-- `auditRecorder`, with the header map of the writer it wraps. -/
structure Recorder where
  status : ℤ := 200
  wroteHeader : Bool := false
  body : GoString := []
  truncated : Bool := false
  bytesTotal : ℤ := 0
  header : Values := []

/-- `auditRecorder.WriteHeader`: the first call decides. -/
def Recorder.writeHeader (code : ℤ) (a : Recorder) : Recorder :=
  if a.wroteHeader then a else { a with wroteHeader := true, status := code }

/-- The part of `auditRecorder.Write` that fills the buffer. -/
def Recorder.capture (max : ℤ) (b : GoString) (a : Recorder) : Recorder :=
  let captured := min (max - a.body.length).toNat b.length
  { a with
    body := a.body ++ b.take captured
    truncated := a.truncated || captured < b.length }

/-- `auditRecorder.Write`; the wrapped writer accepts `n` bytes. -/
def Recorder.write (max : ℤ) (capture : Bool) (b : GoString) (n : ℕ) (a : Recorder) : Recorder :=
  let a := a.writeHeader 200
  let a := if capture then a.capture max b else a
  { a with bytesTotal := a.bytesTotal + n }

/-- What a handler does: it reads bytes of the body, changes the response header
map, sends a status, or writes bytes of which the connection takes `n`. -/
inductive HandlerAct where
  | read (chunk : GoString)
  | setHeader (header : Values)
  | writeHeader (code : ℤ)
  | write (b : GoString) (n : ℕ)

/-- Both sides of an exchange. -/
structure Exchange where
  request : Capture := {}
  response : Recorder := {}

section Exchange
variable (opts : AuditOptions) (hasBody : Bool)

/-- One action under the middleware. A read of no bytes writes nothing into the
copy, and without a body or without capture there is no copy. -/
def Exchange.act (x : Exchange) : HandlerAct → Exchange
  | .read chunk =>
    if hasBody && opts.capturePayloads && chunk ≠ [] then
      { x with request := x.request.write opts.maxPayloadBytes chunk }
    else x
  | .setHeader header => { x with response := { x.response with header := header } }
  | .writeHeader code => { x with response := x.response.writeHeader code }
  | .write b n =>
    { x with response := x.response.write opts.maxPayloadBytes opts.capturePayloads b n }

/-- `next.ServeHTTP(rec, r)`. -/
def serve (acts : List HandlerAct) : Exchange := acts.foldl (Exchange.act opts hasBody) {}

end Exchange

/-! ### The event -/

/-- The clock readings of one request: at its start, in `NewEvent`, at its
end. -/
structure Clock where
  start : Time
  created : Time
  finish : Time

section Event
variable [UnicodeCase]

/-- The payload of an exchange. The replay marker is copied from the request
header as it is. -/
def payload (opts : AuditOptions) (r : Inbound) (x : Exchange) : Payload where
  requestSizeBytes := x.request.buf.length
  requestTruncated := x.request.oversize
  requestRemoteAddr := r.remoteAddr
  requestContentType := r.header.get (lit "Content-Type")
  requestBody := x.request.buf
  responseSizeBytes := x.response.bytesTotal
  responseTruncated := x.response.truncated
  responseContentType := x.response.header.get (lit "Content-Type")
  responseBody := x.response.body
  replayedFrom := r.header.get replayHeaderName
  requestHeaders := if opts.captureHeaders then sanitizeHeaders r.header opts.redactKeys else []
  requestQuery := if opts.captureHeaders then sanitizeQuery r.query opts.redactKeys else []
  responseHeaders :=
    if opts.captureHeaders then sanitizeHeaders x.response.header opts.redactKeys else []

/-- The event `Audit` logs for a request and a handler's run. -/
def audit (registry : Option Registry) (opts : AuditOptions) (clock : Clock) (r : Inbound)
    (acts : List HandlerAct) : Event :=
  let opts := opts.withDefaults
  let x := serve opts r.hasBody acts
  let labels := match registry with
    | some registry => registry.routeForRequest r.method r.path
    | none => ([], [])
  { newEvent clock.created r.method r.path with
    requestID := r.requestID
    remoteAddr := r.remoteAddr
    userAgent := r.header.get (lit "User-Agent")
    userSubject := (r.identity.map Identity.subject).getD []
    userEmail := (r.identity.map Identity.email).getD []
    authType := (r.identity.map Identity.authType).getD []
    apiKeyName := (r.identity.map Identity.keyName).getD []
    endpointGroup := labels.1
    routeName := labels.2
    status := x.response.status
    bytesIn := if x.request.oversize then opts.maxPayloadBytes else x.request.buf.length
    bytesOut := x.response.bytesTotal
    durationMS := (clock.finish - clock.start).tdiv 1000000
    success := decide (200 ≤ x.response.status ∧ x.response.status < 400)
    payload := if opts.capturePayloads then some (payload opts r x) else none }

/-- An event has a payload only with capture on, and it is that of the exchange. -/
theorem payload_of_audit {registry : Option Registry} {opts : AuditOptions} {clock : Clock}
    {r : Inbound} {acts : List HandlerAct} {p : Payload}
    (h : (audit registry opts clock r acts).payload = some p) :
    opts.capturePayloads = true ∧
    p = payload opts.withDefaults r (serve opts.withDefaults r.hasBody acts) := by
  simp only [audit, withDefaults_capturePayloads] at h
  split_ifs at h with hcapture
  cases h
  exact ⟨hcapture, rfl⟩

section
variable (registry : Option Registry) (opts : AuditOptions) (clock : Clock) (r : Inbound)
  (acts : List HandlerAct)

/-- The middleware leaves the id to the store. -/
@[simp] theorem audit_id : (audit registry opts clock r acts).id = [] := rfl

/-- With capture on, every event has a payload, and its replay marker is the
request's header. -/
theorem audit_payload (h : opts.capturePayloads = true) :
    ∃ p, (audit registry opts clock r acts).payload = some p ∧
      p.replayedFrom = r.header.get replayHeaderName := by
  refine ⟨payload opts.withDefaults r (serve opts.withDefaults r.hasBody acts), ?_, rfl⟩
  simp [audit, h]

end

end Event

end ApiTest.Middleware
