import ApiTest.Audit.Redaction
import ApiTest.Middleware.Identity

/-! The two middlewares around every endpoint, as `Build` composes them: the
identity middleware resolves who is calling or answers an error, and only the
requests it passes on reach the audit middleware and the handler. Direct calls,
Try-It and replays all come in here. -/

open ApiTest.Inbound

namespace ApiTest.Middleware

open Text Audit Endpoints

/-- A request as an endpoint handler finds it. A `nil` body is `none`. -/
structure HandlerRequest where
  method : GoString
  path : GoString
  query : Values := []
  header : Values := []
  remoteAddr : GoString := []
  body : Option GoString := none
  requestID : GoString := []
  identity : Option Inbound.Identity := none

/-- What the authenticators read of it. -/
def HandlerRequest.wire (r : HandlerRequest) : Wire := ⟨r.header, r.query⟩

/-- What the audit middleware reads of it. -/
def HandlerRequest.audited (r : HandlerRequest) : Inbound where
  method := r.method
  path := r.path
  query := r.query
  header := r.header
  remoteAddr := r.remoteAddr
  hasBody := r.body.isSome
  requestID := r.requestID
  identity := r.identity.map (·.toIdentity)

/-- The identity under which the handler runs, if it runs. -/
def Verdict.runs : Verdict → Option (Option Inbound.Identity)
  | .carried id => some (some id)
  | .resolved id => some id
  | .rejected .. => none

section
variable [UnicodeCase]

/-- `endpointMW` around a handler: the event that is logged for a request, none if
the identity middleware answers it. The identity of the request is the one its
context already holds. -/
def endpointMW (chain : Chain) (registry : Option Registry) (opts : AuditOptions)
    (handler : HandlerRequest → List HandlerAct) (clock : Clock) (r : HandlerRequest) :
    Option Event :=
  (identity chain r.identity r.wire).runs.map fun id =>
    let r := { r with identity := id }
    audit registry opts clock r.audited (handler r)

/-- A logged event is the audit of the request under the identity it ran with. -/
theorem endpointMW_eq_some {chain : Chain} {registry : Option Registry} {opts : AuditOptions}
    {handler : HandlerRequest → List HandlerAct} {clock : Clock} {r : HandlerRequest} {ev : Event}
    (h : endpointMW chain registry opts handler clock r = some ev) :
    ∃ id, (identity chain r.identity r.wire).runs = some id ∧
      ev = audit registry opts clock { r with identity := id }.audited
        (handler { r with identity := id }) := by
  obtain ⟨id, hid, rfl⟩ := Option.map_eq_some_iff.mp h
  exact ⟨id, hid, rfl⟩

/-- The request headers and the query in a payload. -/
theorem captured_of_audit {registry : Option Registry} {opts : AuditOptions} {clock : Clock}
    {r : Inbound} {acts : List HandlerAct} {p : Payload}
    (h : (audit registry opts clock r acts).payload = some p) :
    p.requestHeaders = (if opts.captureHeaders then sanitize r.header opts.redactKeys else []) ∧
    p.requestQuery = (if opts.captureHeaders then sanitize r.query opts.redactKeys else []) := by
  obtain ⟨-, rfl⟩ := payload_of_audit h
  simp only [payload, withDefaults_captureHeaders, withDefaults_redactKeys, sanitizeHeaders_eq,
    sanitizeQuery_eq, and_self]

end

end ApiTest.Middleware
