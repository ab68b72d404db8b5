import ApiTest.Configuration.Load
import ApiTest.Middleware.Endpoint

/-! The endpoints that show a request to its caller: `/v1/whoami` and
`/v1/headers` (`pkg/endpoints/identity`), `/v1/echo` and `/v1/method/echo`. What
they answer is captured as a response body, so a value that is redacted in the
captured request can come back there. Headers are redacted a second time by the
handlers; the query is echoed as it is. -/

open ApiTest.Inbound

namespace ApiTest.Endpoints

open Text Audit Middleware Multimap

/-! ### Answers -/

/-- The response types of the three packages. The value that `/v1/echo` decodes
from the body is given by its JSON text; the scopes of `WhoamiResponse` are those of the
identity, which no authenticator fills in, and left out of the JSON when empty. -/
inductive ResponseBody where
  | whoami (subject email authType keyName : GoString) (claims : Auth.Claims)
  | headers (headers : Values) (count : ℕ)
  | echo (method path : GoString) (query headers : Values) (body : Option GoString)
      (bodyRawText : GoString) (bodySize : ℕ)
  | method (method path : GoString) (query : Values)

/-- `encoding/json`: whether a text decodes into an `any`, and what `Encode`
writes. -/
class ResponseJSON where
  valid : GoString → Bool
  encode : ResponseBody → GoString

/-- What a handler does: read of the body, set response headers and encode a
body. -/
structure Answer where
  reads : List GoString := []
  header : Values := [(lit "Content-Type", [lit "application/json"])]
  body : Option ResponseBody

/-- The response headers that `RequestID` and `CORS` have set before the handler
runs. -/
def outerHeader (requestID : GoString) : Values :=
  [(lit "X-Request-Id", [requestID]),
    (lit "Access-Control-Allow-Origin", [lit "*"]),
    (lit "Access-Control-Allow-Methods", [lit "GET, POST, PUT, PATCH, DELETE, HEAD, OPTIONS"]),
    (lit "Access-Control-Allow-Headers", [lit "Authorization, Content-Type, X-API-Key, X-Request-Id"]),
    (lit "Access-Control-Expose-Headers", [lit "X-Request-Id"]),
    (lit "Access-Control-Max-Age", [lit "600"])]

/-- The actions of an answer to a request; the connection takes `taken` bytes of
the body. -/
def Answer.acts [ResponseJSON] (a : Answer) (r : HandlerRequest) (taken : ℕ) : List HandlerAct :=
  a.reads.map .read ++ [.setHeader (outerHeader r.requestID ++ a.header), .writeHeader 200] ++
    (a.body.map fun b => .write (ResponseJSON.encode b) taken).toList

/-! ### Handlers -/

section Handlers
variable [UnicodeCase] (redactKeys : List GoString)

/-- `shouldRedact` of a group made with the given keys; `New` lower-cases them. -/
def shouldRedact (headerLower : GoString) : Bool :=
  (redactKeys.map toLower).any fun r => contains headerLower r

/-- The loop over the request headers in `headers` and in the handler of
`/v1/echo`. -/
def redactedHeaders (header : Values) : Values :=
  header.map fun e => (e.1, if shouldRedact redactKeys (toLower e.1) then [redacted] else e.2)

def whoami (r : HandlerRequest) : Answer where
  body := some <| match r.identity with
    | none => .whoami [] [] (lit "anonymous") [] []
    | some id => .whoami id.subject id.email id.authType id.keyName id.claims

def headers (r : HandlerRequest) : Answer where
  body := some (.headers (redactedHeaders redactKeys r.header) r.header.length)

/-- The handler of `/v1/echo`. -/
def echo [ResponseJSON] (r : HandlerRequest) : Answer :=
  if r.method = lit "HEAD" then { body := none }
  else
    let raw := (r.body.getD []).take (2 ^ 20)
    { reads := (r.body.map fun _ => raw).toList
      body := some <| .echo r.method r.path r.query (redactedHeaders redactKeys r.header)
        (if raw ≠ [] ∧ ResponseJSON.valid raw then some raw else none)
        (if raw ≠ [] ∧ ¬ ResponseJSON.valid raw then raw else []) raw.length }

def supportedMethods : List GoString :=
  ["GET", "POST", "PUT", "PATCH", "DELETE", "HEAD", "OPTIONS"].map lit

/-- The handler of `/v1/method/echo`. -/
def methodEcho (r : HandlerRequest) : Answer where
  header := [(lit "Content-Type", [lit "application/json"])] ++
    if r.method = lit "OPTIONS" then
      [(lit "Allow", [(lit ", ").intercalate supportedMethods])]
    else []
  body := if r.method = lit "HEAD" then none else some (.method r.method r.path r.query)

/-! ### Routes -/

/-- A route with its handler. -/
abbrev ReflectRoute := EndpointMeta × (HandlerRequest → Answer)

def identityRoutes : List ReflectRoute :=
  [(⟨lit "whoami", lit "GET", lit "/v1/whoami"⟩, whoami),
    (⟨lit "headers", lit "GET", lit "/v1/headers"⟩, headers redactKeys)]

def echoRoutes [ResponseJSON] : List ReflectRoute :=
  (["GET", "POST", "PUT", "PATCH", "DELETE", "HEAD"].map lit).map fun m =>
    (⟨lit "echo_" ++ toLower m, m, lit "/v1/echo"⟩, echo redactKeys)

def methodsRoutes : List ReflectRoute :=
  supportedMethods.map fun m => (⟨lit "method_" ++ toLower m, m, lit "/v1/method/echo"⟩, methodEcho)

end Handlers

/-! ### What is captured of an answer -/

theorem serve_reads (opts : AuditOptions) (hasBody : Bool) (reads : List GoString) (x : Exchange) :
    ((reads.map HandlerAct.read).foldl (Exchange.act opts hasBody) x).response = x.response := by
  induction reads generalizing x with
  | nil => rfl
  | cons chunk reads ih =>
    rw [List.map_cons, List.foldl_cons, ih]
    simp only [Exchange.act]
    split_ifs <;> rfl

/-- The first write of a recorder. -/
theorem write_first {a : Recorder} (hbody : a.body = []) (max : ℤ) (capture : Bool) (b : GoString)
    (n : ℕ) : (a.write max capture b n).header = a.header ∧
      (a.write max capture b n).body = if capture then b.take max.toNat else [] := by
  have hheader : (a.writeHeader 200).header = a.header ∧ (a.writeHeader 200).body = [] := by
    unfold Recorder.writeHeader
    split_ifs <;> exact ⟨rfl, hbody⟩
  cases capture with
  | false => exact hheader
  | true =>
    refine ⟨hheader.1, ?_⟩
    simp only [Recorder.write, if_true, Recorder.capture, hheader.2, List.length_nil, List.nil_append]
    rw [show max - ((0 : ℕ) : ℤ) = max by omega, ← List.take_eq_take_min]

/-- The captured response is that of the headers and the body; what was read and
how much the connection took do not matter. -/
theorem response_acts [ResponseJSON] (opts : AuditOptions) (hasBody : Bool) (a : Answer)
    (r : HandlerRequest) (taken : ℕ) :
    (serve opts hasBody (a.acts r taken)).response.header = outerHeader r.requestID ++ a.header ∧
    (serve opts hasBody (a.acts r taken)).response.body = if opts.capturePayloads then
      ((a.body.map ResponseJSON.encode).getD []).take opts.maxPayloadBytes.toNat else [] := by
  have hreads := serve_reads opts hasBody a.reads {}
  rw [serve, Answer.acts, List.foldl_append, List.foldl_append]
  generalize (a.reads.map HandlerAct.read).foldl (Exchange.act opts hasBody) {} = x at hreads
  have hfresh : x.response.body = [] := congrArg Recorder.body hreads
  cases a.body with
  | none => simp [Exchange.act, hreads, Recorder.writeHeader]
  | some b =>
    have hsent : (({ x.response with header := outerHeader r.requestID ++ a.header } :
        Recorder).writeHeader 200).body = [] := by
      unfold Recorder.writeHeader
      split_ifs <;> exact hfresh
    obtain ⟨hheader, hbody⟩ := write_first hsent opts.maxPayloadBytes opts.capturePayloads
      (ResponseJSON.encode b) taken
    refine ⟨hheader.trans ?_, hbody⟩
    unfold Recorder.writeHeader
    split_ifs <;> rfl

/-- The parts of a payload that hold names and values of the request. -/
structure Shown where
  requestHeaders : Values
  requestQuery : Values
  responseHeaders : Values
  responseBody : GoString
  deriving DecidableEq

def shown (p : Payload) : Shown :=
  ⟨p.requestHeaders, p.requestQuery, p.responseHeaders, p.responseBody⟩

section Shown
variable [UnicodeCase]

/-- Requests that differ at most in values under matching names. -/
structure DifferRedacted (redactKeys : List GoString) (r r' : HandlerRequest) : Prop where
  same : r' = { r with header := r'.header, query := r'.query }
  header : AgreeOff (matchesRedactKey · redactKeys) r.header r'.header
  query : AgreeOff (matchesRedactKey · redactKeys) r.query r'.query

/-- Requests that differ so and get the same answer leave the same traces. -/
theorem shown_eq [ResponseJSON] {registry : Option Registry} {opts : AuditOptions}
    {clock clock' : Clock} {r r' : HandlerRequest} (h : DifferRedacted opts.redactKeys r r')
    {a : Answer} {taken taken' : ℕ} :
    (audit registry opts clock r.audited (a.acts r taken)).payload.map shown =
      (audit registry opts clock' r'.audited (a.acts r' taken')).payload.map shown := by
  have hheader := sanitize_eq_of_agreeOff opts.redactKeys (fun _ hk => hk) h.header
  have hquery := sanitize_eq_of_agreeOff opts.redactKeys (fun _ hk => hk) h.query
  have hid : r'.requestID = r.requestID := by rw [h.same]
  obtain ⟨hresponse, hbody⟩ := response_acts opts.withDefaults r.audited.hasBody a r taken
  obtain ⟨hresponse', hbody'⟩ := response_acts opts.withDefaults r'.audited.hasBody a r' taken'
  cases hcapture : opts.capturePayloads with
  | false => simp [audit, hcapture]
  | true =>
    simp only [audit, withDefaults_capturePayloads, hcapture, if_true, Option.map_some, shown, payload,
      withDefaults_captureHeaders, withDefaults_redactKeys, sanitizeHeaders_eq, sanitizeQuery_eq,
      hresponse, hresponse', hbody, hbody', hid]
    rw [show r.audited.header = r.header from rfl, show r'.audited.header = r'.header from rfl,
      show r.audited.query = r.query from rfl, show r'.audited.query = r'.query from rfl, hheader,
      hquery]

/-- A name that the middleware redacts is redacted by the handlers. -/
theorem shouldRedact_of_matches {redactKeys : List GoString} {key : GoString}
    (h : matchesRedactKey key redactKeys = true) : shouldRedact redactKeys (toLower key) = true := by
  obtain ⟨rk, hmem, hrk⟩ := List.any_eq_true.mp h
  rw [Bool.and_eq_true] at hrk
  exact List.any_eq_true.mpr ⟨toLower rk, List.mem_map_of_mem hmem, hrk.2⟩

theorem redactedHeaders_eq {redactKeys : List GoString} {h h' : Values}
    (hagree : AgreeOff (matchesRedactKey · redactKeys) h h') :
    redactedHeaders redactKeys h = redactedHeaders redactKeys h' := by
  refine hagree.map_eq
    (f := fun k vs => (k, if shouldRedact redactKeys (toLower k) then [redacted] else vs)) ?_
  intro k hk vs vs'
  simp only [shouldRedact_of_matches hk, if_true]

variable {redactKeys : List GoString} {r r' : HandlerRequest}

/-- The identity endpoints do not look at the query. -/
theorem answer_identity (h : DifferRedacted redactKeys r r') {route : ReflectRoute}
    (hroute : route ∈ identityRoutes redactKeys) : route.2 r = route.2 r' := by
  have hid : r'.identity = r.identity := by rw [h.same]
  simp only [identityRoutes, List.mem_cons, List.not_mem_nil, or_false] at hroute
  obtain rfl | rfl := hroute
  · simp only [whoami, hid]
  · simp only [headers, redactedHeaders_eq h.header, List.Forall₂.length_eq h.header]

/-- The echo endpoints answer alike if they show the same query or none. -/
theorem answer_echo [ResponseJSON] (h : DifferRedacted redactKeys r r') {route : ReflectRoute}
    (hroute : route ∈ echoRoutes redactKeys ++ methodsRoutes)
    (hquery : r.query = r'.query ∨ r.method = lit "HEAD") : route.2 r = route.2 r' := by
  have hmethod : r'.method = r.method := by rw [h.same]
  have hpath : r'.path = r.path := by rw [h.same]
  have hbody : r'.body = r.body := by rw [h.same]
  have hshown : r.method = lit "HEAD" ∨ r'.query = r.query := hquery.symm.imp_right Eq.symm
  rw [List.mem_append] at hroute
  obtain hroute | hroute := hroute
  · obtain ⟨m, -, rfl⟩ := List.mem_map.mp hroute
    simp only [echo, hmethod, hpath, hbody, redactedHeaders_eq h.header]
    obtain hhead | hsame := hshown
    · simp only [hhead, if_true]
    · rw [hsame]
  · obtain ⟨m, -, rfl⟩ := List.mem_map.mp hroute
    simp only [methodEcho, hmethod, hpath]
    obtain hhead | hsame := hshown
    · simp only [hhead, if_true]
    · rw [hsame]

end Shown

section
variable [UnicodeCase] [ResponseJSON] (chain : Chain) (registry : Option Registry)
  (opts : AuditOptions)

/-- What the event of a request to a route shows, if one is logged. -/
def shownBy (route : ReflectRoute) (taken : ℕ) (clock : Clock) (r : HandlerRequest) :
    Option (Option Shown) :=
  (endpointMW chain registry opts (fun r => (route.2 r).acts r taken) clock r).map fun ev =>
    ev.payload.map shown

/-- For any two requests to a route of the three groups that differ only in values
under names that match a redact key, and that run under the same identity: the
events have the same captured headers, query, response headers and response body,
if the route is one of the identity group, or the method is HEAD, or the queries
are the same. -/
theorem reflected_alike (route : ReflectRoute) (r r' : HandlerRequest)
    (hdiffer : DifferRedacted opts.redactKeys r r')
    (hsame : (identity chain r.identity r.wire).runs = (identity chain r'.identity r'.wire).runs)
    (hroute : route ∈ identityRoutes opts.redactKeys ∨
      route ∈ echoRoutes opts.redactKeys ++ methodsRoutes ∧
        (r.query = r'.query ∨ r.method = lit "HEAD"))
    (taken taken' : ℕ) (clock clock' : Clock) :
    shownBy chain registry opts route taken clock r =
      shownBy chain registry opts route taken' clock' r' := by
  rw [shownBy, shownBy, endpointMW, endpointMW, hsame, Option.map_map, Option.map_map]
  congr 1
  funext id
  -- under the resolved identity the two requests still differ in redacted values only
  have hrun : DifferRedacted opts.redactKeys { r with identity := id } { r' with identity := id } :=
    ⟨by rw [hdiffer.same], hdiffer.header, hdiffer.query⟩
  have hanswer : route.2 { r with identity := id } = route.2 { r' with identity := id } := by
    obtain hroute | ⟨hroute, hquery⟩ := hroute
    · exact answer_identity hrun hroute
    · exact answer_echo hrun hroute hquery
  simp only [Function.comp, hanswer]
  exact shown_eq hrun

end

/-! ### Two requests -/

/-- An encoder that writes the shown headers and query. -/
@[reducible] def plainJSON : ResponseJSON where
  valid _ := false
  encode
    | .whoami subject _ _ _ _ => subject
    | .headers headers _ => headers.flatMap fun e => e.1 ++ e.2.flatten
    | .echo _ _ query headers _ _ _ => (query ++ headers).flatMap fun e => e.1 ++ e.2.flatten
    | .method _ _ query => query.flatMap fun e => e.1 ++ e.2.flatten

/-- Capture of everything with the default redact keys. -/
def defaultCapture : AuditOptions := ⟨true, true, 0, Configuration.defaultRedactKeys⟩

/-- The chain with the default names that lets everybody in. -/
def anonymousChain : Chain := @Inbound.build ⟨fun _ => none⟩ { plainConfig with allowAnonymous := true }

def tokenHeader (value : GoString) : HandlerRequest where
  method := lit "GET"
  path := lit "/v1/headers"
  header := [(lit "X-Token", [value])]

def tokenQuery (value : GoString) : HandlerRequest where
  method := lit "GET"
  path := lit "/v1/echo"
  query := [(lit "token", [value])]

def headersRoute : ReflectRoute :=
  (⟨lit "headers", lit "GET", lit "/v1/headers"⟩, @headers asciiCase defaultCapture.redactKeys)

def echoGetRoute : ReflectRoute :=
  (⟨lit "echo_get", lit "GET", lit "/v1/echo"⟩, @echo asciiCase defaultCapture.redactKeys plainJSON)

theorem agreeOff_token {name value value' : GoString}
    (h : @matchesRedactKey asciiCase name defaultCapture.redactKeys = true) :
    AgreeOff (@matchesRedactKey asciiCase · defaultCapture.redactKeys) [(name, [value])]
      [(name, [value'])] := by
  refine List.Forall₂.cons ⟨rfl, fun hno => ?_⟩ List.Forall₂.nil
  exact absurd (h.symm.trans hno) (by decide)

/-- A redacted header does not come back. -/
theorem header_not_reflected :
    @shownBy asciiCase plainJSON anonymousChain none defaultCapture headersRoute 0 ⟨0, 0, 0⟩
        (tokenHeader (lit "a")) =
      @shownBy asciiCase plainJSON anonymousChain none defaultCapture headersRoute 0 ⟨0, 0, 0⟩
        (tokenHeader (lit "b")) := by
  have hdiffer : @DifferRedacted asciiCase defaultCapture.redactKeys (tokenHeader (lit "a"))
      (tokenHeader (lit "b")) :=
    @DifferRedacted.mk asciiCase _ _ _ rfl (agreeOff_token (by decide +kernel)) List.Forall₂.nil
  exact @reflected_alike asciiCase plainJSON anonymousChain none defaultCapture headersRoute _ _
    hdiffer rfl (Or.inl (List.mem_cons_of_mem _ List.mem_cons_self)) 0 0 _ _

/-- A query parameter that is redacted in the captured query comes back in the
captured body of the echo. -/
theorem query_reflected :
    echoGetRoute ∈ @echoRoutes asciiCase defaultCapture.redactKeys plainJSON ∧
    @DifferRedacted asciiCase defaultCapture.redactKeys (tokenQuery (lit "a"))
      (tokenQuery (lit "b")) ∧
    @shownBy asciiCase plainJSON anonymousChain none defaultCapture echoGetRoute 0 ⟨0, 0, 0⟩
        (tokenQuery (lit "a")) ≠
      @shownBy asciiCase plainJSON anonymousChain none defaultCapture echoGetRoute 0 ⟨0, 0, 0⟩
        (tokenQuery (lit "b")) := by
  refine ⟨List.mem_cons_self, @DifferRedacted.mk asciiCase _ _ _ rfl List.Forall₂.nil ?_, ?_⟩
  · exact agreeOff_token (@matchesRedactKey_of_mem asciiCase _ _ (by decide) (by decide))
  · -- the captured bodies differ
    refine ne_of_apply_ne (fun s => s.map fun p => p.map Shown.responseBody) ?_
    decide +kernel

end ApiTest.Endpoints
