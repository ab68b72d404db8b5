import ApiTest.Text.GoString

/-! The audit event, its payload and the query filter. An instant is its number
of nanoseconds after Go's zero time, so `IsZero` is equality with `0` and the
location of a `time.Time`, which no comparison reads, is dropped. Field defaults
are Go's zero values. -/

namespace ApiTest.Audit

open Text

/-- A `time.Time`. -/
abbrev Time := ℤ

/-- A `map[string][]string` such as `http.Header` or `url.Values`: the keys are
distinct, and the order of the list stands for some iteration order. -/
abbrev Values := List (GoString × List GoString)

/-- The first value under a key, `""` without one (`Header.Get`, `Values.Get`).
Header keys are stored in canonical form and asked for in it. -/
def Values.get (h : Values) (key : GoString) : GoString :=
  ((h.lookup key).getD []).headD []

/-- The full request and response envelope of one event. -/
structure Payload where
  requestHeaders : Values := []
  requestQuery : Values := []
  requestContentType : GoString := []
  requestBody : GoString := []
  requestSizeBytes : ℤ := 0
  requestTruncated : Bool := false
  requestRemoteAddr : GoString := []
  responseHeaders : Values := []
  responseContentType : GoString := []
  responseBody : GoString := []
  responseSizeBytes : ℤ := 0
  responseTruncated : Bool := false
  replayedFrom : GoString := []
  deriving DecidableEq, Repr

/-- The indexable summary of one inbound request. -/
structure Event where
  id : GoString := []
  timestamp : Time := 0
  durationMS : ℤ := 0
  requestID : GoString := []
  sessionID : GoString := []
  userSubject : GoString := []
  userEmail : GoString := []
  authType : GoString := []
  apiKeyName : GoString := []
  method : GoString := []
  path : GoString := []
  routeName : GoString := []
  endpointGroup : GoString := []
  status : ℤ := 0
  bytesIn : ℤ := 0
  bytesOut : ℤ := 0
  success : Bool := false
  errorMessage : GoString := []
  errorCategory : GoString := []
  remoteAddr : GoString := []
  userAgent : GoString := []
  payload : Option Payload := none
  deriving DecidableEq, Repr

/-- `NewEvent`, at the clock reading `now`. -/
def newEvent (now : Time) (method path : GoString) : Event :=
  { timestamp := now, method := method, path := path }

/-- The header the portal's replay handler marks its requests with. -/
def replayHeaderName : GoString := lit "X-Plexara-Replay-From"

/-! ### Redaction -/

def redacted : GoString := lit "[redacted]"

section Redaction
variable [UnicodeCase]

/-- `matchesRedactKey`: case-insensitive substring; blank keys match nothing. -/
def matchesRedactKey (key : GoString) (redactKeys : List GoString) : Bool :=
  redactKeys.any fun rk => rk ≠ [] && contains (toLower key) (toLower rk)

/-- A redact key matches itself. -/
theorem matchesRedactKey_of_mem {key : GoString} {redactKeys : List GoString}
    (h : key ∈ redactKeys) (hne : key ≠ []) : matchesRedactKey key redactKeys = true := by
  refine List.any_eq_true.mpr ⟨key, h, ?_⟩
  simp [hne, contains]

/-- The body shared by `SanitizeHeaders` and `SanitizeQuery`. -/
def sanitize (h : Values) (redactKeys : List GoString) : Values :=
  h.map fun (k, v) => if matchesRedactKey k redactKeys then (k, [redacted]) else (k, v)

/-- `SanitizeHeaders`; without redact keys the map is copied as it is. -/
def sanitizeHeaders (h : Values) (redactKeys : List GoString) : Values :=
  if redactKeys = [] then h else sanitize h redactKeys

/-- `SanitizeQuery`. -/
def sanitizeQuery (q : Values) (redactKeys : List GoString) : Values :=
  if redactKeys = [] then q else sanitize q redactKeys

end Redaction

/-! ### Filters -/

/-- The largest page any backend returns. -/
def maxQueryLimit : ℕ := 1000

/-- `QueryFilter`; the predicates are combined with "and". `OrderDesc` is left
out: no backend reads it. -/
structure QueryFilter where
  fromTime : Time := 0
  toTime : Time := 0
  method : GoString := []
  path : GoString := []
  routeName : GoString := []
  userID : GoString := []
  sessionID : GoString := []
  eventID : GoString := []
  status : ℤ := 0
  success : Option Bool := none
  search : GoString := []
  limit : ℤ := 0
  offset : ℤ := 0
  deriving DecidableEq, Repr

end ApiTest.Audit
