import ApiTest.Audit.Event

/-! The query string of the audit endpoints. `time.Parse` with the RFC 3339
layout is a parameter: it is `none` where Go returns an error. -/

namespace ApiTest.Portal

open Text Audit

variable (parseTime : GoString → Option Time) (q : Values)

/-- A time parameter; blank and malformed values leave it at the zero time. -/
def timeParam (key : GoString) : Time :=
  if q.get key = [] then 0 else (parseTime (q.get key)).getD 0

/-- `limit` and `offset`: the error of `Atoi` is dropped and only a positive value
is used, so a value out of range counts as the largest integer. -/
def positiveParam (key : GoString) : ℤ :=
  let v := (atoi (q.get key)).1
  if 0 < v then v else 0

/-- `status`: a blank or malformed value leaves it at zero. -/
def statusParam : ℤ :=
  if q.get (lit "status") = [] then 0
  else match atoi (q.get (lit "status")) with
    | (n, none) => n
    | (_, some _) => 0

def successParam : Option Bool :=
  if q.get (lit "success") = lit "true" then some true
  else if q.get (lit "success") = lit "false" then some false
  else none

/-- `parseQueryFilter`. -/
def parseQueryFilter : QueryFilter where
  fromTime := timeParam parseTime q (lit "from")
  toTime := timeParam parseTime q (lit "to")
  method := q.get (lit "method")
  path := q.get (lit "path")
  routeName := q.get (lit "route_name")
  userID := q.get (lit "user")
  sessionID := q.get (lit "session")
  search := q.get (lit "q")
  status := statusParam q
  success := successParam q
  limit := positiveParam q (lit "limit")
  offset := positiveParam q (lit "offset")

end ApiTest.Portal
