import ApiTest.Apikeys.Answers
import ApiTest.Net.Segments
import ApiTest.Server.Starts
import ApiTest.Transition.Run

/-! The administration of API keys over HTTP: the handlers `listKeys`, `createKey` and
`deleteKey` of the portal behind the mux, the portal's authentication and the header check,
on the table of `pkg/apikeys`. A key is created under any name that is not empty, and it is
deleted by a request whose path carries the name as one segment. The mux decodes the segment
before it matches, and takes one that reads as a slash for the end of the path: so there is
a name that can be created and cannot be deleted. -/

namespace ApiTest.Server

open Text Audit Net Endpoints Portal Apikeys

/-! ### Routes of the portal in the mux -/

/-- The first pattern wins against the second wherever both match. -/
def beats (p q : Pattern) : Bool :=
  q == p || p.comparePathsAndMethods q == .disjoint || p.precedes q

/-- No route of the portal ends in a wildcard for the rest of the path, and each wins against
whatever else the server registers. -/
theorem portal_beats :
    ∀ o ∈ portalRoutes.map (fun route => @parsePattern allNames route.pattern),
      (o.all fun p => !p.lastMulti) = true ∧
      ∀ o' ∈ fullPatterns.map (@parsePattern allNames), (o.all fun p => o'.all fun q => beats p q) = true := by
  unfold fullPatterns laterPatterns probePatterns openAPIPatterns portalPatterns
    browserAuthPatterns portalRoutes routeTable
  repeat rw [lit_ofList]
  decide +kernel

section
variable [WildcardNames] [UnicodeCase] [ResponseJSON] {redactKeys : List GoString}
  {cfg : EndpointsConfig} {d : PortalDeps} {hasDoc : Bool} {mux : ServeMux Mounted}

/-- The mux finds the route of the portal whose pattern accepts the request. -/
theorem portal_find (hapi : d.portalAPI = true)
    (hmux : serverMux (buildRegistry redactKeys cfg) (some d) hasDoc = some mux)
    {route : PortalRoute} (hroute : route ∈ portalRoutes) {p : Pattern}
    (hp : parsePattern route.pattern = some p) {host method : GoString} {segments : List GoString}
    (haccepts : p.accepts host method segments) :
    mux.find host method segments = some (p, .portal route) := by
  obtain ⟨-, hbeats⟩ := portal_beats _ (List.mem_map_of_mem hroute)
  rw [parsePattern_allNames hp] at hbeats
  have hmem : (p, Mounted.portal route) ∈ mux.entries := by
    refine (ServeMux.mem_handleAll hmux).mpr (.inr ⟨(route.pattern, .portal route), ?_, hp, rfl⟩)
    simp only [mounts, portalMounts, Option.map_some, Option.getD_some, hapi, if_true,
      List.mem_append, List.mem_map]
    exact .inr (.inl (.inr (.inl (.inr ⟨route, hroute, rfl⟩))))
  refine ServeMux.find_eq_some hmem haccepts fun f hf hfaccepts => ?_
  obtain hempty | ⟨m, hm, hparse, -⟩ := (ServeMux.mem_handleAll hmux).mp hf
  · cases hempty
  have hfull := (mounts_sublist redactKeys cfg (some d) hasDoc).subset (List.mem_map_of_mem hm)
  have hwins := hbeats _ (List.mem_map_of_mem hfull)
  rw [parsePattern_allNames hparse] at hwins
  simp only [beats, Option.all_some, Bool.or_eq_true, beq_iff_eq] at hwins
  obtain (hsame | hdisjoint) | hprecedes := hwins
  · exact .inl hsame
  · exact absurd hdisjoint (comparePathsAndMethods_ne_disjoint (multiLast_of_parsePattern hp)
      (multiLast_of_parsePattern hparse) haccepts hfaccepts)
  · exact .inr hprecedes

/-- A request with a clean path is served by the route of the portal whose pattern accepts it. -/
theorem portal_dispatch_iff (hapi : d.portalAPI = true)
    (hmux : serverMux (buildRegistry redactKeys cfg) (some d) hasDoc = some mux)
    {route : PortalRoute} (hroute : route ∈ portalRoutes) {p : Pattern}
    (hp : parsePattern route.pattern = some p) {r : Net.Request}
    (hclean : cleanPath r.escapedPath = r.escapedPath) :
    mux.dispatch r = some (.portal route) ↔
      p.accepts r.host r.method (requestSegments r.escapedPath) := by
  constructor
  · intro h
    obtain ⟨-, q, hmem, haccepts, -⟩ := ServeMux.dispatch_eq_some h
    obtain ⟨e, -, -, he⟩ | ⟨route', -, hq, hsame⟩ | hother := mem_serverMux hmux hmem
    · cases he
    · cases hsame
      rw [hp] at hq
      cases hq
      exact haccepts
    · cases hother
  · intro haccepts
    obtain ⟨hmulti, -⟩ := portal_beats _ (List.mem_map_of_mem hroute)
    rw [parsePattern_allNames hp, Option.all_some, Bool.not_eq_true'] at hmulti
    rw [ServeMux.dispatch_eq hclean (portal_find hapi hmux hroute hp haccepts), if_neg]
    rintro ⟨hlast, -⟩
    rw [hmulti] at hlast
    cases hlast

end

/-! ### The handlers -/

/-- `createKeyRequest`. -/
structure CreateKeyRequest where
  name : GoString
  description : GoString
  expiresAt : GoString

/-- What a handler answers: an error with its text, the keys with status 200, a created key
with 201, or nothing with 204. -/
inductive KeyAnswer where
  | failed (status : ℕ) (message : GoString)
  | keys (ks : List Key)
  | created (c : Created)
  | deleted
  deriving DecidableEq

/-- What a request brings and what it meets: the decoded body or the text of the error, the
draws of `Create`, the order in which the database returns the rows, the text of its failure
if it fails. -/
structure KeyRequest extends PortalRequest where
  body : Except GoString CreateKeyRequest
  mint : Mint
  rows : List Row
  failure : Option GoString

/-- `firstNonEmpty`. -/
def firstNonEmpty (vs : List GoString) : GoString := (vs.find? (· ≠ [])).getD []

def notEnabled : KeyAnswer := .failed 503 (lit "api keys store not enabled")

/-- `Store.List` and the handler `listKeys`. -/
def listKeys (keys : Option KeyTable) (r : KeyRequest) : KeyAnswer :=
  match keys with
  | none => notEnabled
  | some _ => match r.failure with
    | some message => .failed 500 message
    | none => .keys (r.rows.map Row.scan)

/-- The handler `createKey`, for a way to read times; `cause` is the text of what made `Create`
fail. -/
def createKey [Bcrypt] (parseTime : GoString → Except GoString Time) (cause : GoString)
    (keys : Option KeyTable) (identity : Option Auth.Identity) (r : KeyRequest) :
    Option KeyTable × KeyAnswer :=
  match keys with
  | none => (none, notEnabled)
  | some t =>
    match r.body with
    | .error message => (some t, .failed 400 message)
    | .ok body =>
      if body.name = [] then (some t, .failed 400 (lit "name required"))
      else
        match (if body.expiresAt = [] then .ok none else (parseTime body.expiresAt).map some) with
        | .error message => (some t, .failed 400 (lit "expires_at: " ++ message))
        | .ok expires =>
          let createdBy := (identity.map fun id => firstNonEmpty [id.email, id.subject, id.name]).getD []
          -- a database that fails does so at the INSERT
          match r.failure, create t r.mint ⟨body.name, body.description, createdBy, expires⟩ with
          | some message, .ok _ => (some t, .failed 400 (CreateError.message message .insert))
          | some message, .error .insert => (some t, .failed 400 (CreateError.message message .insert))
          | _, .error e => (some t, .failed 400 (e.message cause))
          | none, .ok (t', created) => (some t', .created created)

/-- The handler `deleteKey`, for the path value. -/
def deleteKey (keys : Option KeyTable) (name : GoString) (r : KeyRequest) :
    Option KeyTable × KeyAnswer :=
  match keys with
  | none => (none, notEnabled)
  | some t =>
    if name = [] then (some t, .failed 400 (lit "name required"))
    else match r.failure with
      | some message => (some t, .failed 400 message)
      | none =>
        match delete t name with
        | none => (some t, .failed 400 (lit "api key not found"))
        | some t' => (some t', .deleted)

/-! ### The path of a deletion -/

/-- The route of `deleteKey`. -/
def deleteRoute : PortalRoute := ⟨lit "DELETE /api/v1/admin/keys/\x7bname\x7d", .deleteKey, true⟩

def deletePattern : Pattern :=
  ⟨lit "DELETE", [], [.literal (lit "api"), .literal (lit "v1"), .literal (lit "admin"),
    .literal (lit "keys"), .wild (lit "name")]⟩

theorem deleteRoute_mem : deleteRoute ∈ portalRoutes := by simp [deleteRoute, portalRoutes]

theorem route_of_deleteKey :
    ∀ route ∈ portalRoutes, route.handler = .deleteKey → route = deleteRoute := by
  unfold portalRoutes deleteRoute
  repeat rw [lit_ofList]
  decide +kernel

theorem parsePattern_deleteRoute [WildcardNames] (hname : WildcardNames.valid (lit "name") = true) :
    parsePattern deleteRoute.pattern = some deletePattern := by
  have hall : @parsePattern allNames deleteRoute.pattern = some deletePattern := by
    unfold deleteRoute deletePattern
    repeat rw [lit_ofList]
    decide +kernel
  refine parsePattern_of_allNames hall ?_
  intro s hs name hmem _
  simp only [deletePattern, List.mem_cons, List.not_mem_nil, or_false] at hs
  obtain rfl | rfl | rfl | rfl | rfl := hs
  · cases hmem
  · cases hmem
  · cases hmem
  · cases hmem
  · rw [List.mem_singleton.mp hmem]
    exact hname

/-- The name is the last segment, and it does not read as a slash. -/
theorem segments_of_matches {segments : List GoString}
    (h : matchesPath deletePattern.segments segments = true) :
    ∃ name, segments = [lit "api", lit "v1", lit "admin", lit "keys", name] ∧ name ≠ [slash] := by
  unfold deletePattern at h
  rcases segments with _ | ⟨a, _ | ⟨b, _ | ⟨c, _ | ⟨e, _ | ⟨name, rest⟩⟩⟩⟩⟩ <;>
    simp only [matchesPath, Bool.and_eq_true, beq_iff_eq, bne_iff_ne, Bool.false_eq_true, and_false] at h
  obtain ⟨rfl, rfl, rfl, rfl, hname, hrest⟩ := h
  cases rest with
  | nil => exact ⟨name, rfl, hname⟩
  | cons => cases hrest

/-- The parts of the path that names a key, with every byte of the name escaped. -/
def deleteParts (name : GoString) : List GoString :=
  [lit "api", lit "v1", lit "admin", lit "keys", percentAll name]

theorem isPart_deleteParts {name : GoString} (h : name ≠ []) :
    ∀ part ∈ deleteParts name, IsPart part ∧ ¬ IsDots part := by
  have hfixed : ∀ part ∈ [lit "api", lit "v1", lit "admin", lit "keys"],
      (part ≠ [] ∧ slash ∉ part) ∧ ¬ IsDots part := by decide +kernel
  intro part hpart
  simp only [deleteParts, List.mem_cons, List.not_mem_nil, or_false] at hpart
  obtain rfl | rfl | rfl | rfl | rfl := hpart
  · exact hfixed _ (by simp)
  · exact hfixed _ (by simp)
  · exact hfixed _ (by simp)
  · exact hfixed _ (by simp)
  · exact isPart_percentAll h

theorem requestSegments_deleteParts {name : GoString} (h : name ≠ []) :
    requestSegments (joined (deleteParts name)) =
      [lit "api", lit "v1", lit "admin", lit "keys", name] := by
  rw [requestSegments_joined (by simp [deleteParts]) fun part hpart => (isPart_deleteParts h part hpart).1]
  have hfixed : ∀ part ∈ [lit "api", lit "v1", lit "admin", lit "keys"], pathUnescape part = part := by
    decide +kernel
  simp only [deleteParts, List.map_cons, List.map_nil, pathUnescape_of_unescape (unescape_percentAll name)]
  rw [hfixed _ (by simp), hfixed _ (by simp), hfixed _ (by simp), hfixed _ (by simp)]

theorem unescape_deleteParts (name : GoString) : unescape (joined (deleteParts name)) =
    some (lit "/api/v1/admin/keys" ++ slash :: name) := by
  have hplain : unescape (lit "/api/v1/admin/keys") = some (lit "/api/v1/admin/keys") := by
    decide +kernel
  have hjoined : joined (deleteParts name) = lit "/api/v1/admin/keys" ++ slash :: percentAll name := by
    simp only [deleteParts, joined, List.flatMap_cons, List.flatMap_nil, List.append_nil]
    rfl
  rw [hjoined, unescape_append_slash, hplain, unescape_percentAll]
  rfl

/-- A request to delete the key with this name. -/
def deleteRequest (host name : GoString) (header : Values) (cookies : List (GoString × GoString)) :
    KeyRequest where
  method := lit "DELETE"
  host := host
  escapedPath := joined (deleteParts name)
  path := lit "/api/v1/admin/keys" ++ slash :: name
  methodValid := rfl
  decodes := unescape_deleteParts name
  header := header
  cookies := cookies
  body := .error []
  mint := ⟨none, [], [], 0⟩
  rows := []
  failure := none

/-! ### The log -/

/-- A request that was answered: when it came, the name in its path, and the answer. -/
structure AdminEntry where
  now : Time
  request : KeyRequest
  name : GoString
  answer : KeyAnswer

/-- The table, and the requests that were answered. -/
structure AdminState where
  keys : Option KeyTable
  log : List AdminEntry := []

/-- A request arrives, or `Authenticate` notes the use of a key. -/
inductive AdminAction where
  | request (now : Time) (r : KeyRequest)
  | touch (now : ℤ) (id : GoString)

/-- The rows of a request are those of the table, the last created first. -/
def Arrives (keys : Option KeyTable) (r : KeyRequest) : Prop :=
  ∀ t, keys = some t → r.rows.Perm t.rows ∧ r.rows.Pairwise fun a b => b.createdAt ≤ a.createdAt

/-- A key without the time of its last use. -/
def unused (k : Key) : Key := { k with lastUsedAt := none }

/-- A created key as the table keeps it, in microseconds. -/
def stored (k : Key) : Key :=
  { k with createdAt := k.createdAt / 1000 * 1000, expiresAt := k.expiresAt.map (· / 1000 * 1000) }

/-- What an answer to a request with this name in its path does to the keys. -/
def KeyAnswer.apply (name : GoString) (ks : List Key) : KeyAnswer → List Key
  | .created c => ks ++ [stored c.key]
  | .deleted => ks.filter fun k => k.name ≠ name
  | _ => ks

/-- The keys that were created and not deleted since. -/
def replay (log : List AdminEntry) : List Key :=
  log.foldl (fun ks e => e.answer.apply e.name ks) []

def KeyAnswer.changes : KeyAnswer → Bool
  | .created _ => true
  | .deleted => true
  | _ => false

/-! ### The server -/

/-- The composed server, as far as these requests meet it: the mux of `BuildMux` with the
portal API on it, the portal's authentication, the reading of times, and the text under which
`Create` fails. -/
structure KeyServer [WildcardNames] [UnicodeCase] [ResponseJSON] where
  redactKeys : List GoString
  endpoints : EndpointsConfig
  portal : PortalDeps
  hasDoc : Bool
  mux : ServeMux Mounted
  mounted : serverMux (buildRegistry redactKeys endpoints) (some portal) hasDoc = some mux
  api : portal.portalAPI = true
  auth : PortalAuth
  parseTime : GoString → Except GoString Time
  cause : GoString

namespace KeyServer
variable [WildcardNames] [UnicodeCase] [ResponseJSON] (v : KeyServer)

/-- `r.PathValue("name")`. -/
def pathName (r : KeyRequest) : GoString :=
  ((v.mux.pathValues r.toRequest).lookup (lit "name")).getD []

variable [Bcrypt] [HMAC] [PayloadJSON]

/-- A request at the time `now`; no answer stands for one of another handler. -/
def serve (now : Time) (keys : Option KeyTable) (r : KeyRequest) :
    Option KeyTable × Option KeyAnswer :=
  match v.mux.dispatch r.toRequest with
  | some (.portal route) =>
    match v.auth.mounted now route none r.toPortalRequest with
    | .ran .listKeys _ => (keys, some (listKeys keys r))
    | .ran .createKey identity =>
      let (keys, answer) := createKey v.parseTime v.cause keys identity r
      (keys, some answer)
    | .ran .deleteKey _ =>
      let (keys, answer) := deleteKey keys (v.pathName r) r
      (keys, some answer)
    | _ => (keys, none)
  | _ => (keys, none)

def step (s : AdminState) : AdminAction → Option AdminState
  | .request now r =>
    let (keys, answer) := v.serve now s.keys r
    some ⟨keys, s.log ++ (answer.map fun a => ⟨now, r, v.pathName r, a⟩).toList⟩
  | .touch now id => some { s with keys := s.keys.map fun t => touchLastUsed t now id }

variable {v} in
theorem step_of_serve {s : AdminState} {now : Time} {r : KeyRequest} {keys : Option KeyTable}
    {answer : KeyAnswer} (h : v.serve now s.keys r = (keys, some answer)) :
    v.step s (.request now r) = some ⟨keys, s.log ++ [⟨now, r, v.pathName r, answer⟩]⟩ := by
  simp only [step, h]
  rfl

variable {v} in
theorem serve_listKeys {now : Time} {r : KeyRequest} {route : PortalRoute} {id : Option Auth.Identity}
    (hdispatch : v.mux.dispatch r.toRequest = some (.portal route))
    (hran : v.auth.mounted now route none r.toPortalRequest = .ran .listKeys id)
    (keys : Option KeyTable) : v.serve now keys r = (keys, some (listKeys keys r)) := by
  simp only [serve, hdispatch, hran]

variable {v} in
theorem serve_createKey {now : Time} {r : KeyRequest} {route : PortalRoute} {id : Option Auth.Identity}
    (hdispatch : v.mux.dispatch r.toRequest = some (.portal route))
    (hran : v.auth.mounted now route none r.toPortalRequest = .ran .createKey id)
    (keys : Option KeyTable) :
    v.serve now keys r = ((createKey v.parseTime v.cause keys id r).1,
      some (createKey v.parseTime v.cause keys id r).2) := by
  simp only [serve, hdispatch, hran]

variable {v} in
theorem serve_deleteKey {now : Time} {r : KeyRequest} {route : PortalRoute} {id : Option Auth.Identity}
    (hdispatch : v.mux.dispatch r.toRequest = some (.portal route))
    (hran : v.auth.mounted now route none r.toPortalRequest = .ran .deleteKey id)
    (keys : Option KeyTable) :
    v.serve now keys r = ((deleteKey keys (v.pathName r) r).1,
      some (deleteKey keys (v.pathName r) r).2) := by
  simp only [serve, hdispatch, hran]

omit [Bcrypt] in
/-- The request came from somebody the portal admitted at the time, with the header against
forgery; a created key names them. -/
def Authorized (e : AdminEntry) : Prop :=
  ∃ id, Admitted v.auth e.now e.request.toPortalRequest id ∧
    e.request.wire.headerGet (lit "X-Requested-With") ≠ [] ∧
    ∀ c, e.answer = .created c → c.key.createdBy = firstNonEmpty [id.email, id.subject, id.name]

/-- What becomes of a request. -/
inductive Serves (now : Time) (keys : Option KeyTable) (r : KeyRequest) :
    Option KeyTable × Option KeyAnswer → Prop
  | elsewhere : Serves now keys r (keys, none)
  | list : Serves now keys r (keys, some (listKeys keys r))
  | create {id : Auth.Identity} (hid : Admitted v.auth now r.toPortalRequest id)
      (hheader : r.wire.headerGet (lit "X-Requested-With") ≠ []) :
      Serves now keys r ((createKey v.parseTime v.cause keys (some id) r).1,
        some (createKey v.parseTime v.cause keys (some id) r).2)
  | delete {id : Auth.Identity} (hid : Admitted v.auth now r.toPortalRequest id)
      (hheader : r.wire.headerGet (lit "X-Requested-With") ≠ [])
      (hroute : v.mux.dispatch r.toRequest = some (.portal deleteRoute)) :
      Serves now keys r ((deleteKey keys (v.pathName r) r).1, some (deleteKey keys (v.pathName r) r).2)

omit [WildcardNames] [UnicodeCase] [ResponseJSON] [HMAC] [PayloadJSON] in
theorem createKey_cases (parseTime : GoString → Except GoString Time) (cause : GoString) (t : KeyTable)
    (id : Auth.Identity) (r : KeyRequest) :
    (∃ status message, createKey parseTime cause (some t) (some id) r =
        (some t, .failed status message)) ∨
      ∃ k t' c, create t r.mint k = .ok (t', c) ∧
        k.createdBy = firstNonEmpty [id.email, id.subject, id.name] ∧
        createKey parseTime cause (some t) (some id) r = (some t', .created c) := by
  unfold createKey
  dsimp only
  split
  · exact .inl ⟨_, _, rfl⟩
  · next body _ =>
    by_cases hname : body.name = []
    · rw [if_pos hname]
      exact .inl ⟨_, _, rfl⟩
    · rw [if_neg hname]
      split
      · exact .inl ⟨_, _, rfl⟩
      · split
        · exact .inl ⟨_, _, rfl⟩
        · exact .inl ⟨_, _, rfl⟩
        · exact .inl ⟨_, _, rfl⟩
        · next t' c _ hcreate => exact .inr ⟨_, t', c, hcreate, rfl, rfl⟩

omit [WildcardNames] [UnicodeCase] [ResponseJSON] [Bcrypt] [HMAC] [PayloadJSON] in
theorem deleteKey_cases (t : KeyTable) (name : GoString) (r : KeyRequest) :
    (∃ status message, deleteKey (some t) name r = (some t, .failed status message)) ∨
      name ≠ [] ∧ deleteKey (some t) name r = (some (t.delete fun row => row.name = name), .deleted) := by
  unfold deleteKey
  dsimp only
  split_ifs with hname
  · exact .inl ⟨_, _, rfl⟩
  · split
    · exact .inl ⟨_, _, rfl⟩
    · split
      · exact .inl ⟨_, _, rfl⟩
      · next t' hdelete =>
        unfold Apikeys.delete at hdelete
        dsimp only at hdelete
        split_ifs at hdelete
        cases hdelete
        exact .inr ⟨hname, rfl⟩

theorem serves (now : Time) (keys : Option KeyTable) (r : KeyRequest) :
    v.Serves now keys r (v.serve now keys r) := by
  unfold serve
  split
  · next route hdispatch =>
    obtain ⟨-, p, hmem, haccepts, -⟩ := ServeMux.dispatch_eq_some hdispatch
    obtain ⟨e, -, -, he⟩ | ⟨route', hroute, hp, hsame⟩ | hother := mem_serverMux v.mounted hmem
    · cases he
    · cases hsame
      have hserves : p.servesMethod r.method = true := by
        simp only [Pattern.accepts, Bool.and_eq_true] at haccepts
        exact haccepts.1.2
      cases hout : v.auth.mounted now route none r.toPortalRequest with
      | unauthorized => exact .elsewhere
      | forbidden message => exact .elsewhere
      | elsewhere => exact .elsewhere
      | unrouted => exact .elsewhere
      | ran handler context =>
        obtain ⟨rfl, ⟨id, rfl, hid⟩, hcsrf⟩ := PortalAuth.mounted_ran hout
        have hheader : route.handler ∈ stateChanging →
            r.wire.headerGet (lit "X-Requested-With") ≠ [] := fun hchanging =>
          hcsrf (csrf_of_stateChanging route hroute hchanging).1
            (method_of_stateChanging hroute hchanging hp hserves)
        cases hhandler : route.handler with
        | listKeys => exact .list
        | createKey => exact .create hid (hheader (by rw [hhandler]; decide))
        | deleteKey =>
          refine .delete hid (hheader (by rw [hhandler]; decide)) ?_
          rw [hdispatch, route_of_deleteKey route hroute hhandler]
        | _ => exact .elsewhere
    · cases hother
  · exact .elsewhere

/-! ### Every run -/

/-- The table holds the keys that the log leaves, each under a name, and whoever changed it
was entitled to. -/
structure Kept (s : AdminState) (t : KeyTable) : Prop where
  keys : s.keys = some t
  rows : t.rows.map (fun row => unused row.scan) = replay s.log
  named : ∀ row ∈ t.rows, row.name ≠ []
  authorized : ∀ e ∈ s.log, e.answer.changes = true → v.Authorized e

omit [WildcardNames] [UnicodeCase] [ResponseJSON] [Bcrypt] [HMAC] [PayloadJSON] in
theorem replay_append (log : List AdminEntry) (e : AdminEntry) :
    replay (log ++ [e]) = e.answer.apply e.name (replay log) := by
  rw [replay, List.foldl_append]
  rfl

variable {v}

omit [Bcrypt] in
/-- A request is answered and the table stays. -/
theorem Kept.answered {s : AdminState} {t : KeyTable} (h : v.Kept s t) {e : AdminEntry}
    (hanswer : e.answer.changes = false) : v.Kept ⟨some t, s.log ++ [e]⟩ t where
  keys := rfl
  rows := by
    rw [replay_append, h.rows]
    cases hcase : e.answer with
    | created c => simp [hcase, KeyAnswer.changes] at hanswer
    | deleted => simp [hcase, KeyAnswer.changes] at hanswer
    | _ => rfl
  named := h.named
  authorized e' he hchanges := by
    obtain hold | hnew := List.mem_append.mp he
    · exact h.authorized e' hold hchanges
    · rw [List.mem_singleton.mp hnew, hanswer] at hchanges
      cases hchanges

omit [Bcrypt] in
/-- A request changes the table by somebody who may. -/
theorem Kept.changed {s : AdminState} {t t' : KeyTable} (h : v.Kept s t) {e : AdminEntry}
    (hrows : t'.rows.map (fun row => unused row.scan) =
      e.answer.apply e.name (t.rows.map fun row => unused row.scan))
    (hnamed : ∀ row ∈ t'.rows, row.name ≠ []) (hauthorized : v.Authorized e) :
    v.Kept ⟨some t', s.log ++ [e]⟩ t' where
  keys := rfl
  rows := by rw [replay_append, hrows, h.rows]
  named := hnamed
  authorized e' he hchanges := by
    obtain hold | hnew := List.mem_append.mp he
    · exact h.authorized e' hold hchanges
    · rw [List.mem_singleton.mp hnew]
      exact hauthorized

omit [WildcardNames] [UnicodeCase] [ResponseJSON] [HMAC] [PayloadJSON] in
theorem rows_of_create {t t' : KeyTable} {m : Mint} {k : NewKey} {c : Created}
    (h : create t m k = .ok (t', c)) :
    t'.rows.map (fun row => unused row.scan) =
        (KeyAnswer.created c).apply [] (t.rows.map fun row => unused row.scan) ∧
      c.key.createdBy = k.createdBy ∧
      ((∀ row ∈ t.rows, row.name ≠ []) → ∀ row ∈ t'.rows, row.name ≠ []) := by
  obtain ⟨hname, buf, hash, -, -, -, hinsert, hkey⟩ := create_eq_ok h
  rw [rows_of_insertKey hinsert, List.map_append]
  refine ⟨?_, by rw [hkey], ?_⟩
  · rw [KeyAnswer.apply, hkey, List.map_singleton]
    simp [unused, stored, Row.scan, NewKey.row, Option.map_map, Function.comp_def]
  · intro hold row hrow
    obtain hrow | hrow := List.mem_append.mp hrow
    · exact hold row hrow
    · rw [List.mem_singleton.mp hrow]
      exact hname

omit [WildcardNames] [UnicodeCase] [ResponseJSON] [Bcrypt] [HMAC] [PayloadJSON] in
theorem rows_of_delete (t : KeyTable) (name : GoString) :
    (t.delete fun row => row.name = name).rows.map (fun row => unused row.scan) =
      KeyAnswer.deleted.apply name (t.rows.map fun row => unused row.scan) := by
  rw [KeyAnswer.apply, List.filter_map]
  simp [Relational.UniqueTable.delete, Function.comp_def, unused, Row.scan]

omit [WildcardNames] [UnicodeCase] [ResponseJSON] [Bcrypt] [HMAC] [PayloadJSON] in
theorem rows_of_touch (t : KeyTable) (now : ℤ) (id : GoString) :
    (touchLastUsed t now id).rows.map (fun row => unused row.scan) =
      t.rows.map fun row => unused row.scan := by
  rw [touchLastUsed, Relational.UniqueTable.update, List.map_map]
  refine List.map_congr_left fun row _ => ?_
  simp only [Function.comp_apply]
  split_ifs <;> rfl

theorem Kept.request {s : AdminState} {t : KeyTable} (h : v.Kept s t) (now : Time) (r : KeyRequest) :
    ∃ t', v.Kept ⟨(v.serve now s.keys r).1,
      s.log ++ ((v.serve now s.keys r).2.map fun a => ⟨now, r, v.pathName r, a⟩).toList⟩ t' := by
  have hserves := v.serves now s.keys r
  rw [h.keys] at hserves ⊢
  generalize v.serve now (some t) r = out at hserves
  cases hserves with
  | elsewhere => exact ⟨t, by simpa using { h with keys := rfl }⟩
  | list =>
    refine ⟨t, h.answered ?_⟩
    dsimp only [listKeys]
    split <;> rfl
  | @create id hid hheader =>
    obtain ⟨status, message, hfailed⟩ | ⟨k, t', c, hcreate, hby, hok⟩ :=
      createKey_cases v.parseTime v.cause t id r
    · rw [hfailed]
      exact ⟨t, h.answered rfl⟩
    · rw [hok]
      obtain ⟨hrows, hcreatedBy, hnamed⟩ := rows_of_create hcreate
      refine ⟨t', h.changed hrows (hnamed h.named) ⟨id, hid, hheader, ?_⟩⟩
      rintro c' ⟨⟩
      rw [hcreatedBy, hby]
  | @delete id hid hheader hroute =>
    obtain ⟨status, message, hfailed⟩ | ⟨-, hok⟩ := deleteKey_cases t (v.pathName r) r
    · rw [hfailed]
      exact ⟨t, h.answered rfl⟩
    · rw [hok]
      refine ⟨_, h.changed (rows_of_delete t (v.pathName r)) ?_ ⟨id, hid, hheader, by simp⟩⟩
      exact fun row hrow => h.named row (Relational.UniqueTable.mem_delete.mp hrow).1

theorem kept_step {s s' : AdminState} {a : AdminAction} (h : ∃ t, v.Kept s t)
    (hstep : v.step s a = some s') : ∃ t, v.Kept s' t := by
  obtain ⟨t, h⟩ := h
  cases a with
  | request now r =>
    cases hstep
    exact h.request now r
  | touch now id =>
    cases hstep
    refine ⟨touchLastUsed t now id, ?_, ?_, ?_, h.authorized⟩
    · simp [h.keys]
    · rw [rows_of_touch, h.rows]
    · intro row hrow
      obtain ⟨row₀, hrow₀, rfl⟩ := Relational.UniqueTable.mem_update.mp hrow
      have hname := h.named row₀ hrow₀
      split_ifs <;> exact hname

theorem exists_kept {actions : List AdminAction} {s : AdminState}
    (h : Transition.run v.step ⟨some .empty, []⟩ actions = some s) : ∃ t, v.Kept s t :=
  Transition.run_invariant (fun s => ∃ t, v.Kept s t) (fun _ _ _ hs hstep => kept_step hs hstep) h
    ⟨.empty, rfl, rfl, fun _ hrow => (nomatch hrow), fun _ he => (nomatch he)⟩

variable (v)

/-- Only `listKeys` answers with keys, and these are the rows that the database returns. -/
theorem rows_of_keys {now : Time} {t : KeyTable} {r : KeyRequest} {ks : List Key}
    (h : (v.serve now (some t) r).2 = some (.keys ks)) : ks = r.rows.map Row.scan := by
  have hserves := v.serves now (some t) r
  generalize v.serve now (some t) r = out at hserves h
  cases hserves with
  | elsewhere => cases h
  | list =>
    simp only [listKeys] at h
    split at h
    · cases h
    · cases h
      rfl
  | @create id =>
    obtain ⟨status, message, hfailed⟩ | ⟨k, t', c, -, -, hok⟩ :=
      createKey_cases v.parseTime v.cause t id r
    · rw [hfailed] at h
      cases h
    · rw [hok] at h
      cases h
  | delete =>
    obtain ⟨status, message, hfailed⟩ | ⟨-, hok⟩ := deleteKey_cases t (v.pathName r) r
    · rw [hfailed] at h
      cases h
    · rw [hok] at h
      cases h

omit [Bcrypt] in
/-- Somebody with these credentials is let in. -/
def Lets (now : Time) (header : Values) (cookies : List (GoString × GoString)) : Prop :=
  (v.auth.sessions.bind fun s => s.read now cookies).isSome = true ∨
    (v.auth.fallback ⟨header, []⟩).isSome = true

omit [Bcrypt] [HMAC] [PayloadJSON] in
theorem find_deleteRoute (hname : WildcardNames.valid (lit "name") = true) {r : KeyRequest}
    {name : GoString} (hsegments : requestSegments r.escapedPath =
      [lit "api", lit "v1", lit "admin", lit "keys", name]) (hslash : name ≠ [slash])
    (hmethod : r.method = lit "DELETE") :
    deletePattern.accepts r.host r.method (requestSegments r.escapedPath) = true ∧ v.pathName r = name := by
  have haccepts : deletePattern.accepts r.host r.method (requestSegments r.escapedPath) = true := by
    rw [hsegments, hmethod]
    simp [Pattern.accepts, Pattern.servesMethod, deletePattern, matchesPath, hslash]
  refine ⟨haccepts, ?_⟩
  have hfind := portal_find v.api v.mounted deleteRoute_mem (parsePattern_deleteRoute hname) haccepts
  rw [pathName, ServeMux.pathValues_eq hfind, hsegments]
  simp [deletePattern, boundValues]

omit [Bcrypt] [HMAC] [PayloadJSON] in
/-- The name of a deletion does not read as a slash. -/
theorem pathName_ne_slash (hname : WildcardNames.valid (lit "name") = true) {r : KeyRequest}
    (h : v.mux.dispatch r.toRequest = some (.portal deleteRoute)) : v.pathName r ≠ [slash] := by
  have hclean := (ServeMux.dispatch_eq_some h).1
  have haccepts := (portal_dispatch_iff v.api v.mounted deleteRoute_mem
    (parsePattern_deleteRoute hname) hclean).mp h
  have hmatches := haccepts
  simp only [Pattern.accepts, Bool.and_eq_true] at hmatches
  obtain ⟨name, hsegments, hslash⟩ := segments_of_matches hmatches.2
  have hfind := portal_find v.api v.mounted deleteRoute_mem (parsePattern_deleteRoute hname) haccepts
  rw [pathName, ServeMux.pathValues_eq hfind, hsegments]
  simpa [deletePattern, boundValues] using hslash

/-- No request takes a key whose name reads as a slash out of the table. -/
theorem mem_of_serve (hname : WildcardNames.valid (lit "name") = true) (now : Time) (r : KeyRequest)
    {t : KeyTable} {row : Row} (hrow : row ∈ t.rows) (hslash : row.name = [slash]) :
    ∃ t', (v.serve now (some t) r).1 = some t' ∧ row ∈ t'.rows := by
  have hserves := v.serves now (some t) r
  generalize v.serve now (some t) r = out at hserves
  cases hserves with
  | elsewhere => exact ⟨t, rfl, hrow⟩
  | list => exact ⟨t, rfl, hrow⟩
  | @create id =>
    obtain ⟨status, message, hfailed⟩ | ⟨k, t', c, hcreate, -, hok⟩ :=
      createKey_cases v.parseTime v.cause t id r
    · exact ⟨t, by rw [hfailed], hrow⟩
    · obtain ⟨-, buf, hash, -, -, -, hinsert, -⟩ := create_eq_ok hcreate
      refine ⟨t', by rw [hok], ?_⟩
      rw [rows_of_insertKey hinsert]
      exact List.mem_append_left _ hrow
  | delete _ _ hroute =>
    obtain ⟨status, message, hfailed⟩ | ⟨-, hok⟩ := deleteKey_cases t (v.pathName r) r
    · exact ⟨t, by rw [hfailed], hrow⟩
    · refine ⟨_, by rw [hok], Relational.UniqueTable.mem_delete.mpr ⟨hrow, ?_⟩⟩
      have hother := v.pathName_ne_slash hname hroute
      simpa [hslash] using hother.symm

/-- The table holds this key under the name that reads as a slash. -/
def HasSlash (id : GoString) (s : AdminState) : Prop :=
  ∃ t row, s.keys = some t ∧ row ∈ t.rows ∧ row.id = id ∧ row.name = [slash]

theorem hasSlash_step (hname : WildcardNames.valid (lit "name") = true) {id : GoString}
    {s s' : AdminState} {a : AdminAction} (h : HasSlash id s) (hstep : v.step s a = some s') :
    HasSlash id s' := by
  obtain ⟨t, row, hkeys, hrow, hid, hslash⟩ := h
  cases a with
  | request now r =>
    obtain ⟨t', hserve, hrow'⟩ := v.mem_of_serve hname now r hrow hslash
    rw [← hkeys] at hserve
    cases hstep
    exact ⟨t', row, hserve, hrow', hid, hslash⟩
  | touch now key =>
    cases hstep
    refine ⟨touchLastUsed t now key, _, by simp [hkeys],
      Relational.UniqueTable.mem_update.mpr ⟨row, hrow, rfl⟩, ?_, ?_⟩
    · split_ifs <;> exact hid
    · split_ifs <;> exact hslash

omit [WildcardNames] [ResponseJSON] [Bcrypt] in
/-- Somebody who is let in reaches the handler of a route. -/
theorem exists_ran (p : PortalAuth) {now : Time} {route : PortalRoute} {r : PortalRequest}
    (hlets : (p.sessions.bind fun s => s.read now r.cookies).isSome = true ∨
      (p.fallback r.wire).isSome = true)
    (hheader : route.csrf = true → r.wire.headerGet (lit "X-Requested-With") ≠ []) :
    ∃ id, p.mounted now route none r = .ran route.handler id := by
  have hhandler : ∀ context, (if route.csrf then
      requireCSRFHeader fun context _ => Outcome.ran route.handler context
      else fun context _ => .ran route.handler context) context r = .ran route.handler context := by
    intro context
    split_ifs with hcsrf
    · exact if_neg fun hmissing => hheader hcsrf hmissing.2
    · rfl
  simp only [PortalAuth.mounted, PortalAuth.middleware]
  split
  · exact ⟨_, hhandler _⟩
  · next hnone =>
    rw [hnone] at hlets
    obtain hsession | hfallback := hlets
    · cases hsession
    · obtain ⟨id, hid⟩ := Option.isSome_iff_exists.mp hfallback
      rw [hid]
      exact ⟨_, hhandler _⟩

/-- Who is let in and sends the header reaches `deleteKey` with any name that a segment can
carry. -/
theorem serve_deleteRequest (hname : WildcardNames.valid (lit "name") = true) {now : Time}
    {header : Values} {cookies : List (GoString × GoString)} (hlets : v.Lets now header cookies)
    (hheader : Inbound.Wire.headerGet ⟨header, []⟩ (lit "X-Requested-With") ≠ []) (keys : Option KeyTable)
    (host : GoString) {name : GoString} (hne : name ≠ []) (hslash : name ≠ [slash]) :
    v.serve now keys (deleteRequest host name header cookies) =
      ((deleteKey keys name (deleteRequest host name header cookies)).1,
        some (deleteKey keys name (deleteRequest host name header cookies)).2) := by
  obtain ⟨haccepts, hpath⟩ := v.find_deleteRoute hname
    (r := deleteRequest host name header cookies) (requestSegments_deleteParts hne) hslash rfl
  have hclean : cleanPath (joined (deleteParts name)) = joined (deleteParts name) :=
    (cleanPath_joined_iff (by simp [deleteParts]) fun part hpart =>
      (isPart_deleteParts hne part hpart).1).mpr fun part hpart => (isPart_deleteParts hne part hpart).2
  have hdispatch := (portal_dispatch_iff v.api v.mounted deleteRoute_mem
    (parsePattern_deleteRoute hname) (r := (deleteRequest host name header cookies).toRequest)
    hclean).mpr haccepts
  have hran : ∃ id, v.auth.mounted now deleteRoute none
      (deleteRequest host name header cookies).toPortalRequest = .ran .deleteKey id :=
    exists_ran v.auth hlets fun _ => hheader
  obtain ⟨id, hran⟩ := hran
  rw [serve_deleteKey hdispatch hran, hpath]

omit [WildcardNames] [UnicodeCase] [ResponseJSON] [Bcrypt] [HMAC] [PayloadJSON] in
theorem deleteKey_of_mem {t : KeyTable} {row : Row} (hrow : row ∈ t.rows) (hne : row.name ≠ [])
    {r : KeyRequest} (hworks : r.failure = none) :
    deleteKey (some t) row.name r = (some (t.delete fun other => other.name = row.name), .deleted) := by
  have haffected : (t.rows.filter fun other => other.name = row.name).length ≠ 0 :=
    (List.length_pos_of_mem (List.mem_filter.mpr ⟨hrow, by simp⟩)).ne'
  simp only [deleteKey, if_neg hne, hworks, Apikeys.delete, if_neg haffected]

/-- In a table that requests have built, a key goes when somebody who is let in asks for it, and
it goes alone, unless its name reads as a slash: then no run of requests takes it out, whoever
sends them. -/
theorem key_deletable (hname : WildcardNames.valid (lit "name") = true)
    (actions : List AdminAction) (s : AdminState)
    (h : Transition.run v.step ⟨some .empty, []⟩ actions = some s) (t : KeyTable)
    (hkeys : s.keys = some t) (row : Row) (hrow : row ∈ t.rows) (now : Time) (header : Values)
    (cookies : List (GoString × GoString)) (hlets : v.Lets now header cookies)
    (hheader : Inbound.Wire.headerGet ⟨header, []⟩ (lit "X-Requested-With") ≠ []) :
    (row.name ≠ [slash] → ∃ (r : KeyRequest) (t' : KeyTable), r.header = header ∧ r.cookies = cookies ∧
      v.serve now s.keys r = (some t', some .deleted) ∧
      ∀ other, other ∈ t'.rows ↔ other ∈ t.rows ∧ other.name ≠ row.name) ∧
    (row.name = [slash] → ∀ later s', Transition.run v.step s later = some s' → HasSlash row.id s') := by
  constructor
  · intro hslash
    obtain ⟨t₀, hkept⟩ := exists_kept h
    obtain rfl : t₀ = t := Option.some.inj (hkept.keys.symm.trans hkeys)
    have hne := hkept.named row hrow
    refine ⟨deleteRequest [] row.name header cookies, t₀.delete fun other => other.name = row.name,
      rfl, rfl, ?_, fun other => ?_⟩
    · rw [v.serve_deleteRequest hname hlets hheader s.keys [] hne hslash, hkeys,
        deleteKey_of_mem hrow hne rfl]
    · rw [Relational.UniqueTable.mem_delete]
      simp
  · intro hslash later s' hlater
    exact Transition.run_invariant (HasSlash row.id)
      (fun _ _ _ hs hstep => v.hasSlash_step hname hs hstep) hlater ⟨t, row, hkeys, hrow, rfl, hslash⟩

end KeyServer

/-! ### Three keys -/

theorem keyMux_isSome :
    (@serverMux asciiNames dataRegistry (some ⟨false, true⟩) true).isSome = true :=
  Option.isSome_iff_exists.mpr (@exists_serverMux asciiCase plainJSON [] onlyData asciiNames
    (by decide +kernel) (some ⟨false, true⟩) true)

/-- A server that lets every request with a credential in as `ci`. -/
def sampleKeyServer : @KeyServer asciiNames asciiCase plainJSON :=
  @KeyServer.mk asciiNames asciiCase plainJSON [] onlyData ⟨false, true⟩ true
    (Option.get _ keyMux_isSome) (Option.some_get keyMux_isSome).symm rfl scriptAuth
    (fun _ => .error []) []

/-- A script creates a key. -/
def createNamed (name : GoString) (mint : Mint) : KeyRequest where
  toPortalRequest := createRequest
  body := .ok ⟨name, [], []⟩
  mint := mint
  rows := []
  failure := none

theorem validMethod_get : validMethod (lit "GET") = true := rfl

def listRequest (rows : List Row) : KeyRequest where
  toPortalRequest := { createRequest with method := lit "GET", methodValid := validMethod_get }
  body := .error []
  mint := ⟨none, [], [], 0⟩
  rows := rows
  failure := none

/-- The route that serves a sample request. -/
theorem sample_dispatch (route : PortalRoute) (hroute : route ∈ portalRoutes) (p : Pattern)
    (hp : @parsePattern asciiNames route.pattern = some p) (r : Net.Request)
    (hclean : cleanPath r.escapedPath = r.escapedPath)
    (haccepts : p.accepts r.host r.method (requestSegments r.escapedPath) = true) :
    (@KeyServer.mux asciiNames asciiCase plainJSON sampleKeyServer).dispatch r = some (.portal route) :=
  (@portal_dispatch_iff asciiNames asciiCase plainJSON _ _ _ _ _
    (@KeyServer.api asciiNames asciiCase plainJSON sampleKeyServer)
    (@KeyServer.mounted asciiNames asciiCase plainJSON sampleKeyServer)
    route hroute p hp r hclean).mpr haccepts

/-- The identity of the script in the portal. -/
def script : Auth.Identity := adaptInboundIdentity (Inbound.keyIdentity (lit "ci"))

/-- What `Create` makes of a request of the script. -/
def scriptKey (name : GoString) : NewKey := ⟨name, [], lit "ci", none⟩

section
variable {t t' : KeyTable} (now : Time)

theorem create_served {name : GoString} (hname : name ≠ []) {mint : Mint} {c : Created}
    (h : @create plainBcrypt t mint (scriptKey name) = .ok (t', c)) :
    @KeyServer.serve asciiNames asciiCase plainJSON sampleKeyServer plainBcrypt unaryHMAC onePayload now
      (some t) (createNamed name mint) = (some t', some (.created c)) := by
  have hdispatch := sample_dispatch ⟨lit "POST /api/v1/admin/keys", .createKey, true⟩
    (by simp [portalRoutes]) ⟨lit "POST", [], [.literal (lit "api"), .literal (lit "v1"),
      .literal (lit "admin"), .literal (lit "keys")]⟩ (by decide +kernel) createRequest.toRequest
    (by decide +kernel) (by decide +kernel)
  have hran : @PortalAuth.mounted asciiCase unaryHMAC onePayload scriptAuth now
      ⟨lit "POST /api/v1/admin/keys", .createKey, true⟩ none createRequest =
      .ran .createKey (some script) := by
    rfl
  have hby : firstNonEmpty [script.email, script.subject, script.name] = lit "ci" := by decide +kernel
  have hcreated : @createKey plainBcrypt (fun _ => .error []) [] (some t) (some script)
      (createNamed name mint) = (some t', .created c) := by
    simp only [createKey, createNamed, Option.map_some, Option.getD_some, hby, if_neg hname, if_true]
    rw [show NewKey.mk name [] (lit "ci") none = scriptKey name from rfl, h]
  have hserve := @KeyServer.serve_createKey asciiNames asciiCase plainJSON sampleKeyServer plainBcrypt
    unaryHMAC onePayload now (createNamed name mint) _ _ hdispatch hran (some t)
  rw [hserve]
  exact congrArg (fun out : Option KeyTable × KeyAnswer => (out.1, some out.2)) hcreated

/-- A script deletes a key. -/
def deleteNamed (name : GoString) : KeyRequest := deleteRequest [] name createRequest.header []

theorem delete_served {name : GoString} (hname : name ≠ []) (hslash : name ≠ [slash])
    (h : delete t name = some t') :
    @KeyServer.serve asciiNames asciiCase plainJSON sampleKeyServer plainBcrypt unaryHMAC onePayload now
      (some t) (deleteNamed name) = (some t', some .deleted) := by
  have hserve := @KeyServer.serve_deleteRequest asciiNames asciiCase plainJSON sampleKeyServer plainBcrypt
    unaryHMAC onePayload (by decide) now createRequest.header [] (.inr (by decide +kernel))
    (by decide +kernel) (some t) [] name hname hslash
  rw [deleteNamed, hserve]
  simp [deleteKey, hname, h, deleteRequest]

theorem list_served (rows : List Row) :
    @KeyServer.serve asciiNames asciiCase plainJSON sampleKeyServer plainBcrypt unaryHMAC onePayload now
      (some t) (listRequest rows) = (some t, some (.keys (rows.map Row.scan))) := by
  have hdispatch := sample_dispatch ⟨lit "GET /api/v1/admin/keys", .listKeys, false⟩
    (by simp [portalRoutes]) ⟨lit "GET", [], [.literal (lit "api"), .literal (lit "v1"),
      .literal (lit "admin"), .literal (lit "keys")]⟩ (by decide +kernel) (listRequest []).toRequest
    (by decide +kernel) (by decide +kernel)
  have hran : @PortalAuth.mounted asciiCase unaryHMAC onePayload scriptAuth now
      ⟨lit "GET /api/v1/admin/keys", .listKeys, false⟩ none (listRequest rows).toPortalRequest =
      .ran .listKeys (some script) := by
    rfl
  exact @KeyServer.serve_listKeys asciiNames asciiCase plainJSON sampleKeyServer plainBcrypt unaryHMAC
    onePayload now (listRequest rows) _ _ hdispatch hran (some t)

end

/-- The draws of a sample key, with the time of its creation. -/
def scriptMint (b : UInt8) (id : GoString) (now : Time) : Mint :=
  ⟨some (List.Vector.replicate 32 b), [], id, now⟩

/-- Three keys, a microsecond apart; the first has the name that reads as a slash. -/
def threeKeys : List AdminAction :=
  [.request 5000 (createNamed [slash] (scriptMint 0 (lit "1") 5000)),
    .request 6000 (createNamed (lit "ops") (scriptMint 1 (lit "2") 6000)),
    .request 7000 (createNamed (lit "dev") (scriptMint 2 (lit "3") 7000))]

/-- A step of the sample server. -/
def sampleStep : AdminState → AdminAction → Option AdminState :=
  @KeyServer.step asciiNames asciiCase plainJSON sampleKeyServer plainBcrypt unaryHMAC onePayload

theorem sampleStep_of_serve {s : AdminState} {now : Time} {r : KeyRequest} {keys : Option KeyTable}
    {answer : KeyAnswer} (h : @KeyServer.serve asciiNames asciiCase plainJSON sampleKeyServer plainBcrypt
      unaryHMAC onePayload now s.keys r = (keys, some answer)) :
    ∃ e : AdminEntry, e.answer = answer ∧ sampleStep s (.request now r) = some ⟨keys, s.log ++ [e]⟩ :=
  ⟨_, rfl, @KeyServer.step_of_serve asciiNames asciiCase plainJSON sampleKeyServer plainBcrypt unaryHMAC
    onePayload s now r keys answer h⟩

/-- The rows that the three creations leave, and what is left of them without `ops`. -/
theorem three_created : ∃ t₁ c₁ t₂ c₂ t₃ c₃ t₄,
    @create plainBcrypt .empty (scriptMint 0 (lit "1") 5000) (scriptKey [slash]) = .ok (t₁, c₁) ∧
    @create plainBcrypt t₁ (scriptMint 1 (lit "2") 6000) (scriptKey (lit "ops")) = .ok (t₂, c₂) ∧
    @create plainBcrypt t₂ (scriptMint 2 (lit "3") 7000) (scriptKey (lit "dev")) = .ok (t₃, c₃) ∧
    delete t₃ (lit "ops") = some t₄ ∧
    t₃.rows.map (fun row => (row.id, row.name)) =
      [(lit "1", [slash]), (lit "2", lit "ops"), (lit "3", lit "dev")] ∧
    t₄.rows.map (fun row => (row.name, row.createdAt)) = [([slash], 5), (lit "dev", 7)] := by
  have hok : ((@create plainBcrypt .empty (scriptMint 0 (lit "1") 5000) (scriptKey [slash])).toOption.bind
      fun out₁ => (@create plainBcrypt out₁.1 (scriptMint 1 (lit "2") 6000)
        (scriptKey (lit "ops"))).toOption.bind
      fun out₂ => (@create plainBcrypt out₂.1 (scriptMint 2 (lit "3") 7000)
        (scriptKey (lit "dev"))).toOption.bind
      fun out₃ => (delete out₃.1 (lit "ops")).map fun t₄ =>
        (out₃.1.rows.map (fun row => (row.id, row.name)),
          t₄.rows.map fun row => (row.name, row.createdAt))) =
      some ([(lit "1", [slash]), (lit "2", lit "ops"), (lit "3", lit "dev")],
        [([slash], 5), (lit "dev", 7)]) := by
    decide +kernel
  simp only [Option.bind_eq_some_iff, Option.map_eq_some_iff] at hok
  obtain ⟨⟨t₁, c₁⟩, h₁, ⟨t₂, c₂⟩, h₂, ⟨t₃, c₃⟩, h₃, t₄, h₄, hrows⟩ := hok
  obtain ⟨hthree, htwo⟩ := Prod.mk.inj hrows
  exact ⟨t₁, c₁, t₂, c₂, t₃, c₃, t₄, ok_of_toOption h₁, ok_of_toOption h₂, ok_of_toOption h₃, h₄,
    hthree, htwo⟩

/-- The server after the three creations, and after the deletion of `ops`. -/
theorem three_run : ∃ s t s' t', Transition.run sampleStep ⟨some .empty, []⟩ threeKeys = some s ∧
    s.keys = some t ∧
    t.rows.map (fun row => (row.id, row.name)) =
      [(lit "1", [slash]), (lit "2", lit "ops"), (lit "3", lit "dev")] ∧
    Transition.run sampleStep ⟨some .empty, []⟩ (threeKeys ++ [.request 8000 (deleteNamed (lit "ops"))]) =
      some s' ∧ s'.keys = some t' ∧
    t'.rows.map (fun row => (row.name, row.createdAt)) = [([slash], 5), (lit "dev", 7)] ∧
    s'.log.map (fun e => e.answer.changes) = [true, true, true, true] := by
  obtain ⟨t₁, c₁, t₂, c₂, t₃, c₃, t₄, h₁, h₂, h₃, h₄, hthree, htwo⟩ := three_created
  obtain ⟨e₁, ha₁, hs₁⟩ := sampleStep_of_serve (s := ⟨some .empty, []⟩)
    (create_served 5000 (by simp) h₁)
  obtain ⟨e₂, ha₂, hs₂⟩ := sampleStep_of_serve (s := ⟨some t₁, [e₁]⟩)
    (create_served 6000 (by decide) h₂)
  obtain ⟨e₃, ha₃, hs₃⟩ := sampleStep_of_serve (s := ⟨some t₂, [e₁, e₂]⟩)
    (create_served 7000 (by decide) h₃)
  obtain ⟨e₄, ha₄, hs₄⟩ := sampleStep_of_serve (s := ⟨some t₃, [e₁, e₂, e₃]⟩)
    (delete_served 8000 (by decide) (by decide) h₄)
  have hrun : Transition.run sampleStep ⟨some .empty, []⟩ threeKeys = some ⟨some t₃, [e₁, e₂, e₃]⟩ :=
    Transition.run_cons.mpr ⟨_, hs₁, Transition.run_cons.mpr ⟨_, hs₂, Transition.run_cons.mpr ⟨_, hs₃, rfl⟩⟩⟩
  refine ⟨_, t₃, ⟨some t₄, [e₁, e₂, e₃, e₄]⟩, t₄, hrun, rfl, hthree, ?_, rfl, htwo, ?_⟩
  · exact Transition.run_append.mpr ⟨_, hrun, Transition.run_cons.mpr ⟨_, hs₄, rfl⟩⟩
  · simp [ha₁, ha₂, ha₃, ha₄, KeyAnswer.changes]

/-- The script can delete `ops`, alone, and nobody the key whose name reads as a slash. -/
theorem sample_deletable : ∃ (s : AdminState) (t t' : KeyTable) (r : KeyRequest),
    Transition.run sampleStep ⟨some .empty, []⟩ threeKeys = some s ∧ s.keys = some t ∧
    t.rows.map Row.name = [[slash], lit "ops", lit "dev"] ∧
    @KeyServer.serve asciiNames asciiCase plainJSON sampleKeyServer plainBcrypt unaryHMAC onePayload 9000
      s.keys r = (some t', some .deleted) ∧
    (∀ row, row ∈ t'.rows ↔ row ∈ t.rows ∧ row.name ≠ lit "ops") ∧
    ∀ later s', Transition.run sampleStep s later = some s' → KeyServer.HasSlash (lit "1") s' := by
  obtain ⟨s, t, -, -, hrun, hkeys, hrows, -⟩ := three_run
  have hnames : t.rows.map Row.name = [[slash], lit "ops", lit "dev"] := by
    have h := congrArg (List.map Prod.snd) hrows
    rwa [List.map_map] at h
  have hmem : ∀ id name, (id, name) ∈ [(lit "1", [slash]), (lit "2", lit "ops"), (lit "3", lit "dev")] →
      ∃ row ∈ t.rows, row.id = id ∧ row.name = name := by
    intro id name h
    rw [← hrows] at h
    obtain ⟨row, hrow, heq⟩ := List.mem_map.mp h
    exact ⟨row, hrow, (Prod.mk.inj heq).1, (Prod.mk.inj heq).2⟩
  have hdelete : ∀ row ∈ t.rows, _ := fun row hrow => @KeyServer.key_deletable asciiNames asciiCase plainJSON
    sampleKeyServer plainBcrypt unaryHMAC onePayload (by decide) _ s hrun t hkeys row hrow 9000
    createRequest.header [] (.inr (by decide +kernel)) (by decide +kernel)
  obtain ⟨ops, hops, -, hopsName⟩ := hmem (lit "2") (lit "ops") (by simp)
  obtain ⟨first, hfirst, hid, hslash⟩ := hmem (lit "1") [slash] (by simp)
  obtain ⟨r, t', -, -, hserve, hrest⟩ := (hdelete ops hops).1 (by rw [hopsName]; decide)
  refine ⟨s, t, t', r, hrun, hkeys, hnames, hserve, ?_, ?_⟩
  · rw [hopsName] at hrest
    exact hrest
  · rw [← hid]
    exact (hdelete first hfirst).2 hslash

end ApiTest.Server
