import ApiTest.Ledger.Expiring
import ApiTest.Portal.Session
import ApiTest.Text.Strings
import ApiTest.Transition.Run

/-! The browser login (`browserauth.go`) as a system of requests in time. The
login cookie carries a nonce; the callback enters it into a ledger whose entries
live for ten minutes. The cookie itself has no end on the server: its payload has
no expiry and the callback decodes it without asking for one. So a cookie value
reaches the code exchange again as soon as its nonce has left the ledger. -/

namespace ApiTest.Portal

open Text Audit Transition

/-- The lifetime of a nonce in the ledger, ten minutes. -/
def nonceTTL : ℤ := 600 * 1000000000

/-- `sanitizeReturnPath`. -/
def sanitizeReturnPath (p : GoString) : GoString :=
  if p = [] then []
  else if !hasPrefix p (lit "/") then []
  else if hasPrefix p (lit "//") || hasPrefix p (lit "/\\") then []
  else p

/-- The payload of the login cookie; its expiry is the zero time. -/
def loginPayload (state verifier nonce returnTo : GoString) : SessionPayload where
  identity := some
    { claims := [(lit "state", .string state), (lit "verifier", .string verifier),
        (lit "nonce", .string nonce), (lit "return", .string returnTo)] }

/-- `consumeNonce`. -/
def consumeNonce (nonce : GoString) (now : Time) (used : List (GoString × Time)) :
    Bool × List (GoString × Time) :=
  if nonce = [] then (false, used) else Ledger.consume nonceTTL now nonce used

/-- How far a callback comes: an error 400 with its text, the nil identity of a
payload, or the code exchange. -/
inductive CallbackStage where
  | refused (message : GoString)
  | panicked
  | exchange (code verifier returnTo : GoString)
  deriving DecidableEq

section
variable [HMAC] [PayloadJSON]

/-- The cookie value `handleLogin` sets, for the random strings it drew. -/
def handleLogin (pkce : SessionStore) (state verifier nonce : GoString) (query : Values) :
    Option GoString :=
  pkce.encode (loginPayload state verifier nonce (sanitizeReturnPath (query.get (lit "return"))))

/-- `handleCallback` as far as the code exchange, and the ledger afterwards. -/
def handleCallback (pkce : SessionStore) (now : Time) (cookie : Option GoString) (query : Values)
    (used : List (GoString × Time)) : CallbackStage × List (GoString × Time) :=
  match cookie with
  | none => (.refused (lit "missing pkce cookie"), used)
  | some value =>
    match pkce.decode value with
    | .error _ => (.refused (lit "bad pkce cookie"), used)
    | .ok pl =>
      match pl.identity with
      | none => (.panicked, used)
      | some id =>
        let st := id.claims.str (lit "state")
        if query.get (lit "state") ≠ st ∨ st = [] then (.refused (lit "state mismatch"), used)
        else
          let (fresh, used') := consumeNonce (id.claims.str (lit "nonce")) now used
          if !fresh then (.refused (lit "replay rejected"), used')
          else if query.get (lit "code") = [] then (.refused (lit "missing code"), used')
          else (.exchange (query.get (lit "code")) (id.claims.str (lit "verifier"))
            (id.claims.str (lit "return")), used')

/-- The nonce in a cookie value. -/
def nonceOf (pkce : SessionStore) (value : GoString) : GoString :=
  match pkce.decode value with
  | .error _ => []
  | .ok pl => (pl.identity.map fun id => id.claims.str (lit "nonce")).getD []

/-- What a callback does to the ledger. -/
inductive CallbackMoves (pkce : SessionStore) (now : Time) (cookie : Option GoString)
    (used : List (GoString × Time)) : CallbackStage × List (GoString × Time) → Prop
  | early {stage : CallbackStage} (hstage : ∀ c v r, stage ≠ .exchange c v r) :
      CallbackMoves pkce now cookie used (stage, used)
  | late {stage : CallbackStage} {nonce : GoString} (hstage : ∀ c v r, stage ≠ .exchange c v r) :
      CallbackMoves pkce now cookie used (stage, (Ledger.consume nonceTTL now nonce used).2)
  | exchange {value c v r : GoString} (hcookie : cookie = some value)
      (hfresh : (Ledger.consume nonceTTL now (nonceOf pkce value) used).1 = true) :
      CallbackMoves pkce now cookie used
        (.exchange c v r, (Ledger.consume nonceTTL now (nonceOf pkce value) used).2)

theorem callback_moves (pkce : SessionStore) (now : Time) (cookie : Option GoString)
    (query : Values) (used : List (GoString × Time)) :
    CallbackMoves pkce now cookie used (handleCallback pkce now cookie query used) := by
  cases cookie with
  | none => exact .early (by simp)
  | some value =>
    simp only [handleCallback]
    cases hdecode : pkce.decode value with
    | error e => exact .early (by simp)
    | ok pl =>
      cases hid : pl.identity with
      | none => simpa only [hid] using .early (by simp)
      | some id =>
        have hnonce : nonceOf pkce value = id.claims.str (lit "nonce") := by
          simp [nonceOf, hdecode, hid]
        simp only [hid, consumeNonce]
        rw [← hnonce]
        by_cases hempty : nonceOf pkce value = []
        · simp only [hempty, if_true, Bool.not_false]
          split_ifs <;> exact .early (by simp)
        · simp only [hempty, if_false]
          split_ifs with hstate hfresh hcode
          · exact .early (by simp)
          · exact .late (by simp)
          · exact .late (by simp)
          · exact .exchange rfl (by simpa using hfresh)

/-! ### Runs -/

/-- The server between requests: the time of the last one, the ledger, and the
cookie values that reached the code exchange, with their times. -/
structure LoginState where
  clock : Time
  usedNonces : List (GoString × Time) := []
  exchanged : List (GoString × Time) := []

/-- A request at a time, for a login with the random strings it draws. -/
inductive LoginEvent where
  | login (now : Time) (state verifier nonce : GoString) (query : Values)
  | callback (now : Time) (cookie : Option GoString) (query : Values)

/-- One request; times do not decrease. A login leaves nothing on the server. -/
def loginStep (pkce : SessionStore) (s : LoginState) : LoginEvent → Option LoginState
  | .login now _ _ _ _ => if now < s.clock then none else some { s with clock := now }
  | .callback now cookie query =>
    if now < s.clock then none
    else
      let (stage, used) := handleCallback pkce now cookie query s.usedNonces
      some
        { clock := now
          usedNonces := used
          exchanged := match stage, cookie with
            | .exchange _ _ _, some value => s.exchanged ++ [(value, now)]
            | _, _ => s.exchanged }

/-- What a request does to the server. -/
inductive LoginMoves (pkce : SessionStore) (s : LoginState) (e : LoginEvent) :
    LoginState → Prop
  | idle {now : Time} (hclock : s.clock ≤ now) : LoginMoves pkce s e { s with clock := now }
  | refused {now : Time} {nonce : GoString} (hclock : s.clock ≤ now) :
      LoginMoves pkce s e { s with
        clock := now, usedNonces := (Ledger.consume nonceTTL now nonce s.usedNonces).2 }
  | exchange {now : Time} {value : GoString} {query : Values} (hclock : s.clock ≤ now)
      (he : e = .callback now (some value) query)
      (hfresh : (Ledger.consume nonceTTL now (nonceOf pkce value) s.usedNonces).1 = true) :
      LoginMoves pkce s e
        { clock := now
          usedNonces := (Ledger.consume nonceTTL now (nonceOf pkce value) s.usedNonces).2
          exchanged := s.exchanged ++ [(value, now)] }

theorem moves_of_loginStep {pkce : SessionStore} {s t : LoginState} {e : LoginEvent}
    (h : loginStep pkce s e = some t) : LoginMoves pkce s e t := by
  cases e with
  | login now state verifier nonce query =>
    simp only [loginStep] at h
    split_ifs at h with hclock
    cases h
    exact .idle (Int.not_lt.mp hclock)
  | callback now cookie query =>
    simp only [loginStep] at h
    split_ifs at h with hclock
    have hnow := Int.not_lt.mp hclock
    have hmoves := callback_moves pkce now cookie query s.usedNonces
    generalize handleCallback pkce now cookie query s.usedNonces = result at h hmoves
    cases hmoves with
    | @early stage hstage =>
      cases stage with
      | exchange c v r => exact absurd rfl (hstage c v r)
      | refused message =>
        cases h
        exact .idle hnow
      | panicked =>
        cases h
        exact .idle hnow
    | @late stage nonce hstage =>
      cases stage with
      | exchange c v r => exact absurd rfl (hstage c v r)
      | refused message =>
        cases h
        exact .refused hnow
      | panicked =>
        cases h
        exact .refused hnow
    | exchange hcookie hfresh =>
      subst hcookie
      cases h
      exact .exchange hnow rfl hfresh

/-- The nonce of a value that reached the exchange is in the ledger, under the time
of the exchange, for as long as it lives. -/
def Recorded (pkce : SessionStore) (s : LoginState) : Prop :=
  ∀ e ∈ s.exchanged, (nonceOf pkce e.1, e.2) ∈ s.usedNonces ∨ nonceTTL < s.clock - e.2

theorem recorded_of_moves {pkce : SessionStore} {s t : LoginState} {e : LoginEvent}
    (h : LoginMoves pkce s e t) (hs : Recorded pkce s) : Recorded pkce t := by
  -- an entry of the ledger outlives a step or is past its lifetime after it
  have hkept : ∀ (now : Time) (nonce : GoString), s.clock ≤ now → ∀ e ∈ s.exchanged,
      (nonceOf pkce e.1, e.2) ∈ (Ledger.consume nonceTTL now nonce s.usedNonces).2 ∨
        nonceTTL < now - e.2 := by
    intro now nonce hclock e he
    by_cases hage : now - e.2 ≤ nonceTTL
    · obtain hmem | hold := hs e he
      · exact Or.inl (Ledger.mem_consume hmem hage)
      · exact Or.inr (Ledger.old_of_le hclock hold)
    · exact Or.inr (Int.not_le.mp hage)
  cases h with
  | idle hclock =>
    intro e he
    exact (hs e he).imp_right (Ledger.old_of_le hclock)
  | refused hclock => exact fun e he => hkept _ _ hclock e he
  | exchange hclock _ hfresh =>
    intro e he
    obtain he | he := List.mem_append.mp he
    · exact hkept _ _ hclock e he
    · cases List.mem_singleton.mp he
      exact Or.inl (Ledger.recorded_of_fresh hfresh)

/-- A value reaches the exchange again only after the lifetime of its nonce. -/
theorem age_of_exchange {pkce : SessionStore} {s : LoginState} (hs : Recorded pkce s)
    {now : Time} (hclock : s.clock ≤ now) {value : GoString} {time : Time}
    (hfresh : (Ledger.consume nonceTTL now (nonceOf pkce value) s.usedNonces).1 = true)
    (he : (value, time) ∈ s.exchanged) : nonceTTL < now - time := by
  obtain hmem | hold := hs _ he
  · exact Ledger.age_of_fresh hfresh hmem rfl
  · exact Ledger.old_of_le hclock hold

/-- Two exchanges of one cookie value are more than the lifetime of a nonce apart,
in every run. -/
theorem exchanges_apart {pkce : SessionStore} {start : Time} {events : List LoginEvent}
    {s : LoginState} (h : run (loginStep pkce) ⟨start, [], []⟩ events = some s) :
    s.exchanged.Pairwise fun a b => a.1 = b.1 → nonceTTL < b.2 - a.2 := by
  have hinv : Recorded pkce s ∧
      s.exchanged.Pairwise fun a b => a.1 = b.1 → nonceTTL < b.2 - a.2 := by
    refine run_invariant (fun s => Recorded pkce s ∧
      s.exchanged.Pairwise fun a b => a.1 = b.1 → nonceTTL < b.2 - a.2) ?_ h ?_
    · rintro s e t ⟨hrecorded, hapart⟩ hstep
      have hmoves := moves_of_loginStep hstep
      refine ⟨recorded_of_moves hmoves hrecorded, ?_⟩
      cases hmoves with
      | idle => exact hapart
      | refused => exact hapart
      | exchange hclock _ hfresh =>
        rw [List.pairwise_append]
        refine ⟨hapart, List.pairwise_singleton _ _, fun a ha b hb heq => ?_⟩
        cases List.mem_singleton.mp hb
        obtain ⟨value', time⟩ := a
        cases heq
        exact age_of_exchange hrecorded hclock hfresh ha
    · exact ⟨by simp [Recorded], List.Pairwise.nil⟩
  exact hinv.2

/-- A callback with a value that reached the exchange comes within the lifetime of
its nonce. -/
def Prompt (s : LoginState) : LoginEvent → Prop
  | .login _ _ _ _ _ => True
  | .callback now cookie _ => ∀ value time, cookie = some value →
      (value, time) ∈ s.exchanged → now - time ≤ nonceTTL

/-- In every run whose callbacks are all prompt, every cookie value reaches the code
exchange at most once. -/
theorem exchange_once_of_prompt (pkce : SessionStore) (start : Time) (events : List LoginEvent)
    (s : LoginState) (h : run (loginStep pkce) ⟨start, [], []⟩ events = some s)
    (hprompt : Meets (loginStep pkce) Prompt ⟨start, [], []⟩ events) :
    ∀ value, (s.exchanged.map Prod.fst).count value ≤ 1 := by
  have hinv : Recorded pkce s ∧ (s.exchanged.map Prod.fst).Nodup := by
    refine run_invariant_of_meets (fun s => Recorded pkce s ∧ (s.exchanged.map Prod.fst).Nodup)
      ?_ h hprompt ?_
    · rintro s e t hguard ⟨hrecorded, hnodup⟩ hstep
      have hmoves := moves_of_loginStep hstep
      refine ⟨recorded_of_moves hmoves hrecorded, ?_⟩
      cases hmoves with
      | idle => exact hnodup
      | refused => exact hnodup
      | @exchange now value query hclock he hfresh =>
        subst he
        have hnew : value ∉ s.exchanged.map Prod.fst := by
          intro hmem
          obtain ⟨⟨value', time⟩, hexchanged, rfl⟩ := List.mem_map.mp hmem
          exact absurd (hguard _ time rfl hexchanged)
            (Int.not_le.mpr (age_of_exchange hrecorded hclock hfresh hexchanged))
        rw [List.map_append, List.nodup_append]
        refine ⟨hnodup, by simp, fun a ha b hb heq => ?_⟩
        have hb : b = value := by simpa using hb
        exact hnew (hb ▸ heq ▸ ha)
    · exact ⟨by simp [Recorded], by simp⟩
  exact List.nodup_iff_count.mp hinv.2

end

/-! ### One cookie, used twice -/

/-- JSON of the payload of one login. -/
@[reducible] def oneLogin : PayloadJSON where
  marshal _ := some (lit "p")
  unmarshal _ := some (loginPayload (lit "s") (lit "v") (lit "n") [])

/-- A login store of a sixteen byte secret. -/
def loginStore : SessionStore := ⟨lit "api_test_pkce", List.replicate 16 0x61, false, 0, by decide⟩

/-- The cookie value of that login, and the query the provider redirects with. -/
def loginCookie : GoString :=
  (@handleLogin unaryHMAC oneLogin loginStore (lit "s") (lit "v") (lit "n") []).getD []

def loginQuery : Values := [(lit "state", [lit "s"]), (lit "code", [lit "c"])]

/-- A login at time 0 and callbacks with its cookie a second and the given time
later. -/
def loginTwice (later : Time) : List LoginEvent :=
  [.login 0 (lit "s") (lit "v") (lit "n") [], .callback 1000000000 (some loginCookie) loginQuery,
    .callback later (some loginCookie) loginQuery]

/-- Eleven minutes later the same cookie value reaches the exchange again. -/
theorem cookie_exchanged_twice :
    ∃ s, run (@loginStep unaryHMAC oneLogin loginStore) ⟨0, [], []⟩
        (loginTwice (660 * 1000000000)) = some s ∧
      (s.exchanged.map Prod.fst).count loginCookie = 2 := by
  have hrun : ((run (@loginStep unaryHMAC oneLogin loginStore) ⟨0, [], []⟩
      (loginTwice (660 * 1000000000))).map fun s =>
        (s.exchanged.map Prod.fst).count loginCookie) = some 2 := by
    decide +kernel
  exact Option.map_eq_some_iff.mp hrun

/-- Two seconds later it does not. -/
theorem exchange_once_within_seconds :
    ∃ s, run (@loginStep unaryHMAC oneLogin loginStore) ⟨0, [], []⟩
        (loginTwice 2000000000) = some s ∧
      ∀ value, (s.exchanged.map Prod.fst).count value ≤ 1 := by
  have hrun : (run (@loginStep unaryHMAC oneLogin loginStore) ⟨0, [], []⟩
      (loginTwice 2000000000)).isSome = true := by
    decide +kernel
  obtain ⟨s, hs⟩ := Option.isSome_iff_exists.mp hrun
  refine ⟨s, hs, @exchange_once_of_prompt unaryHMAC oneLogin loginStore 0 _ s hs ?_⟩
  -- nothing has been exchanged after the login, and after the first callback only
  -- its own value
  refine ⟨trivial, fun t₁ h₁ => ⟨?_, fun t₂ h₂ => ⟨?_, fun _ _ => trivial⟩⟩⟩
  · intro value time _ hmem
    cases h₁
    cases hmem
  · intro value time _ hmem
    cases h₁
    have hmoves := @moves_of_loginStep unaryHMAC oneLogin _ _ _ _ h₂
    cases hmoves with
    | idle => cases hmem
    | refused => cases hmem
    | exchange _ he _ =>
      cases he
      cases List.mem_singleton.mp hmem
      decide

end ApiTest.Portal
