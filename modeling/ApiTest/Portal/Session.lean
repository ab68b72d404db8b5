import ApiTest.Audit.Event
import ApiTest.Auth.Identity
import ApiTest.Text.Base64

/-! The signed cookies of the portal (`pkg/httpsrv/session.go`). A cookie is the
encoded payload, a dot and the encoded signature of the encoded payload. It is cut
at its first dot, and signatures are compared as bytes, so the decoder accepts
several spellings of one signature but no second payload under it. -/

namespace ApiTest.Portal

open Text Audit

/-- HMAC-SHA256: the signature of a message under a key. -/
class HMAC where
  sum : GoString → GoString → GoString

structure SessionPayload where
  identity : Option Auth.Identity
  expires : Time := 0

/-- `json.Marshal` and `json.Unmarshal` of a payload; `none` is an error. -/
class PayloadJSON where
  marshal : SessionPayload → Option GoString
  unmarshal : GoString → Option SessionPayload

structure SessionStore where
  cookieName : GoString
  secret : GoString
  secure : Bool
  maxAge : ℤ
  longEnough : 16 ≤ secret.length

/-- Twelve hours. -/
def defaultMaxAge : ℤ := 12 * 3600 * 1000000000

/-- `NewSessionStore`. -/
def newSessionStore (cookieName secret : GoString) (secure : Bool) (maxAge : ℤ) :
    Except GoString SessionStore :=
  if h : secret.length < 16 then .error (lit "session secret too short (need >= 16 bytes)")
  else .ok
    { cookieName := if cookieName = [] then lit "api_test_session" else cookieName
      secret
      secure
      maxAge := if maxAge = 0 then defaultMaxAge else maxAge
      longEnough := Nat.le_of_not_lt h }

/-- The cookie a response sets; it is always `HttpOnly` and `SameSite=Lax`. -/
structure Cookie where
  name : GoString
  value : GoString
  path : GoString
  expires : Option Time
  secure : Bool

inductive DecodeError where
  | malformedCookie
  | decodeSig
  | badSignature
  | decodeBody
  | unmarshal
  deriving DecidableEq, Repr

def dot : UInt8 := 0x2E

/-- `strings.SplitN(v, ".", 2)`, if that has two parts. -/
def splitDot : GoString → Option (GoString × GoString)
  | [] => none
  | c :: v => if c = dot then some ([], v) else (splitDot v).map fun parts => (c :: parts.1, parts.2)

section
variable [HMAC] [PayloadJSON]

namespace SessionStore

/-- `SessionStore.encode`. -/
def encode (s : SessionStore) (pl : SessionPayload) : Option GoString :=
  (PayloadJSON.marshal pl).map fun body =>
    let b64 := Base64.encode body
    b64 ++ dot :: Base64.encode (HMAC.sum s.secret b64)

/-- `SessionStore.decode`. -/
def decode (s : SessionStore) (v : GoString) : Except DecodeError SessionPayload :=
  match splitDot v with
  | none => .error .malformedCookie
  | some (body64, sig) =>
    let want := Base64.encode (HMAC.sum s.secret body64)
    match Base64.decode sig, Base64.decode want with
    | none, _ => .error .decodeSig
    | some _, none => .error .decodeSig
    | some got, some wantBytes =>
      if got ≠ wantBytes then .error .badSignature
      else match Base64.decode body64 with
        | none => .error .decodeBody
        | some body =>
          match PayloadJSON.unmarshal body with
          | none => .error .unmarshal
          | some pl => .ok pl

/-- `SessionStore.Issue` at the time `now`. -/
def issue (s : SessionStore) (now : Time) (id : Option Auth.Identity) : Option Cookie :=
  let pl : SessionPayload := ⟨id, now + s.maxAge⟩
  (s.encode pl).map fun value =>
    { name := s.cookieName, value, path := lit "/", expires := some pl.expires, secure := s.secure }

/-- `SessionStore.Read` at the time `now`, from the cookies of the request. -/
def read (s : SessionStore) (now : Time) (cookies : List (GoString × GoString)) :
    Option Auth.Identity :=
  match cookies.lookup s.cookieName with
  | none => none
  | some value =>
    if value = [] then none
    else match s.decode value with
      | .error _ => none
      | .ok pl => if pl.expires < now then none else pl.identity

end SessionStore

omit [PayloadJSON] in
/-- `derivePKCESecret`. -/
def derivePKCESecret (cookieSecret : GoString) : GoString :=
  Base64.encode (HMAC.sum cookieSecret (lit "api-test/pkce/v1"))

/-- The store of the login cookie, as `NewBrowserAuth` derives it. -/
def newPKCEStore (cookieSecret : GoString) (secure : Bool) : Except GoString SessionStore :=
  newSessionStore (lit "api_test_pkce") (derivePKCESecret cookieSecret) secure 0

end

/-! ### What the decoder accepts -/

theorem splitDot_append {body : GoString} (h : dot ∉ body) (sig : GoString) :
    splitDot (body ++ dot :: sig) = some (body, sig) := by
  induction body with
  | nil => rfl
  | cons c body ih =>
    rw [List.mem_cons, not_or] at h
    rw [List.cons_append, splitDot, if_neg (Ne.symm h.1), ih h.2]
    rfl

theorem splitDot_eq_some {v body sig : GoString} (h : splitDot v = some (body, sig)) :
    dot ∉ body ∧ v = body ++ dot :: sig := by
  induction v generalizing body with
  | nil => cases h
  | cons c v ih =>
    rw [splitDot] at h
    split_ifs at h with hc
    · cases h
      exact ⟨List.not_mem_nil, by rw [hc]; rfl⟩
    · obtain ⟨⟨body', sig'⟩, hsplit, hparts⟩ := Option.map_eq_some_iff.mp h
      cases hparts
      obtain ⟨hbody, rfl⟩ := ih hsplit
      exact ⟨by simp [hbody, Ne.symm hc], rfl⟩

theorem dot_notMem_encode (s : GoString) : dot ∉ Base64.encode s := by
  intro h
  have halphabet : dot ∉ Base64.alphabet := by decide
  exact halphabet (Base64.mem_alphabet_of_mem_encode h)

/-- No base64 text holds a dot. -/
theorem decode_eq_none_of_dot {s : GoString} (h : dot ∈ s) : Base64.decode s = none :=
  Base64.decode_eq_none h (by decide) (by decide)

/-- A split behind the first of the dots leaves one in the second part. -/
theorem dot_mem_of_longer {body b sig g : GoString} (hdot : dot ∈ body) (hb : dot ∉ b)
    (h : body ++ dot :: sig = b ++ dot :: g) : dot ∈ g := by
  have hcount := congrArg (List.count dot) h
  have hbody := List.count_pos_iff.mpr hdot
  rw [List.count_append, List.count_append, List.count_cons_self, List.count_cons_self,
    List.count_eq_zero_of_not_mem hb] at hcount
  exact List.count_pos_iff.mp (by omega)

section
variable [HMAC] [PayloadJSON] {s : SessionStore}

theorem SessionStore.decode_eq_ok {v : GoString} {pl : SessionPayload} :
    s.decode v = .ok pl ↔ ∃ body sig raw, splitDot v = some (body, sig) ∧
      Base64.decode sig = some (HMAC.sum s.secret body) ∧ Base64.decode body = some raw ∧
      PayloadJSON.unmarshal raw = some pl := by
  unfold SessionStore.decode
  cases hsplit : splitDot v with
  | none => simp
  | some parts =>
    obtain ⟨body, sig⟩ := parts
    simp only [Base64.decode_encode, Option.some.injEq, Prod.mk.injEq]
    cases hsig : Base64.decode sig with
    | none => simp +contextual [hsig]
    | some got =>
      by_cases hgot : got = HMAC.sum s.secret body
      · cases hbody : Base64.decode body with
        | none => simp +contextual [hgot, hbody]
        | some raw =>
          cases hjson : PayloadJSON.unmarshal raw with
          | none => simp +contextual [hgot, hbody, hjson]
          | some pl' => simp +contextual [hgot, hsig, hbody, hjson]
      · simp +contextual [hgot, hsig]

/-! ### Round trip, tampering and crossing -/

/-- JSON gives a payload back. -/
def RoundTrips (pl : SessionPayload) : Prop :=
  ∃ body, PayloadJSON.marshal pl = some body ∧ PayloadJSON.unmarshal body = some pl

omit [PayloadJSON] in
/-- Signatures of distinct pairs of key and message differ. -/
def CollisionFree : Prop :=
  ∀ key message key' message', HMAC.sum key message = HMAC.sum key' message' →
    key = key' ∧ message = message'

theorem SessionStore.decode_of_encode {pl : SessionPayload} (h : RoundTrips pl) :
    ∃ v, s.encode pl = some v ∧ v ≠ [] ∧ s.decode v = .ok pl := by
  obtain ⟨body, hmarshal, hunmarshal⟩ := h
  refine ⟨Base64.encode body ++ dot :: Base64.encode (HMAC.sum s.secret (Base64.encode body)),
    by simp [SessionStore.encode, hmarshal], by simp, ?_⟩
  rw [SessionStore.decode_eq_ok]
  exact ⟨_, _, body, splitDot_append (dot_notMem_encode body) _, Base64.decode_encode _,
    Base64.decode_encode body, hunmarshal⟩

/-- A value that was signed with another key is refused. -/
theorem SessionStore.decode_of_other (hfree : CollisionFree) {p : SessionStore}
    (hsecret : p.secret ≠ s.secret) {pl : SessionPayload} {v : GoString}
    (h : p.encode pl = some v) : ∃ e, s.decode v = .error e := by
  cases hdecode : s.decode v with
  | error e => exact ⟨e, rfl⟩
  | ok pl' =>
    obtain ⟨body, sig, raw, hsplit, hsig, -, -⟩ := SessionStore.decode_eq_ok.mp hdecode
    obtain ⟨text, -, rfl⟩ := Option.map_eq_some_iff.mp h
    rw [splitDot_append (dot_notMem_encode text)] at hsplit
    cases hsplit
    rw [Base64.decode_encode, Option.some.injEq] at hsig
    exact absurd (hfree _ _ _ _ hsig).1 hsecret

/-- Under the signature of an accepted value no other payload is accepted: a new
payload with a dot in it leaves a dot in the signature, any other one has another
signature. -/
theorem SessionStore.decode_of_changed (hfree : CollisionFree) {body body' sig : GoString}
    (hbody : dot ∉ body) {pl : SessionPayload} (h : s.decode (body ++ dot :: sig) = .ok pl)
    (hne : body' ≠ body) : ∃ e, s.decode (body' ++ dot :: sig) = .error e := by
  cases hdecode : s.decode (body' ++ dot :: sig) with
  | error e => exact ⟨e, rfl⟩
  | ok pl' =>
    obtain ⟨b, g, -, hsplit, hg, -, -⟩ := SessionStore.decode_eq_ok.mp h
    rw [splitDot_append hbody] at hsplit
    cases hsplit
    obtain ⟨b', g', -, hsplit', hg', -, -⟩ := SessionStore.decode_eq_ok.mp hdecode
    by_cases hdot : dot ∈ body'
    · obtain ⟨hb', heq⟩ := splitDot_eq_some hsplit'
      have hg'dot : dot ∈ g' := dot_mem_of_longer hdot hb' heq
      rw [decode_eq_none_of_dot hg'dot] at hg'
      cases hg'
    · rw [splitDot_append hdot] at hsplit'
      cases hsplit'
      rw [hg, Option.some.injEq] at hg'
      exact absurd (hfree _ _ _ _ hg').2.symm hne

/-- What the cookies of a session store promise, next to the login store `p` of the
same secret. -/
structure Separate (s p : SessionStore) : Prop where
  /-- An issued cookie is read back until it expires, and not after. -/
  readBack : ∀ now id, RoundTrips ⟨id, now + s.maxAge⟩ →
    ∃ c, s.issue now id = some c ∧ c.expires = some (now + s.maxAge) ∧
      ∀ t cookies, cookies.lookup s.cookieName = some c.value →
        (t ≤ now + s.maxAge → s.read t cookies = id) ∧
        (now + s.maxAge < t → s.read t cookies = none)
  /-- With the part before the first dot changed, an accepted value is refused. -/
  tampered : ∀ body sig pl, dot ∉ body → s.decode (body ++ dot :: sig) = .ok pl →
    ∀ body', body' ≠ body → ∃ e, s.decode (body' ++ dot :: sig) = .error e
  /-- Neither store accepts what the other encodes. -/
  notLogin : ∀ pl v, p.encode pl = some v → ∃ e, s.decode v = .error e
  notSession : ∀ pl v, s.encode pl = some v → ∃ e, p.decode v = .error e

theorem SessionStore.read_of_decode {v : GoString} {pl : SessionPayload} (hv : v ≠ [])
    (h : s.decode v = .ok pl) {t : Time} {cookies : List (GoString × GoString)}
    (hcookie : cookies.lookup s.cookieName = some v) :
    s.read t cookies = if pl.expires < t then none else pl.identity := by
  simp [SessionStore.read, hcookie, hv, h]

omit [PayloadJSON] in
/-- The derived store of a successful `NewBrowserAuth` has the derived secret. -/
theorem newPKCEStore_secret {secret : GoString} {secure : Bool} {p : SessionStore}
    (h : newPKCEStore secret secure = .ok p) : p.secret = derivePKCESecret secret := by
  unfold newPKCEStore newSessionStore at h
  split_ifs at h <;> cases h <;> rfl

theorem session_cookies_separate (hfree : CollisionFree) (s p : SessionStore) (secure : Bool)
    (hp : newPKCEStore s.secret secure = .ok p) (hderived : derivePKCESecret s.secret ≠ s.secret) :
    Separate s p where
  readBack now id hjson := by
    obtain ⟨v, hencode, hv, hdecode⟩ := SessionStore.decode_of_encode (s := s) hjson
    refine ⟨_, by rw [SessionStore.issue, hencode]; rfl, rfl, fun t cookies hcookie => ?_⟩
    rw [SessionStore.read_of_decode hv hdecode hcookie]
    exact ⟨fun ht => if_neg (Int.not_lt.mpr ht), fun ht => if_pos ht⟩
  tampered _ _ _ hbody h _ hne := SessionStore.decode_of_changed hfree hbody h hne
  notLogin _ _ h := by
    refine SessionStore.decode_of_other hfree ?_ h
    rw [newPKCEStore_secret hp]
    exact hderived
  notSession _ _ h := by
    refine SessionStore.decode_of_other hfree ?_ h
    rw [newPKCEStore_secret hp]
    exact hderived.symm

end

/-! A signature without collisions: the length of the key in unary, the key and
the message. -/

@[reducible] def unaryHMAC : HMAC where
  sum key message := List.replicate key.length 0 ++ 1 :: (key ++ message)

theorem unaryHMAC_collisionFree : @CollisionFree unaryHMAC := by
  intro key message key' message' h
  have hlength : ∀ (n m : ℕ) (a b : GoString),
      List.replicate n (0 : UInt8) ++ 1 :: a = List.replicate m 0 ++ 1 :: b → n = m ∧ a = b := by
    intro n
    induction n with
    | zero =>
      intro m a b hab
      cases m with
      | zero => simpa using hab
      | succ m => simp [List.replicate_succ] at hab
    | succ n ih =>
      intro m a b hab
      cases m with
      | zero => simp [List.replicate_succ] at hab
      | succ m =>
        rw [List.replicate_succ, List.replicate_succ, List.cons_append, List.cons_append,
          List.cons.injEq] at hab
        obtain ⟨hnm, hrest⟩ := ih m a b hab.2
        exact ⟨by omega, hrest⟩
  obtain ⟨hkey, hrest⟩ := hlength _ _ _ _ h
  exact List.append_inj hrest hkey

/-- JSON of one payload. -/
@[reducible] def onePayload : PayloadJSON where
  marshal _ := some []
  unmarshal _ := some ⟨none, 0⟩

/-- Somebody with a session of three nanoseconds. -/
def briefSession : SessionPayload := ⟨some { subject := lit "alice" }, 3⟩

/-- JSON of the payloads with a subject, and of this session. -/
@[reducible] def subjectJSON : PayloadJSON where
  marshal pl := pl.identity.map Auth.Identity.subject
  unmarshal body := if body = lit "alice" then some briefSession else none

/-- A store and the login store of its secret, with concrete signatures: the cookie of a
session is read back until it expires. -/
theorem session_cookies_separate_unary :
    ∃ (s p : SessionStore) (c : Cookie), @Separate unaryHMAC subjectJSON s p ∧
      @SessionStore.issue unaryHMAC subjectJSON s 0 briefSession.identity = some c ∧
      @SessionStore.read unaryHMAC subjectJSON s 3 [(s.cookieName, c.value)] = briefSession.identity ∧
      @SessionStore.read unaryHMAC subjectJSON s 4 [(s.cookieName, c.value)] = none := by
  have hseparate := @session_cookies_separate unaryHMAC subjectJSON unaryHMAC_collisionFree
    ⟨lit "c", List.replicate 16 0x61, false, 3, by decide⟩ _ false rfl (by decide +kernel)
  obtain ⟨c, hissue, -, hread⟩ := @Separate.readBack unaryHMAC subjectJSON _ _ hseparate 0
    briefSession.identity ⟨lit "alice", rfl, rfl⟩
  have hcookie := hread 3 [(lit "c", c.value)] rfl
  have hlate := hread 4 [(lit "c", c.value)] rfl
  exact ⟨_, _, c, hseparate, hissue, hcookie.1 (by decide), hlate.2 (by decide)⟩

end ApiTest.Portal
