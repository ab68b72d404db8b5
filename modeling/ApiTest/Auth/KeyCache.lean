import ApiTest.Text.Base64
import ApiTest.Transition.Run

/-! The cache of signing keys (`publicKey`, `refreshJWKS`) as a system of calls
that interleave. A call reads the cache under the lock; if that does not settle it,
it keeps what it read, waits for a refresh, which it may share with other calls,
and then decides. After a failed refresh it decides from what it had read, although
another refresh may have installed a newer set by then.

Instants are in nanoseconds. -/

namespace ApiTest.Auth

open Text Transition

/-! ### Key sets -/

/-- `rsa.PublicKey`. -/
structure PublicKey where
  n : ℕ
  e : ℕ
  deriving DecidableEq, Repr

/-- A key of the JWKS document. -/
structure JWK where
  kty : GoString
  use : GoString
  alg : GoString
  kid : GoString
  n : GoString
  e : GoString

def bigEndian (bytes : GoString) : ℕ := bytes.foldl (fun v b => v * 256 + b.toNat) 0

/-- `decodeRSA`. -/
def decodeRSA (n e : GoString) : Option PublicKey :=
  match Base64.decode n, Base64.decode e with
  | some n, some e => if 4 < e.length then none else some ⟨bigEndian n, bigEndian e⟩
  | _, _ => none

/-- The keys of a document that `refreshJWKS` does not pass over. -/
def JWK.key (jwk : JWK) : Option (GoString × PublicKey) :=
  if jwk.kty ≠ lit "RSA" then none
  else if jwk.use ≠ [] ∧ jwk.use ≠ lit "sig" then none
  else if jwk.alg ≠ [] ∧ jwk.alg ∉ [lit "RS256", lit "RS384", lit "RS512"] then none
  else (decodeRSA jwk.n jwk.e).map (jwk.kid, ·)

/-- The map from `kid` to key, the last key of a `kid` in front. -/
def keysOf (doc : List JWK) : List (GoString × PublicKey) := (doc.filterMap JWK.key).reverse

/-- The installed keys with the times until which they are fresh and usable. -/
structure KeySet where
  keys : List (GoString × PublicKey)
  expiresAt : ℤ
  staleOK : ℤ

def KeySet.key (set : KeySet) (kid : GoString) : Option PublicKey := set.keys.lookup kid

/-- Five minutes. -/
def staleGracePeriod : ℤ := 300 * 1000000000

/-- The time to live that a configured one stands for. -/
def cacheTTL (configured : ℤ) : ℤ := if configured = 0 then 3600 * 1000000000 else configured

/-- The set a refresh at the time `now` installs. -/
def KeySet.fetched (ttl now : ℤ) (keys : List (GoString × PublicKey)) : KeySet :=
  ⟨keys, now + ttl, now + ttl + staleGracePeriod⟩

/-! ### Calls and refreshes -/

/-- What a call keeps of its locked read; `seen` counts the sets installed by then. -/
structure Snapshot where
  kid : GoString
  cached : Option PublicKey
  staleOK : ℤ
  seen : ℕ

inductive Call where
  | snapped (snap : Snapshot)
  | waiting (snap : Snapshot) (flight : ℕ)
  | returned

/-- The snapshot of a call that has not returned. -/
def Call.pending : Call → Option Snapshot
  | .snapped snap => some snap
  | .waiting snap _ => some snap
  | .returned => none

/-- The refresh under way: the request is out, its keys wait for the lock, or its
result is known; a successful one has the time of its keys. -/
inductive Flight where
  | fetching
  | fetched (keys : List (GoString × PublicKey)) (now : ℤ)
  | finished (result : Option ℤ)

/-- A call commits to a key: with the time and the set that is installed then. -/
structure Commit where
  kid : GoString
  key : PublicKey
  time : ℤ
  installed : KeySet

/-- The returned key is the installed one, and the installed set is still usable. -/
def Commit.Current (c : Commit) : Prop :=
  c.installed.key c.kid = some c.key ∧ c.time < c.installed.staleOK

/-- `installs` are all the sets so far, the installed one last, `results` those of
the finished refreshes. -/
structure CacheState where
  clock : ℤ
  installed : KeySet
  installs : List KeySet
  flight : Option Flight := none
  results : List (Option ℤ) := []
  calls : List Call := []
  commits : List Commit := []

/-- `NewOIDC` at the time `now`, with the document it fetched. -/
def CacheState.start (ttl now : ℤ) (doc : List JWK) : CacheState :=
  let set := KeySet.fetched ttl now (keysOf doc)
  { clock := now, installed := set, installs := [set] }

inductive CacheAction where
  | tick (now : ℤ)
  | read (kid : GoString)
  | join (call : ℕ)
  | fetch (doc : Option (List JWK))
  | install
  | complete
  | decide (call : ℕ)

namespace CacheState

/-- The call returns a key. -/
def commit (s : CacheState) (kid : GoString) (key : PublicKey) : CacheState :=
  { s with commits := s.commits ++ [⟨kid, key, s.clock, s.installed⟩] }

/-- The call with this number goes on. -/
def setCall (s : CacheState) (call : ℕ) (c : Call) : CacheState :=
  { s with calls := s.calls.set call c }

/-- The locked read that opens `publicKey`. -/
def read (s : CacheState) (kid : GoString) : CacheState :=
  let cached := s.installed.key kid
  match cached, decide (s.clock < s.installed.expiresAt) with
  | some key, true => { s.commit kid key with calls := s.calls ++ [.returned] }
  | _, _ =>
    { s with calls := s.calls ++ [.snapped ⟨kid, cached, s.installed.staleOK, s.installs.length⟩] }

/-- The step after the refresh attempt. -/
def decideCall (s : CacheState) (call : ℕ) (snap : Snapshot) : Option ℤ → CacheState
  | none =>
    match snap.cached, decide (s.clock < snap.staleOK) with
    | some key, true => (s.commit snap.kid key).setCall call .returned
    | _, _ => s.setCall call .returned
  | some _ =>
    match s.installed.key snap.kid with
    | some key => (s.commit snap.kid key).setCall call .returned
    | none => s.setCall call .returned

/-- One step. A refresh is joined if one is under way, and started otherwise. -/
def step (ttl : ℤ) (s : CacheState) : CacheAction → Option CacheState
  | .tick now => if now < s.clock then none else some { s with clock := now }
  | .read kid => some (s.read kid)
  | .join call =>
    match s.calls[call]? with
    | some (.snapped snap) =>
      some { s.setCall call (.waiting snap s.results.length) with
        flight := some (s.flight.getD .fetching) }
    | _ => none
  | .fetch doc =>
    match s.flight with
    | some .fetching =>
      some { s with flight := some (match doc with
        | none => .finished none
        | some doc => .fetched (keysOf doc) s.clock) }
    | _ => none
  | .install =>
    match s.flight with
    | some (.fetched keys now) =>
      let set := KeySet.fetched ttl now keys
      some { s with
        installed := set, installs := s.installs ++ [set], flight := some (.finished (some now)) }
    | _ => none
  | .complete =>
    match s.flight with
    | some (.finished result) => some { s with flight := none, results := s.results ++ [result] }
    | _ => none
  | .decide call =>
    match s.calls[call]? with
    | some (.waiting snap flight) =>
      (s.results[flight]?).map fun result => s.decideCall call snap result
    | _ => none

end CacheState

/-! ### The invariant -/

/-- A snapshot was taken of one of the installed sets, the one that was the last
when `seen` were installed. -/
def Snapshot.Taken (installs : List KeySet) (snap : Snapshot) : Prop :=
  ∃ before set, installs = before ++ set :: installs.drop snap.seen ∧
    snap.seen = before.length + 1 ∧ snap.cached = set.key snap.kid ∧ snap.staleOK = set.staleOK

structure CacheInv (ttl : ℤ) (s : CacheState) : Prop where
  last : ∃ before, s.installs = before ++ [s.installed]
  fresh : s.installed.expiresAt ≤ s.installed.staleOK
  bounded : ∀ set ∈ s.installs, set.staleOK ≤ s.installed.staleOK
  recent : s.installed.staleOK ≤ s.clock + ttl + staleGracePeriod
  fetched : ∀ keys now, s.flight = some (.fetched keys now) →
    s.installed.staleOK ≤ now + ttl + staleGracePeriod ∧ now ≤ s.clock
  finished : ∀ now, s.flight = some (.finished (some now)) →
    now + ttl + staleGracePeriod ≤ s.installed.staleOK
  results : ∀ now, some now ∈ s.results → now + ttl + staleGracePeriod ≤ s.installed.staleOK
  snapshots : ∀ call ∈ s.calls, ∀ snap, call.pending = some snap → snap.Taken s.installs
  current : ∀ c ∈ s.commits, c.Current

/-- A decision is undisturbed: after a failed refresh, no set installed since the
call's read has another key for its `kid`; after a successful one, the decision
comes before the keys of that refresh are past their grace period. -/
def Snapshot.Undisturbed (ttl : ℤ) (s : CacheState) (snap : Snapshot) : Option ℤ → Prop
  | none => ∀ set ∈ s.installs.drop snap.seen, set.key snap.kid = snap.cached
  | some now => s.clock < now + ttl + staleGracePeriod

/-- The decision that an action takes, if it takes one, is undisturbed. -/
def Undisturbed (ttl : ℤ) (s : CacheState) : CacheAction → Prop
  | .decide call => ∀ snap flight result, s.calls[call]? = some (.waiting snap flight) →
      s.results[flight]? = some result → snap.Undisturbed ttl s result
  | _ => True

instance decidableSnapshotUndisturbed (ttl : ℤ) (s : CacheState) (snap : Snapshot) :
    ∀ result, Decidable (snap.Undisturbed ttl s result)
  | none => inferInstanceAs (Decidable (∀ set ∈ s.installs.drop snap.seen, _ = _))
  | some _ => inferInstanceAs (Decidable (_ < _))

theorem undisturbed_decide_iff {ttl : ℤ} {s : CacheState} {call flight : ℕ} {snap : Snapshot}
    (hcall : s.calls[call]? = some (.waiting snap flight)) :
    Undisturbed ttl s (.decide call) ↔
      ∀ result ∈ s.results[flight]?, snap.Undisturbed ttl s result := by
  constructor
  · intro h result hresult
    exact h snap flight result hcall hresult
  · intro h snap' flight' result hcall' hresult
    cases hcall.symm.trans hcall'
    exact h result hresult

instance decidableUndisturbed (ttl : ℤ) (s : CacheState) : ∀ a, Decidable (Undisturbed ttl s a)
  | .decide call =>
    match hcall : s.calls[call]? with
    | some (.waiting _ _) => decidable_of_iff _ (undisturbed_decide_iff hcall).symm
    | some (.snapped _) => isTrue (by simp [Undisturbed, hcall])
    | some .returned => isTrue (by simp [Undisturbed, hcall])
    | none => isTrue (by simp [Undisturbed, hcall])
  | .tick _ => isTrue trivial
  | .read _ => isTrue trivial
  | .join _ => isTrue trivial
  | .fetch _ => isTrue trivial
  | .install => isTrue trivial
  | .complete => isTrue trivial

section
variable {ttl : ℤ} {s t : CacheState}

/-- A commit to a current key keeps the invariant. -/
theorem CacheInv.commit (h : CacheInv ttl s) {kid : GoString} {key : PublicKey}
    (hkey : s.installed.key kid = some key) (htime : s.clock < s.installed.staleOK) :
    CacheInv ttl (s.commit kid key) :=
  { h with
    current := by
      intro c hc
      obtain hc | hc := List.mem_append.mp hc
      · exact h.current c hc
      · cases List.mem_singleton.mp hc
        exact ⟨hkey, htime⟩ }

/-- Calls may change as long as their snapshots were taken. -/
theorem CacheInv.withCalls (h : CacheInv ttl s) {calls : List Call}
    (hcalls : ∀ call ∈ calls, ∀ snap, call.pending = some snap → snap.Taken s.installs) :
    CacheInv ttl { s with calls := calls } :=
  { h with snapshots := hcalls }

theorem CacheInv.setCall (h : CacheInv ttl s) {call : ℕ} {c : Call}
    (hc : ∀ snap, c.pending = some snap → snap.Taken s.installs) :
    CacheInv ttl (s.setCall call c) := by
  refine h.withCalls fun c' hc' snap hsnap => ?_
  obtain hc' | rfl := List.mem_or_eq_of_mem_set hc'
  · exact h.snapshots c' hc' snap hsnap
  · exact hc snap hsnap

/-- The keys of a snapshot are the installed ones unless a set installed since has
others, and its grace period ends no later. -/
theorem CacheInv.of_taken (h : CacheInv ttl s) {snap : Snapshot} (hsnap : snap.Taken s.installs) :
    snap.staleOK ≤ s.installed.staleOK ∧
      ((∀ set ∈ s.installs.drop snap.seen, set.key snap.kid = snap.cached) →
        s.installed.key snap.kid = snap.cached) := by
  obtain ⟨before, set, hinstalls, -, hcached, hstale⟩ := hsnap
  have hset : set ∈ s.installs := by
    rw [hinstalls]
    simp
  refine ⟨hstale ▸ h.bounded set hset, fun hsince => ?_⟩
  obtain ⟨front, hlast⟩ := h.last
  have hgetLast : s.installs.getLast? = some s.installed := by
    rw [hlast]
    simp
  rw [hinstalls] at hgetLast
  cases hdrop : s.installs.drop snap.seen with
  | nil =>
    rw [hdrop, List.getLast?_append_cons, List.getLast?_singleton, Option.some.injEq] at hgetLast
    rw [← hgetLast, hcached]
  | cons first rest =>
    apply hsince
    rw [hdrop, List.getLast?_append_cons, List.getLast?_cons_cons] at hgetLast
    rw [hdrop]
    exact List.mem_of_getLast? hgetLast

theorem CacheInv.read (h : CacheInv ttl s) (kid : GoString) : CacheInv ttl (s.read kid) := by
  have happend : ∀ c : Call, (∀ snap, c.pending = some snap → snap.Taken s.installs) →
      ∀ call ∈ s.calls ++ [c], ∀ snap, call.pending = some snap → snap.Taken s.installs := by
    intro c hc call hcall snap hsnap
    obtain hcall | hcall := List.mem_append.mp hcall
    · exact h.snapshots call hcall snap hsnap
    · cases List.mem_singleton.mp hcall
      exact hc snap hsnap
  unfold CacheState.read
  simp only []
  split
  next key hkey htime =>
    have htime : s.clock < s.installed.expiresAt := of_decide_eq_true htime
    exact (h.commit hkey (Int.lt_of_lt_of_le htime h.fresh)).withCalls
      (happend .returned (by simp [Call.pending]))
  next =>
    refine h.withCalls (happend _ fun snap hsnap => ?_)
    cases hsnap
    obtain ⟨before, hlast⟩ := h.last
    exact ⟨before, s.installed, by simp [hlast], by simp [hlast], rfl, rfl⟩

theorem CacheInv.decideCall (h : CacheInv ttl s) {call : ℕ} {snap : Snapshot}
    (hsnap : snap.Taken s.installs) {result : Option ℤ}
    (hresult : ∀ now, result = some now → now + ttl + staleGracePeriod ≤ s.installed.staleOK)
    (hguard : snap.Undisturbed ttl s result) :
    CacheInv ttl (s.decideCall call snap result) := by
  have hreturned : ∀ snap, Call.returned.pending = some snap → snap.Taken s.installs := by
    simp [Call.pending]
  obtain ⟨hstale, hkeys⟩ := h.of_taken hsnap
  cases result with
  | none =>
    simp only [CacheState.decideCall]
    split
    next key hkey htime =>
      have htime : s.clock < snap.staleOK := of_decide_eq_true htime
      exact (h.commit ((hkeys hguard).trans hkey) (Int.lt_of_lt_of_le htime hstale)).setCall hreturned
    next => exact h.setCall hreturned
  | some now =>
    simp only [CacheState.decideCall]
    split
    next key hkey =>
      exact (h.commit hkey (Int.lt_of_lt_of_le hguard (hresult now rfl))).setCall hreturned
    next => exact h.setCall hreturned

/-- A newer set is usable at least as long as the one before. -/
theorem CacheInv.install (h : CacheInv ttl s) {keys : List (GoString × PublicKey)} {now : ℤ}
    (hflight : s.flight = some (.fetched keys now)) :
    CacheInv ttl { s with
      installed := KeySet.fetched ttl now keys
      installs := s.installs ++ [KeySet.fetched ttl now keys]
      flight := some (.finished (some now)) } := by
  obtain ⟨hold, hnow⟩ := h.fetched keys now hflight
  have hgrace : (0 : ℤ) ≤ staleGracePeriod := by decide
  exact
    { last := ⟨s.installs, rfl⟩
      fresh := by
        show now + ttl ≤ now + ttl + staleGracePeriod
        omega
      bounded := by
        intro set hset
        obtain hset | hset := List.mem_append.mp hset
        · exact Int.le_trans (h.bounded set hset) hold
        · cases List.mem_singleton.mp hset
          exact Int.le_refl _
      recent := by
        show now + ttl + staleGracePeriod ≤ s.clock + ttl + staleGracePeriod
        omega
      fetched := by simp
      finished := by
        intro now' hfinished
        cases hfinished
        exact Int.le_refl _
      results := fun now' hmem => Int.le_trans (h.results now' hmem) hold
      snapshots := by
        intro call hcall snap hsnap
        obtain ⟨before, set, hinstalls, hseen, hrest⟩ := h.snapshots call hcall snap hsnap
        have hle : snap.seen ≤ s.installs.length := by
          rw [hinstalls]
          simp only [List.length_append, List.length_cons]
          omega
        refine ⟨before, set, ?_, hseen, hrest⟩
        rw [List.drop_append_of_le_length hle, ← List.cons_append, ← List.append_assoc,
          ← hinstalls]
      current := h.current }

theorem CacheInv.tick (h : CacheInv ttl s) {now : ℤ} (hclock : s.clock ≤ now) :
    CacheInv ttl { s with clock := now } :=
  { h with
    recent := by
      have hrecent := h.recent
      show s.installed.staleOK ≤ now + ttl + staleGracePeriod
      omega
    fetched := by
      intro keys now' hflight
      obtain ⟨hold, hnow⟩ := h.fetched keys now' hflight
      exact ⟨hold, Int.le_trans hnow hclock⟩ }

/-- A started refresh is only fetching, a joined one is as it was. -/
theorem CacheInv.join (h : CacheInv ttl s) :
    CacheInv ttl { s with flight := some (s.flight.getD .fetching) } := by
  cases hflight : s.flight with
  | none => exact { h with fetched := by simp, finished := by simp }
  | some flight =>
    rw [Option.getD_some, ← hflight]
    exact h

/-- A refresh reads the clock when its document arrives. -/
theorem CacheInv.fetch (h : CacheInv ttl s) (doc : Option (List JWK)) :
    CacheInv ttl { s with flight := some (match doc with
      | none => .finished none
      | some doc => .fetched (keysOf doc) s.clock) } := by
  cases doc with
  | none => exact { h with fetched := by simp, finished := by simp }
  | some doc =>
    exact { h with
      fetched := by
        intro keys now hfetched
        cases hfetched
        exact ⟨h.recent, Int.le_refl _⟩
      finished := by simp }

theorem CacheInv.complete (h : CacheInv ttl s) {result : Option ℤ}
    (hflight : s.flight = some (.finished result)) :
    CacheInv ttl { s with flight := none, results := s.results ++ [result] } :=
  { h with
    fetched := by simp
    finished := by simp
    results := by
      intro now hmem
      obtain hmem | hmem := List.mem_append.mp hmem
      · exact h.results now hmem
      · cases List.mem_singleton.mp hmem
        exact h.finished now hflight }

/-- One step whose decision is undisturbed keeps the invariant. -/
theorem CacheInv.step (h : CacheInv ttl s) {a : CacheAction} (hguard : Undisturbed ttl s a)
    (hstep : s.step ttl a = some t) : CacheInv ttl t := by
  cases a with
  | tick now =>
    simp only [CacheState.step] at hstep
    split_ifs at hstep with hclock
    cases hstep
    exact h.tick (Int.not_lt.mp hclock)
  | read kid =>
    cases hstep
    exact h.read kid
  | join call =>
    simp only [CacheState.step] at hstep
    split at hstep
    next snap hcall =>
      cases hstep
      have hset : CacheInv ttl (s.setCall call (.waiting snap s.results.length)) :=
        h.setCall fun snap' hsnap => h.snapshots _ (List.mem_of_getElem? hcall) snap' hsnap
      exact hset.join
    next => cases hstep
  | fetch doc =>
    simp only [CacheState.step] at hstep
    split at hstep
    next =>
      cases hstep
      exact h.fetch doc
    next => cases hstep
  | install =>
    simp only [CacheState.step] at hstep
    split at hstep
    next keys now hflight =>
      cases hstep
      exact h.install hflight
    next => cases hstep
  | complete =>
    simp only [CacheState.step] at hstep
    split at hstep
    next result hflight =>
      cases hstep
      exact h.complete hflight
    next => cases hstep
  | decide call =>
    simp only [CacheState.step] at hstep
    split at hstep
    next snap flight hcall =>
      obtain ⟨result, hresult, rfl⟩ := Option.map_eq_some_iff.mp hstep
      refine h.decideCall (h.snapshots _ (List.mem_of_getElem? hcall) snap rfl) ?_
        (hguard snap flight result hcall hresult)
      rintro now rfl
      exact h.results now (List.mem_of_getElem? hresult)
    next => cases hstep

end

theorem cacheInv_start (ttl now : ℤ) (doc : List JWK) :
    CacheInv ttl (CacheState.start ttl now doc) where
  last := ⟨[], rfl⟩
  fresh := by
    have hgrace : (0 : ℤ) ≤ staleGracePeriod := by decide
    show now + ttl ≤ now + ttl + staleGracePeriod
    omega
  bounded set hset := by
    cases List.mem_singleton.mp hset
    exact Int.le_refl _
  recent := Int.le_refl _
  fetched := by simp [CacheState.start]
  finished := by simp [CacheState.start]
  results := by simp [CacheState.start]
  snapshots := by simp [CacheState.start]
  current := by simp [CacheState.start]

/-- In every run whose decisions are all undisturbed, every key a call commits to is
the one that is installed, in a set that is still usable. -/
theorem committed_current_of_undisturbed (configured now : ℤ) (doc : List JWK)
    (actions : List CacheAction) (s : CacheState)
    (h : run (CacheState.step (cacheTTL configured))
      (CacheState.start (cacheTTL configured) now doc) actions = some s)
    (hguard : Meets (CacheState.step (cacheTTL configured)) (Undisturbed (cacheTTL configured))
      (CacheState.start (cacheTTL configured) now doc) actions) :
    ∀ c ∈ s.commits, c.installed.key c.kid = some c.key ∧ c.time < c.installed.staleOK :=
  (run_invariant_of_meets (CacheInv (cacheTTL configured))
    (fun _ _ _ hguard hinv hstep => hinv.step hguard hstep) h hguard
    (cacheInv_start _ now doc)).current

/-! ### A revoked key -/

/-- A document with one key under the `kid` `k`. -/
def oneKey : List JWK := [⟨lit "RSA", [], [], lit "k", lit "AQ", lit "Aw"⟩]

/-- The key is rotated when it has expired: a call waits for the refresh and takes the new
key. When that one has expired too, two calls share a refresh that fails, and take the key
they have read within the grace period. -/
def rotation : List CacheAction :=
  [.tick (3601 * 1000000000), .read (lit "k"), .join 0,
    .fetch (some [⟨lit "RSA", [], [], lit "k", lit "Ag", lit "Aw"⟩]), .install, .complete, .decide 0,
    .tick (7300 * 1000000000), .read (lit "k"), .join 1, .read (lit "k"), .join 2, .fetch none,
    .complete, .decide 2, .decide 1]

/-- The decisions of the rotation are undisturbed, and the three keys that the calls take are
the installed one. -/
theorem committed_current_rotation :
    ∃ s, run (CacheState.step (cacheTTL 0)) (CacheState.start (cacheTTL 0) 0 oneKey) rotation = some s ∧
      s.commits.map Commit.key = [⟨2, 3⟩, ⟨2, 3⟩, ⟨2, 3⟩] ∧
      ∀ c ∈ s.commits, c.installed.key c.kid = some c.key ∧ c.time < c.installed.staleOK := by
  have hkeys : ((run (CacheState.step (cacheTTL 0)) (CacheState.start (cacheTTL 0) 0 oneKey)
      rotation).map fun s => s.commits.map Commit.key) = some [⟨2, 3⟩, ⟨2, 3⟩, ⟨2, 3⟩] := by
    decide +kernel
  obtain ⟨s, hs, hcommits⟩ := Option.map_eq_some_iff.mp hkeys
  exact ⟨s, hs, hcommits,
    committed_current_of_undisturbed 0 0 oneKey rotation s hs (by decide +kernel)⟩

/-- Two calls after the keys have expired: the refresh of the first fails, that of
the second installs a set without the key, and then the first one decides. -/
def revocation : List CacheAction :=
  [.tick (3601 * 1000000000), .read (lit "k"), .join 0, .fetch none, .complete,
    .read (lit "k"), .join 1, .fetch (some []), .install, .complete, .decide 0]

/-- The first call commits to a key that the installed set does not hold. -/
theorem revoked_key_committed :
    ∃ s, run (CacheState.step (cacheTTL 0)) (CacheState.start (cacheTTL 0) 0 oneKey) revocation =
        some s ∧
      ∃ c ∈ s.commits, ¬ (c.installed.key c.kid = some c.key ∧ c.time < c.installed.staleOK) := by
  have hrun : ((run (CacheState.step (cacheTTL 0)) (CacheState.start (cacheTTL 0) 0 oneKey)
      revocation).map fun s => s.commits.map fun c => c.installed.key c.kid) = some [none] := by
    decide +kernel
  obtain ⟨s, hs, hcommits⟩ := Option.map_eq_some_iff.mp hrun
  have hmem : none ∈ s.commits.map fun c => c.installed.key c.kid := by
    rw [hcommits]
    exact List.mem_singleton.mpr rfl
  obtain ⟨c, hc, hnone⟩ := List.mem_map.mp hmem
  refine ⟨s, hs, c, hc, ?_⟩
  rw [hnone]
  simp

end ApiTest.Auth
