import ApiTest.Inbound.Chain

/-! The chain of `Build` fails closed. One lemma says which authenticator decides
a request: the API key if there is one, then the validator for what looks like a
JWT, then the static list for any other bearer token, and the anonymous setting
only for a request without either. -/

namespace ApiTest.Inbound

open Text

/-! ### The stores of the configuration -/

theorem Config.keyStore_ok {cfg : Config} {key name : GoString}
    (h : cfg.keyStore.lookup key = .ok name) : ∃ s ∈ cfg.stores, s.lookup key = .ok name := by
  unfold Config.keyStore at h
  unfold Config.stores
  cases hdb : cfg.db with
  | none =>
    rw [hdb] at h
    exact ⟨_, List.mem_cons_self, h⟩
  | some db =>
    rw [hdb] at h
    exact combinedFrom_ok h

theorem Config.keyStore_invalid {cfg : Config} {key : GoString} {e : Failure}
    (h : cfg.keyStore.lookup key = .error e) (hinvalid : e.is .invalidCredential) :
    ∀ s ∈ cfg.stores, ∃ e', s.lookup key = .error e' ∧ e'.is .invalidCredential := by
  unfold Config.keyStore at h
  unfold Config.stores
  cases hdb : cfg.db with
  | none =>
    rw [hdb] at h
    intro s hs
    rw [List.mem_singleton.mp hs]
    exact ⟨e, h, hinvalid⟩
  | some db =>
    rw [hdb] at h
    obtain ⟨-, hall⟩ | ⟨hother, -⟩ := combinedFrom_error h
    · exact hall
    · rw [hother] at hinvalid
      cases hinvalid

/-- Only the database store fails other than by an invalid credential, so its
failure is the last one. -/
theorem Config.keyStore_surfaces {cfg : Config} {key : GoString} {s : APIKeyStore} {e : Failure}
    (hs : s ∈ cfg.stores) (he : s.lookup key = .error e) (hother : e.is .invalidCredential = false)
    (hmiss : ∀ s ∈ cfg.stores, ∀ name, s.lookup key ≠ .ok name) :
    cfg.keyStore.lookup key = .error e := by
  obtain rfl | hdb := List.mem_cons.mp hs
  · rw [FileAPIKey.lookup_error he] at hother
    cases hother
  · rw [Option.mem_toList] at hdb
    have hfile : ∀ name, FileAPIKey.lookup cfg.fileKeys key ≠ .ok name :=
      hmiss _ List.mem_cons_self
    unfold Config.keyStore
    rw [Option.mem_def.mp hdb]
    show combinedFrom key none [newFileAPIKeyStore cfg.fileKeys, s] = .error e
    cases hf : FileAPIKey.lookup cfg.fileKeys key with
    | ok name => exact absurd hf (hfile name)
    | error e' =>
      have hlookup : (newFileAPIKeyStore cfg.fileKeys).lookup key = .error e' := hf
      simp [combinedFrom, hlookup, he, hother]

/-! ### Who decides -/

/-- The API key of a request, under the configured names. -/
def Config.keyOf (cfg : Config) (r : Wire) : GoString :=
  keyCandidate (orDefault cfg.headerName (lit "X-API-Key"))
    (orDefault cfg.queryParamName (lit "api_key")) r

/-- The trimmed header, the trimmed query value or the bearer token is not empty. -/
def Config.Presented (cfg : Config) (r : Wire) : Prop :=
  trimSpace (r.headerGet (orDefault cfg.headerName (lit "X-API-Key"))) ≠ [] ∨
    trimSpace (r.query.get (orDefault cfg.queryParamName (lit "api_key"))) ≠ [] ∨ r.bearer ≠ []

theorem Config.presented_iff (cfg : Config) (r : Wire) :
    cfg.Presented r ↔ cfg.keyOf r ≠ [] ∨ r.bearer ≠ [] := by
  rw [Config.keyOf, Ne, keyCandidate_eq_nil, Config.Presented]
  tauto

theorem Config.apiKey_passes (cfg : Config) (r : Wire) :
    (newAPIKey cfg.keyStore cfg.headerName cfg.queryParamName).passes r =
      decide (cfg.keyOf r = []) :=
  newAPIKey_passes _ _ _ r

theorem Config.apiKey_of_key {cfg : Config} {r : Wire} (hkey : cfg.keyOf r ≠ []) :
    newAPIKey cfg.keyStore cfg.headerName cfg.queryParamName r =
      (cfg.keyStore.lookup (cfg.keyOf r)).map fun name => some (keyIdentity name) :=
  if_neg hkey

section
variable [HeaderJSON]

/-- The result of the chain, by the authenticator that decides. -/
inductive Decides (cfg : Config) (r : Wire) : Except Failure (Option Identity) → Prop
  | key (hkey : cfg.keyOf r ≠ []) :
      Decides cfg r ((cfg.keyStore.lookup (cfg.keyOf r)).map fun name => some (keyIdentity name))
  | jwt {v : OIDCValidator} (hkey : cfg.keyOf r = []) (hv : cfg.oidc = some v)
      (hbearer : r.bearer ≠ []) (hjwt : looksLikeJWT r.bearer) :
      Decides cfg r (newOIDCBearer (some v) r)
  | token (hkey : cfg.keyOf r = []) (hbearer : r.bearer ≠ []) :
      Decides cfg r (newBearer cfg.tokens r)
  | nothing (hkey : cfg.keyOf r = []) (hbearer : r.bearer = []) :
      Decides cfg r (authenticateFrom cfg.allowAnonymous r [])

theorem decides_bearer {cfg : Config} {r : Wire} (hkey : cfg.keyOf r = []) :
    Decides cfg r (authenticateFrom cfg.allowAnonymous r [newBearer cfg.tokens]) := by
  rw [authenticateFrom_cons, newBearer_passes]
  by_cases hbearer : r.bearer = []
  · rw [if_pos (decide_eq_true hbearer)]
    exact .nothing hkey hbearer
  · rw [if_neg (by simpa using hbearer)]
    exact .token hkey hbearer

theorem decides_authenticate (cfg : Config) (r : Wire) :
    Decides cfg r ((build cfg).authenticate r) := by
  rw [Chain.authenticate, build_authenticators, build_allowAnonymous, authenticateFrom_cons,
    cfg.apiKey_passes]
  by_cases hkey : cfg.keyOf r = []
  · rw [if_pos (decide_eq_true hkey)]
    cases hv : cfg.oidc with
    | none => exact decides_bearer hkey
    | some v =>
      rw [Option.map_some, Option.toList_some, List.singleton_append, authenticateFrom_cons,
        newOIDCBearer_passes]
      split_ifs with hpass
      · exact decides_bearer hkey
      · simp only [Bool.not_eq_true', Bool.not_eq_false, Bool.and_eq_true, decide_eq_true_eq]
          at hpass
        exact .jwt hkey hv hpass.1 hpass.2
  · rw [if_neg (by simpa using hkey), Config.apiKey_of_key hkey]
    exact .key hkey

/-! ### The verdict -/

omit [HeaderJSON] in
theorem map_eq_ok {α β : Type} {x : Except Failure α} {f : α → β} {b : β} :
    x.map f = .ok b ↔ ∃ a, x = .ok a ∧ f a = b := by
  cases x <;> simp [Except.map]

omit [HeaderJSON] in
theorem map_eq_error {α β : Type} {x : Except Failure α} {f : α → β} {e : Failure} :
    x.map f = .error e ↔ x = .error e := by
  cases x <;> simp [Except.map]

/-- An identity whose credential the authenticator of its own type accepted. -/
inductive Accepted (cfg : Config) (r : Wire) : Identity → Prop
  | apikey {s : APIKeyStore} {name : GoString} (hkey : cfg.keyOf r ≠ []) (hs : s ∈ cfg.stores)
      (hlookup : s.lookup (cfg.keyOf r) = .ok name) : Accepted cfg r (keyIdentity name)
  | oidc {v : OIDCValidator} {aid : Auth.Identity} (hv : cfg.oidc = some v)
      (hjwt : looksLikeJWT r.bearer) (hvalid : v.validateBearer r.bearer = .ok aid) :
      Accepted cfg r (oidcIdentity aid)
  | bearer {t : FileBearerToken} (hbearer : r.bearer ≠ []) (ht : t ∈ cfg.tokens)
      (htoken : t.token = r.bearer) : Accepted cfg r (bearerIdentity t.name)

theorem Accepted.authType_ne {cfg : Config} {r : Wire} {id : Identity} (h : Accepted cfg r id) :
    id.authType ≠ anonymous.authType := by
  cases h <;> simp [keyIdentity, oidcIdentity, bearerIdentity, anonymous] <;> decide

theorem newOIDCBearer_eq {v : OIDCValidator} {r : Wire} (hbearer : r.bearer ≠ [])
    (hjwt : looksLikeJWT r.bearer) :
    newOIDCBearer (some v) r = match v.validateBearer r.bearer with
      | .error e => .error (oidcFailure e)
      | .ok aid => .ok (some (oidcIdentity aid)) := by
  cases hv : v.validateBearer r.bearer <;> simp [newOIDCBearer, hbearer, hjwt, hv]

omit [HeaderJSON] in
theorem newBearer_eq_ok {tokens : List FileBearerToken} {r : Wire} {id : Option Identity}
    (h : newBearer tokens r = .ok id) :
    ∃ t ∈ tokens, t.token = r.bearer ∧ id = some (bearerIdentity t.name) := by
  simp only [newBearer] at h
  split_ifs at h with hbearer hname
  obtain ⟨t, ht, hrow⟩ := List.mem_map.mp (mem_of_matched hname)
  rw [Prod.mk.injEq] at hrow
  cases h
  exact ⟨t, ht, hrow.2, by rw [hrow.1]⟩

/-- What "fails closed" says of one request. -/
structure FailsClosed (cfg : Config) (r : Wire) : Prop where
  /-- A presented credential never gives the anonymous identity … -/
  notAnonymous : cfg.Presented r → (build cfg).authenticate r ≠ .ok (some anonymous)
  /-- … nor "no credential". -/
  notMissing : cfg.Presented r → ∀ e, (build cfg).authenticate r = .error e →
    e.is .noCredential = false
  /-- An identity was accepted by its own authenticator, or is the anonymous one of
  a request without credentials. -/
  accepted : ∀ id, (build cfg).authenticate r = .ok id →
    (∃ id', id = some id' ∧ Accepted cfg r id') ∨
      (id = some anonymous ∧ cfg.allowAnonymous ∧ ¬ cfg.Presented r)
  /-- With a validator, the walk ends before the static list. -/
  notCompared : ∀ v, cfg.oidc = some v → looksLikeJWT r.bearer →
    (build cfg).consulted r <+:
      [newAPIKey cfg.keyStore cfg.headerName cfg.queryParamName, newOIDCBearer (some v)]
  /-- An invalid API key is invalid in every store. -/
  invalidEverywhere : cfg.keyOf r ≠ [] → ∀ e, (build cfg).authenticate r = .error e →
    e.is .invalidCredential →
      ∀ s ∈ cfg.stores, ∃ e', s.lookup (cfg.keyOf r) = .error e' ∧ e'.is .invalidCredential
  /-- Any other failure of a store, without a hit, is the result. -/
  surfaces : cfg.keyOf r ≠ [] → ∀ s ∈ cfg.stores, ∀ e, s.lookup (cfg.keyOf r) = .error e →
    e.is .invalidCredential = false →
      (∀ s ∈ cfg.stores, ∀ name, s.lookup (cfg.keyOf r) ≠ .ok name) →
        (build cfg).authenticate r = .error e

theorem accepted_of_ok {cfg : Config} {r : Wire} {id : Option Identity}
    (h : (build cfg).authenticate r = .ok id) :
    (∃ id', id = some id' ∧ Accepted cfg r id') ∨
      (id = some anonymous ∧ cfg.allowAnonymous ∧ ¬ cfg.Presented r) := by
  have hdecides := decides_authenticate cfg r
  rw [h] at hdecides
  generalize hresult : Except.ok id = result at hdecides
  cases hdecides with
  | key hkey =>
    obtain ⟨name, hlookup, rfl⟩ := map_eq_ok.mp hresult.symm
    obtain ⟨s, hs, hname⟩ := Config.keyStore_ok hlookup
    exact Or.inl ⟨_, rfl, .apikey hkey hs hname⟩
  | @jwt v hkey hv hbearer hjwt =>
    rw [newOIDCBearer_eq hbearer hjwt] at hresult
    cases hvalid : v.validateBearer r.bearer with
    | error e =>
      rw [hvalid] at hresult
      cases hresult
    | ok aid =>
      rw [hvalid] at hresult
      cases hresult
      exact Or.inl ⟨_, rfl, .oidc hv hjwt hvalid⟩
  | token hkey hbearer =>
    obtain ⟨t, ht, htoken, rfl⟩ := newBearer_eq_ok hresult.symm
    exact Or.inl ⟨_, rfl, .bearer hbearer ht htoken⟩
  | nothing hkey hbearer =>
    rw [authenticateFrom] at hresult
    split_ifs at hresult with hallow
    cases hresult
    refine Or.inr ⟨rfl, hallow, ?_⟩
    rw [cfg.presented_iff]
    simp [hkey, hbearer]

theorem not_missing {cfg : Config} {r : Wire} (hpresented : cfg.Presented r) {e : Failure}
    (h : (build cfg).authenticate r = .error e) : e.is .noCredential = false := by
  have hdecides := decides_authenticate cfg r
  rw [h] at hdecides
  generalize hresult : (Except.error e : Except Failure (Option Identity)) = result at hdecides
  cases hdecides with
  | key hkey => exact cfg.keyStore.honest (map_eq_error.mp hresult.symm)
  | @jwt v hkey hv hbearer hjwt =>
    rw [newOIDCBearer_eq hbearer hjwt] at hresult
    cases hvalid : v.validateBearer r.bearer with
    | ok aid =>
      rw [hvalid] at hresult
      cases hresult
    | error e' =>
      rw [hvalid] at hresult
      cases hresult
      exact (oidcFailure_is_noCredential e').trans (v.honest hvalid)
  | token hkey hbearer =>
    simp only [newBearer, if_neg hbearer] at hresult
    split_ifs at hresult
    cases hresult
    rfl
  | nothing hkey hbearer =>
    rw [cfg.presented_iff] at hpresented
    exact absurd hpresented (by simp [hkey, hbearer])

theorem authenticate_of_key {cfg : Config} {r : Wire} (hkey : cfg.keyOf r ≠ []) :
    (build cfg).authenticate r =
      (cfg.keyStore.lookup (cfg.keyOf r)).map fun name => some (keyIdentity name) := by
  have hdecides := decides_authenticate cfg r
  generalize (build cfg).authenticate r = result at hdecides
  cases hdecides with
  | key => rfl
  | jwt hnil => exact absurd hnil hkey
  | token hnil => exact absurd hnil hkey
  | nothing hnil => exact absurd hnil hkey

theorem consulted_of_jwt {cfg : Config} {r : Wire} {v : OIDCValidator} (hv : cfg.oidc = some v)
    (hjwt : looksLikeJWT r.bearer) :
    (build cfg).consulted r <+:
      [newAPIKey cfg.keyStore cfg.headerName cfg.queryParamName, newOIDCBearer (some v)] := by
  have hbearer : r.bearer ≠ [] := by
    intro hnil
    rw [hnil] at hjwt
    cases hjwt
  have hstop : (newOIDCBearer (some v)).passes r = false := by
    rw [newOIDCBearer_passes]
    simp [hbearer, hjwt]
  rw [Chain.consulted, build_authenticators, hv, Option.map_some, Option.toList_some,
    List.singleton_append]
  simp only [consultedFrom, hstop, Bool.false_eq_true, if_false]
  split_ifs
  · exact List.prefix_rfl
  · exact ⟨[newOIDCBearer (some v)], rfl⟩

/-- The chain fails closed, for every configuration and every request. -/
theorem build_failsClosed (cfg : Config) (r : Wire) : FailsClosed cfg r where
  notAnonymous hpresented h := by
    obtain ⟨id, hid, haccepted⟩ | ⟨-, -, hnot⟩ := accepted_of_ok h
    · cases hid
      exact haccepted.authType_ne rfl
    · exact hnot hpresented
  notMissing hpresented _ h := not_missing hpresented h
  accepted _ h := accepted_of_ok h
  notCompared _ hv hjwt := consulted_of_jwt hv hjwt
  invalidEverywhere hkey e h hinvalid := by
    rw [authenticate_of_key hkey, map_eq_error] at h
    exact Config.keyStore_invalid h hinvalid
  surfaces hkey s hs e he hother hmiss := by
    rw [authenticate_of_key hkey, Config.keyStore_surfaces hs he hother hmiss]
    rfl

end
end ApiTest.Inbound
