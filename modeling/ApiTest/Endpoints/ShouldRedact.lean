import ApiTest.Endpoints.Reflect

/-! Three copies of one test. The redact keys of the configuration reach the audit
middleware, the `identity` group and the `echo` group, and each looks for them in a
header name with a loop of its own. The middleware passes over an empty key. The groups
keep it, and an empty text is part of every name, so with such a key they hide every
header. They never hide less than the middleware does. -/

namespace ApiTest.Endpoints

open Text Audit Middleware

/-! ### The copies of the endpoints -/

section Groups
variable [UnicodeCase]

/-- The loop of both `New`. -/
def lowered (redactHeaders : List GoString) : List GoString := redactHeaders.map toLower

/-- The loop of both `shouldRedact`. -/
def containsAny (headerLower : GoString) (redactHeaders : List GoString) : Bool :=
  redactHeaders.any fun r => contains headerLower r

namespace Echo

/-- `echo.Group`. -/
structure Group where
  redactHeaders : List GoString

def new (redactHeaders : List GoString) : Group := ⟨lowered redactHeaders⟩

def Group.shouldRedact (g : Group) (headerLower : GoString) : Bool :=
  containsAny headerLower g.redactHeaders

end Echo

namespace Identity

/-- `identity.Group`. -/
structure Group where
  redactHeaders : List GoString

def new (redactHeaders : List GoString) : Group := ⟨lowered redactHeaders⟩

def Group.shouldRedact (g : Group) (headerLower : GoString) : Bool :=
  containsAny headerLower g.redactHeaders

end Identity

/-! ### One answer -/

/-- The groups answer for a header as the middleware does. -/
structure SameAnswer (keys : List GoString) (name : GoString) : Prop where
  echo : (Echo.new keys).shouldRedact (toLower name) = matchesRedactKey name keys
  identity : (Identity.new keys).shouldRedact (toLower name) = matchesRedactKey name keys

/-- A key with some text in it is part of the name, in either case. -/
def Occurs (keys : List GoString) (name : GoString) : Prop :=
  ∃ k ∈ keys, k ≠ [] ∧ toLower k <:+: toLower name

instance (keys : List GoString) : DecidablePred (Occurs keys) := fun name =>
  inferInstanceAs (Decidable (∃ k ∈ keys, k ≠ [] ∧ toLower k <:+: toLower name))

variable {keys : List GoString} {name : GoString}

theorem matchesRedactKey_iff : matchesRedactKey name keys = true ↔ Occurs keys name := by
  simp [matchesRedactKey, Occurs, contains]

/-- A group made with the keys hides what the middleware hides, and everything if one of
them is empty. -/
theorem shouldRedact_iff :
    shouldRedact keys (toLower name) = true ↔ Occurs keys name ∨ [] ∈ keys := by
  rw [← matchesRedactKey_iff]
  constructor
  · intro h
    obtain ⟨r, hr, hcontains⟩ := List.any_eq_true.mp h
    obtain ⟨k, hk, rfl⟩ := List.mem_map.mp hr
    by_cases hempty : k = []
    · exact Or.inr (hempty ▸ hk)
    · refine Or.inl (List.any_eq_true.mpr ⟨k, hk, ?_⟩)
      rw [Bool.and_eq_true]
      exact ⟨by simpa using hempty, hcontains⟩
  · rintro (hmatch | hempty)
    · exact shouldRedact_of_matches hmatch
    · -- the empty key is lowered to itself and begins every name
      refine List.any_eq_true.mpr ⟨toLower [], List.mem_map_of_mem hempty, ?_⟩
      exact decide_eq_true List.nil_infix

theorem sameAnswer_iff : SameAnswer keys name ↔ [] ∉ keys ∨ Occurs keys name := by
  have hone : shouldRedact keys (toLower name) = matchesRedactKey name keys ↔
      [] ∉ keys ∨ Occurs keys name := by
    rw [Bool.eq_iff_iff, shouldRedact_iff, matchesRedactKey_iff]
    tauto
  exact ⟨fun h => hone.mp h.echo, fun h => ⟨hone.mpr h, hone.mpr h⟩⟩

/-- Nothing with some text in it is part of the empty name. -/
theorem not_occurs_nil (keys : List GoString) : ¬ Occurs keys [] := by
  rintro ⟨k, -, hk, hpart⟩
  exact toLower_ne_nil hk (List.infix_nil.mp hpart)

/-! ### What is hidden -/

/-- The headers of a request come out alike: there is no empty key, or each header is
hidden by another key or holds nothing but the mark itself. -/
def HiddenAlike (keys : List GoString) (header : Values) : Prop :=
  [] ∉ keys ∨ ∀ e ∈ header, Occurs keys e.1 ∨ e.2 = [redacted]

/-- One header, as a group and as the middleware write it. -/
theorem redactedEntry_iff (values : List GoString) :
    (if shouldRedact keys (toLower name) then [redacted] else values) =
      (if matchesRedactKey name keys then [redacted] else values) ↔
    [] ∉ keys ∨ Occurs keys name ∨ values = [redacted] := by
  by_cases hoccurs : Occurs keys name
  · have hshould := shouldRedact_iff.mpr (Or.inl hoccurs)
    rw [if_pos hshould, if_pos (matchesRedactKey_iff.mpr hoccurs)]
    exact iff_of_true rfl (Or.inr (Or.inl hoccurs))
  · rw [if_neg (mt matchesRedactKey_iff.mp hoccurs), or_iff_right hoccurs]
    by_cases hempty : [] ∈ keys
    · rw [if_pos (shouldRedact_iff.mpr (Or.inr hempty)), or_iff_right (not_not.mpr hempty)]
      exact eq_comm
    · rw [if_neg (mt shouldRedact_iff.mp (not_or.mpr ⟨hoccurs, hempty⟩))]
      exact iff_of_true rfl (Or.inl hempty)

theorem redactedHeaders_eq_sanitize_iff (header : Values) :
    redactedHeaders keys header = sanitize header keys ↔ HiddenAlike keys header := by
  have hsanitize : sanitize header keys = header.map fun e =>
      (e.1, if matchesRedactKey e.1 keys then [redacted] else e.2) := by
    apply List.map_congr_left
    intro e _
    dsimp only
    split_ifs <;> rfl
  rw [hsanitize, redactedHeaders, List.map_inj_left]
  simp only [Prod.mk.injEq, true_and, redactedEntry_iff]
  constructor
  · intro h
    by_cases hempty : [] ∈ keys
    · exact Or.inr fun e he => (h e he).resolve_left (not_not.mpr hempty)
    · exact Or.inl hempty
  · rintro (hempty | h) e he
    · exact Or.inl hempty
    · exact Or.inr (h e he)

/-- The headers that an answer shows. -/
def Answer.shownHeaders (a : Answer) : Option Values :=
  match a.body with
  | some (.headers hs _) => some hs
  | some (.echo _ _ _ hs _ _ _) => some hs
  | _ => none

/-- For every list of redact keys: the three tests give one answer for a header name if
and only if no key is empty or some other key is part of the name, and for all names if
and only if no key is empty. The headers that `/v1/headers` and `/v1/echo` show are those
of the audit row under the same condition on the headers of the request. -/
theorem redaction_agrees_iff [ResponseJSON] (keys : List GoString) :
    (∀ name, SameAnswer keys name ↔ [] ∉ keys ∨ Occurs keys name) ∧
    ((∀ name, SameAnswer keys name) ↔ [] ∉ keys) ∧
    ∀ registry opts clock (r : HandlerRequest) acts p,
      opts.captureHeaders = true → opts.redactKeys = keys →
      (audit registry opts clock r.audited acts).payload = some p →
      ((headers keys r).shownHeaders = some p.requestHeaders ↔ HiddenAlike keys r.header) ∧
      (r.method ≠ lit "HEAD" →
        ((echo keys r).shownHeaders = some p.requestHeaders ↔ HiddenAlike keys r.header)) := by
  refine ⟨fun name => sameAnswer_iff, ⟨fun h => ?_, fun h name => sameAnswer_iff.mpr (Or.inl h)⟩, ?_⟩
  · -- the empty name tells the tests apart
    exact (sameAnswer_iff.mp (h [])).resolve_right (not_occurs_nil keys)
  · intro registry opts clock r acts p hcapture hkeys hpayload
    have hrow : p.requestHeaders = sanitize r.header keys := by
      rw [(captured_of_audit hpayload).1, if_pos hcapture, hkeys]
      rfl
    have hshown : some (redactedHeaders keys r.header) = some p.requestHeaders ↔
        HiddenAlike keys r.header := by
      rw [Option.some.injEq, hrow, redactedHeaders_eq_sanitize_iff]
    refine ⟨hshown, fun hmethod => ?_⟩
    rw [echo, if_neg hmethod]
    exact hshown

end Groups

/-- With the default keys the audit row of a request shows what `/v1/headers` answers. -/
theorem token_hidden_alike :
    let r : HandlerRequest :=
      { method := lit "GET", path := lit "/v1/headers",
        header := [(lit "X-Token", [lit "a"]), (lit "Accept", [lit "b"])] }
    ∃ p, (@audit asciiCase none defaultCapture ⟨0, 0, 0⟩ r.audited []).payload = some p ∧
      (@headers asciiCase defaultCapture.redactKeys r).shownHeaders = some p.requestHeaders ∧
      (@echo asciiCase defaultCapture.redactKeys plainJSON r).shownHeaders = some p.requestHeaders := by
  intro r
  obtain ⟨p, hp⟩ : ∃ p, (@audit asciiCase none defaultCapture ⟨0, 0, 0⟩ r.audited []).payload =
      some p := ⟨_, rfl⟩
  have halike : @HiddenAlike asciiCase defaultCapture.redactKeys r.header := Or.inl (by decide)
  obtain ⟨hheaders, hecho⟩ := (@redaction_agrees_iff asciiCase plainJSON defaultCapture.redactKeys).2.2
    none defaultCapture ⟨0, 0, 0⟩ r [] p rfl rfl hp
  exact ⟨p, hp, hheaders.mpr halike, (hecho (by decide)).mpr halike⟩

/-- A document whose only redact key is empty is loaded as it is. The middleware then does
not hide `Accept`, and both groups do. -/
theorem empty_key_hides_all :
    let doc : Configuration.Config := { allowAnonymous := true, audit := { redactKeys := [[]] } }
    (Configuration.load [] doc).toOption.map (·.audit.redactKeys) = some [[]] ∧
    @matchesRedactKey asciiCase (lit "Accept") [[]] = false ∧
    (@Echo.new asciiCase [[]]).shouldRedact (@toLower asciiCase (lit "Accept")) = true ∧
    (@Identity.new asciiCase [[]]).shouldRedact (@toLower asciiCase (lit "Accept")) = true ∧
    ¬ @SameAnswer asciiCase [[]] (lit "Accept") := by
  have haudit : @matchesRedactKey asciiCase (lit "Accept") [[]] = false := by decide
  have hecho : (@Echo.new asciiCase [[]]).shouldRedact (@toLower asciiCase (lit "Accept")) = true := by
    decide
  refine ⟨by decide, haudit, hecho, by decide, fun h => ?_⟩
  have hsame := @SameAnswer.echo asciiCase _ _ h
  rw [haudit, hecho] at hsame
  cases hsame

end ApiTest.Endpoints
