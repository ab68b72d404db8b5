import ApiTest.Middleware.Endpoint
import ApiTest.Net.Query

/-! Requests the portal makes itself: Try-It and the audit replay build one with
`http.NewRequestWithContext` and hand it to the mux, past the layers around it. A
request built so has no remote address, its body is never `nil`, and it carries
the operator's identity in its context. -/

open ApiTest.Inbound

namespace ApiTest.Portal

open Text Audit Net Middleware Multimap

/-- A request built by the portal. -/
structure OutRequest where
  method : GoString
  url : URL
  header : Values := []
  body : GoString
  identity : Option Inbound.Identity

/-- The request as an endpoint handler finds it; the context still holds the id of
the portal's own request. -/
def OutRequest.received (requestID : GoString) (r : OutRequest) : HandlerRequest where
  method := r.method
  path := r.url.path
  query := parseQuery r.url.rawQuery
  header := r.header
  body := some r.body
  requestID := requestID
  identity := r.identity

/-- `http.NewRequestWithContext`; no method stands for GET. -/
def newRequest [HostSyntax] (method url body : GoString) (identity : Option Inbound.Identity) :
    Option OutRequest :=
  let method := orDefault method (lit "GET")
  if validMethod method then (parse url).map fun u => { method, url := u, body, identity }
  else none

theorem newRequest_eq_some [HostSyntax] {method url body : GoString}
    {identity : Option Inbound.Identity} {r : OutRequest}
    (h : newRequest method url body identity = some r) :
    r.method = orDefault method (lit "GET") ∧ parse url = some r.url ∧ r.header = [] ∧
      r.body = body ∧ r.identity = identity := by
  simp only [newRequest] at h
  split_ifs at h
  obtain ⟨u, hu, rfl⟩ := Option.map_eq_some_iff.mp h
  exact ⟨rfl, hu, rfl, rfl, rfl⟩

/-! ### Headers -/

/-- `Header.Set`. -/
def headerSet (h : Values) (key value : GoString) : Values :=
  let key := canonicalMIMEHeaderKey key
  match h.lookup key with
  | none => h ++ [(key, [value])]
  | some _ => h.map fun e => (e.1, if e.1 = key then [value] else e.2)

theorem lookup_headerSet (h : Values) (key value k : GoString) :
    (headerSet h key value).lookup k =
      if k = canonicalMIMEHeaderKey key then some [value] else h.lookup k := by
  simp only [headerSet]
  generalize canonicalMIMEHeaderKey key = key
  cases hkey : h.lookup key with
  | none =>
    by_cases hk : k = key
    · subst hk
      simp [lookup_append_of_none hkey]
    · cases hother : h.lookup k with
      | none => simp [lookup_append_of_none hother, hk]
      | some vs => simp [List.lookup_append, hother, hk]
  | some vs =>
    rw [lookup_map_snd (fun name vs => if name = key then [value] else vs)]
    by_cases hk : k = key
    · subst hk
      simp [hkey]
    · simp [hk]

theorem headerAdd_eq (h : Values) (key value : GoString) :
    headerAdd h key value = Multimap.add h (canonicalMIMEHeaderKey key) value := by
  simp only [headerAdd, Multimap.add]
  cases h.lookup (canonicalMIMEHeaderKey key) <;> rfl

theorem lookup_headerAdd (h : Values) (key value k : GoString) :
    (headerAdd h key value).lookup k =
      if k = canonicalMIMEHeaderKey key then some ((h.lookup k).getD [] ++ [value])
      else h.lookup k := by
  rw [headerAdd_eq, lookup_add]
  split_ifs with hk
  · rw [hk]
  · rfl

/-- All values of a name, added one by one. -/
def headerAddAll (h : Values) (key : GoString) (values : List GoString) : Values :=
  values.foldl (fun h value => headerAdd h key value) h

/-- Adding values under a name leaves the other names alone. -/
theorem lookup_headerAddAll_of_ne {h : Values} {key k : GoString}
    (hne : k ≠ canonicalMIMEHeaderKey key) (values : List GoString) :
    (headerAddAll h key values).lookup k = h.lookup k := by
  induction values generalizing h with
  | nil => rfl
  | cons value values ih =>
    rw [headerAddAll, List.foldl_cons]
    exact ih.trans ((lookup_headerAdd h key value k).trans (if_neg hne))

/-! ### Names in canonical form -/

/-- `strings.ToLower` of an ASCII string. -/
theorem toLower_ascii [UnicodeCase] {s : GoString} (h : ∀ b ∈ s, b.toNat < 0x80) :
    toLower s = lowerASCII s := by
  have hbyte : ∀ b : UInt8, b.toNat < 0x80 → (Char.ofNat b.toNat).toLower.toNat.toUInt8 =
      if 0x41 ≤ b ∧ b ≤ 0x5A then b + 0x20 else b := forall_byte (by decide +kernel)
  induction s with
  | nil => rfl
  | cons b s ih =>
    obtain ⟨hb, hs⟩ := List.forall_mem_cons.mp h
    rw [toLower_cons hb, ih hs, hbyte b hb]
    rfl

/-- A loop that appends each byte in one of its two cases. -/
theorem lowerASCII_foldl {f : Bool × GoString → UInt8 → Bool × GoString}
    (hf : ∀ st c, lowerASCII (f st c).2 = lowerASCII st.2 ++ lowerASCII [c]) (key : GoString)
    (st : Bool × GoString) : lowerASCII (key.foldl f st).2 = lowerASCII st.2 ++ lowerASCII key := by
  induction key generalizing st with
  | nil => simp [lowerASCII]
  | cons c key ih =>
    rw [List.foldl_cons, ih, hf, List.append_assoc]
    rfl

theorem lowerASCII_canonical (key : GoString) :
    lowerASCII (canonicalMIMEHeaderKey key) = lowerASCII key := by
  have hcase : ∀ c : UInt8, lowerASCII [if 0x61 ≤ c ∧ c ≤ 0x7A then c - 0x20 else c] = lowerASCII [c] ∧
      lowerASCII [if 0x41 ≤ c ∧ c ≤ 0x5A then c + 0x20 else c] = lowerASCII [c] :=
    forall_byte (by decide +kernel)
  simp only [canonicalMIMEHeaderKey]
  split_ifs
  · refine (lowerASCII_foldl ?_ key _).trans rfl
    rintro ⟨upper, done⟩ c
    dsimp only
    rw [lowerASCII, List.map_append]
    congr 1
    cases upper with
    | true => exact (hcase c).1
    | false => exact (hcase c).2
  · rfl

/-- Names with the same canonical form are lowered to the same string. -/
theorem toLower_of_canonical [UnicodeCase] {key name : GoString} (hname : ∀ b ∈ name, b.toNat < 0x80)
    (h : canonicalMIMEHeaderKey key = name) : toLower key = toLower name := by
  by_cases hvalid : validMethod key = true
  · have hascii : ∀ b ∈ key, b.toNat < 0x80 := by
      have hbyte : ∀ c : UInt8, (isLetter c || isDigit c ||
          (lit "!#$%&'*+-.^_`|~").contains c) = true → c.toNat < 0x80 :=
        forall_byte (by decide +kernel)
      rw [validMethod, Bool.and_eq_true, List.all_eq_true] at hvalid
      exact fun b hb => hbyte b (hvalid.2 b hb)
    rw [toLower_ascii hascii, toLower_ascii hname, ← h, lowerASCII_canonical]
  · have hself : canonicalMIMEHeaderKey key = key := if_neg hvalid
    rw [← h, hself]

end ApiTest.Portal
