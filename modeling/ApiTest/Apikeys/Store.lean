import Mathlib.Data.List.DropRight
import Mathlib.Data.Vector.Defs
import ApiTest.Audit.Event
import ApiTest.Inbound.Chain
import ApiTest.Relational.Unique

/-! The API keys of the database (`pkg/apikeys`). A key is minted from random bytes and
shown once; the table keeps its bcrypt hash. A candidate is compared with the hash of
every key that has not expired. Of bcrypt only this is used: the comparison takes a
password for the hash that was made of it. -/

namespace ApiTest.Apikeys

open Text Audit Relational

/-! ### bcrypt -/

/-- The two functions of the bcrypt package, with the salt that a hash draws. -/
class Bcrypt where
  /-- `bcrypt.GenerateFromPassword`; `none` is an error. -/
  generateFromPassword : (salt password : GoString) → Option GoString
  /-- `bcrypt.CompareHashAndPassword` returns nil. -/
  compareHashAndPassword : (hash password : GoString) → Bool
  /-- A password matches its own hash. -/
  compare_generate : ∀ {salt password hash : GoString},
    generateFromPassword salt password = some hash → compareHashAndPassword hash password = true

export Bcrypt (generateFromPassword compareHashAndPassword)

/-! ### The table -/

/-- A row of `api_keys`; instants are stored in microseconds. -/
structure Row where
  id : GoString
  name : GoString
  hash : GoString
  description : Option GoString
  createdBy : Option GoString
  createdAt : ℤ
  expiresAt : Option ℤ
  lastUsedAt : Option ℤ
  deriving DecidableEq, Repr

/-- `id` is the primary key, and `name` is UNIQUE. -/
abbrev KeyTable := UniqueTable [Row.id, Row.name]

/-- `Key`. -/
structure Key where
  id : GoString
  name : GoString
  description : GoString
  createdBy : GoString
  createdAt : Time
  expiresAt : Option Time
  lastUsedAt : Option Time
  deriving DecidableEq, Repr

/-- `rows.Scan`, with the `COALESCE` of the columns that may be NULL. -/
def Row.scan (r : Row) : Key where
  id := r.id
  name := r.name
  description := r.description.getD []
  createdBy := r.createdBy.getD []
  createdAt := r.createdAt * 1000
  expiresAt := r.expiresAt.map (· * 1000)
  lastUsedAt := r.lastUsedAt.map (· * 1000)

/-- `expires_at IS NULL OR expires_at > now()`. -/
def Row.live (now : ℤ) (r : Row) : Bool := r.expiresAt.all (now < ·)

/-- The rows the SELECT of `Authenticate` returns, in some order. -/
def liveRows (t : KeyTable) (now : ℤ) : List Row := t.rows.filter (Row.live now)

/-- What a TEXT column takes: UTF-8 without a zero byte. -/
def storable (s : GoString) : Bool := mapRunes id s = s && !s.contains 0

/-! ### The store -/

/-- `generatePlaintext`, of the bytes it has read. -/
def generatePlaintext (buf : List.Vector UInt8 32) : GoString :=
  lit "at_" ++ (Base64.encodeURL buf.toList).rdropWhile (· = 0x3D)

structure Created where
  key : Key
  plaintext : GoString
  deriving DecidableEq, Repr

/-- What one call of `Create` draws: random bytes, if `rand.Read` succeeds, the salt of
the hash, an id and the time. -/
structure Mint where
  buf : Option (List.Vector UInt8 32)
  salt : GoString
  id : GoString
  now : Time

inductive CreateError where
  | nameRequired
  | rand
  | hash
  | insert
  deriving DecidableEq, Repr

/-- The text of the error, around that of its cause. -/
def CreateError.message (cause : GoString) : CreateError → GoString
  | .nameRequired => lit "name is required"
  | .rand => cause
  | .hash => lit "hash: " ++ cause
  | .insert => lit "insert api key: " ++ cause

/-- The arguments of `Create`. -/
structure NewKey where
  name : GoString
  description : GoString
  createdBy : GoString
  expiresAt : Option Time
  deriving DecidableEq, Repr

/-- The row that `Create` inserts. -/
def NewKey.row (k : NewKey) (m : Mint) (hash : GoString) : Row where
  id := m.id
  name := k.name
  hash := hash
  description := some k.description
  createdBy := some k.createdBy
  createdAt := m.now / 1000
  expiresAt := k.expiresAt.map (· / 1000)
  lastUsedAt := none

/-- `INSERT INTO api_keys`. Ids and hashes are ASCII. -/
def insertKey (t : KeyTable) (r : Row) : Option KeyTable :=
  if storable r.name && r.description.all storable && r.createdBy.all storable then t.insert r
  else none

/-- `Store.Create`. -/
def create [Bcrypt] (t : KeyTable) (m : Mint) (k : NewKey) :
    Except CreateError (KeyTable × Created) :=
  if k.name = [] then .error .nameRequired
  else match m.buf.map generatePlaintext with
    | none => .error .rand
    | some plaintext =>
      match generateFromPassword m.salt plaintext with
      | none => .error .hash
      | some hash =>
        match insertKey t (k.row m hash) with
        | none => .error .insert
        | some t' => .ok (t', {
            key := {
              id := m.id
              name := k.name
              description := k.description
              createdBy := k.createdBy
              createdAt := m.now
              expiresAt := k.expiresAt
              lastUsedAt := none }
            plaintext })

/-- `Store.Delete`; `none` is `ErrNotFound`. -/
def delete (t : KeyTable) (name : GoString) : Option KeyTable :=
  let rowsAffected := (t.rows.filter fun r => r.name = name).length
  if rowsAffected = 0 then none else some (t.delete fun r => r.name = name)

/-- What a successful `Create` has done. -/
theorem create_eq_ok [Bcrypt] {t t' : KeyTable} {m : Mint} {k : NewKey} {created : Created}
    (h : create t m k = .ok (t', created)) : k.name ≠ [] ∧ ∃ buf hash, m.buf = some buf ∧
      created.plaintext = generatePlaintext buf ∧
      generateFromPassword m.salt (generatePlaintext buf) = some hash ∧
      insertKey t (k.row m hash) = some t' ∧
      created.key = ⟨m.id, k.name, k.description, k.createdBy, m.now, k.expiresAt, none⟩ := by
  unfold create at h
  split_ifs at h with hname
  refine ⟨hname, ?_⟩
  cases hbuf : m.buf with
  | none =>
    rw [hbuf] at h
    cases h
  | some buf =>
    rw [hbuf, Option.map_some] at h
    dsimp only at h
    split at h
    · cases h
    · next hash hhash =>
      split at h
      · cases h
      · next t'' hinsert =>
        cases h
        exact ⟨buf, hash, rfl, rfl, hhash, hinsert, rfl⟩

theorem rows_of_insertKey {t t' : KeyTable} {r : Row} (h : insertKey t r = some t') :
    t'.rows = t.rows ++ [r] := by
  unfold insertKey at h
  split_ifs at h
  exact (UniqueTable.insert_eq_some.mp h).1

theorem delete_getD (t : KeyTable) (name : GoString) : (delete t name).getD t = t ∨
    (delete t name).getD t = t.delete fun r => r.name = name := by
  unfold delete
  dsimp only
  split_ifs
  · exact .inl rfl
  · exact .inr rfl

/-- `Store.touchLastUsed`, where the statement succeeds. -/
def touchLastUsed (t : KeyTable) (now : ℤ) (id : GoString) : KeyTable :=
  t.update (fun r => r.id = id) (fun r => { r with lastUsedAt := some now }) (by simp)

/-- Why `Authenticate` returns no key; a failure of the database has its own text. -/
inductive AuthError where
  | notFound
  | database (message : GoString)
  deriving DecidableEq, Repr

/-- `Store.Authenticate` over the rows in the order in which they arrive. -/
def authenticate [Bcrypt] (rows : List Row) (plaintext : GoString) : Except AuthError Key :=
  if plaintext = [] then .error .notFound
  else match rows.find? fun r => compareHashAndPassword r.hash plaintext with
    | some r => .ok r.scan
    | none => .error .notFound

/-- `inboundAdapter.LookupAPIKey`, after `Authenticate`. -/
def lookupAPIKey (result : Except AuthError Key) : Except Inbound.Failure GoString :=
  match result with
  | .ok k => .ok k.name
  | .error .notFound => .error Inbound.errInvalidCredential
  | .error (.database message) => .error ⟨message, []⟩

/-- `AsInboundStore`, where the SELECT returns the given rows or fails. -/
def asInboundStore [Bcrypt] (select : Except GoString (List Row)) : Inbound.APIKeyStore where
  lookup plaintext := lookupAPIKey <|
    if plaintext = [] then .error .notFound
    else match select with
      | .ok rows => authenticate rows plaintext
      | .error message => .error (.database message)
  honest := by
    intro key e h
    unfold lookupAPIKey at h
    split at h <;> cases h <;> rfl

/-! ### Minted keys -/

theorem generatePlaintext_eq (buf : List.Vector UInt8 32) :
    generatePlaintext buf = lit "at_" ++ Base64.encode buf.toList := by
  rw [generatePlaintext, Base64.encodeURL]
  congr 1
  generalize (4 - (Base64.encode buf.toList).length % 4) % 4 = pad
  induction pad with
  | zero =>
    rw [List.replicate_zero, List.append_nil, List.rdropWhile_eq_self_iff]
    intro hne hlast
    have hmem := Base64.mem_alphabet_of_mem_encode (List.getLast_mem hne)
    rw [of_decide_eq_true hlast] at hmem
    exact absurd hmem (by decide)
  | succ pad ih =>
    rw [List.replicate_succ', ← List.append_assoc, List.rdropWhile_concat_pos _ _ _ (by simp)]
    exact ih

theorem length_generatePlaintext (buf : List.Vector UInt8 32) :
    (generatePlaintext buf).length = 46 := by
  rw [generatePlaintext_eq, List.length_append, Base64.length_encode, buf.toList_length]
  decide

theorem isVisible_of_mem_generatePlaintext {buf : List.Vector UInt8 32} :
    ∀ b ∈ generatePlaintext buf, isVisible b = true := by
  intro b hb
  rw [generatePlaintext_eq, List.mem_append] at hb
  have hplain : ((lit "at_" ++ Base64.alphabet).all isVisible) = true := by decide +kernel
  refine List.all_eq_true.mp hplain b (List.mem_append.mpr ?_)
  exact hb.imp_right Base64.mem_alphabet_of_mem_encode

end ApiTest.Apikeys
