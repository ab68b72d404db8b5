import ApiTest.Oapi.GoType
import ApiTest.Text.Base64
import ApiTest.Text.Utf8
import ApiTest.Traverse.Basic

/-! What `encoding/json` makes of a Go value. The values are those of the type tree;
the fields of embedded structs without a name of their own are written with those of
the struct around them, the least deep one under each name, and a struct that embeds
`time.Time` has its methods and is written as a time. A value without a JSON form, such
as a NaN or a channel, is an error. -/

namespace ApiTest.Oapi

open Text Json

/-! ### Values -/

def IntKind.least : IntKind → ℤ
  | .int | .int64 => -2 ^ 63
  | .int8 => -2 ^ 7
  | .int16 => -2 ^ 15
  | .int32 => -2 ^ 31
  | .uint | .uint8 | .uint16 | .uint32 | .uint64 | .uintptr => 0

def IntKind.greatest : IntKind → ℤ
  | .int | .int64 => 2 ^ 63 - 1
  | .int8 => 2 ^ 7 - 1
  | .int16 => 2 ^ 15 - 1
  | .int32 => 2 ^ 31 - 1
  | .uint | .uint64 | .uintptr => 2 ^ 64 - 1
  | .uint8 => 2 ^ 8 - 1
  | .uint16 => 2 ^ 16 - 1
  | .uint32 => 2 ^ 32 - 1

/-- Seconds since the year 1 and nanoseconds, and the offset of a location other than
UTC. -/
structure GoTime where
  sec : ℤ
  nsec : Fin 1000000000
  zone : Option ℤ
  deriving DecidableEq

/-- `Time.IsZero`. -/
def GoTime.isZero (t : GoTime) : Bool := t.sec = 0 ∧ t.nsec = 0

/-- A float, by the number that its text denotes; negative zero is written as a zero but
is not the zero value. -/
inductive GoFloat where
  | num (q : ℚ)
  | negZero
  | notFinite
  deriving DecidableEq

/-- A value of an interface type, with the JSON form of what it holds. -/
inductive Iface where
  | nil
  | holds (json : Option Value)

mutual

/-- The values of a type. The entries of a map are in the order of their keys, which are
texts; of a value without a JSON form only whether it is zero is kept. -/
def GoType.Val : GoType → Type
  | .bool => Bool
  | .int kind => { n : ℤ // kind.least ≤ n ∧ n ≤ kind.greatest }
  | .float => GoFloat
  | .string => GoString
  | .time => GoTime
  | .any => Iface
  | .other => Bool
  | .self => Empty
  | .ptr t => Option t.Val
  | .slice t => Option (List t.Val)
  | .array n t => Fin n → t.Val
  | .map _ t => Option { m : List (GoString × t.Val) // m.Pairwise fun a b => a.1 < b.1 }
  | .struct fs => fs.Val

def Fields.Val : Fields → Type
  | .nil => Unit
  | .cons _ t rest => t.Val × rest.Val

end

/-! ### Fields -/

/-- Of the standard library: the letters and digits above ASCII, the text of a time (an
error outside of the years 0 to 9999), and the text of a value under the option
`string`. -/
class EncodingText where
  letter : Char → Bool
  time : GoTime → Option GoString
  literal : Value → GoString

/-- `isValidTag`. -/
def isValidTag [EncodingText] (s : GoString) : Bool :=
  s ≠ [] && (runes s).all fun c =>
    "!#$%&()*+-./:;<=>?@[]^_\x7b|\x7d~ ".toList.contains c ||
      if c.toNat < 0x80 then c.isAlphanum else EncodingText.letter c

def tagOption (tag : GoString) (option : GoString) : Bool :=
  option ∈ (cut comma tag).2.splitOn comma

/-- The type behind one pointer. -/
def GoType.target : GoType → GoType
  | .ptr t => t
  | t => t

def GoType.isStruct : GoType → Bool
  | .struct _ | .time => true
  | _ => false

/-- The option `string` applies to fields of these types. -/
def GoType.quotable : GoType → Bool
  | .bool | .int _ | .float | .string => true
  | _ => false

/-- A field as `encoding/json` sees it. -/
structure JSONField where
  name : GoString
  tagged : Bool
  omitEmpty : Bool
  omitZero : Bool
  quoted : Bool

/-- What `encoding/json` does with a struct field: nothing, or it writes it, or it writes
the fields of the struct it embeds. -/
inductive Role where
  | ignored
  | leaf (f : JSONField)
  | explored

/-- The cases of the loop of `typeFields`. -/
def role [EncodingText] (info : FieldInfo) (t : GoType) : Role :=
  if !info.exported && !(info.anonymous && t.target.isStruct) then .ignored
  else if info.tag = lit "-" then .ignored
  else
    let name := (cut comma info.tag).1
    let tagged := isValidTag name
    if tagged || !info.anonymous || !t.target.isStruct then
      .leaf { name := if tagged then name else info.name
              tagged := tagged
              omitEmpty := tagOption info.tag (lit "omitempty")
              omitZero := tagOption info.tag (lit "omitzero")
              quoted := tagOption info.tag (lit "string") && t.target.quotable }
    else .explored

/-- A field found in a struct or in the structs it embeds, this deep. -/
structure Key where
  name : GoString
  tagged : Bool
  depth : ℕ
  deriving DecidableEq

/-- Of two fields with one name the less deep one comes first, then the tagged one. -/
def Key.rank (k : Key) : ℕ := 2 * k.depth + if k.tagged then 0 else 1

section Encode
variable [EncodingText]

mutual

def Fields.keys (depth : ℕ) : Fields → List Key
  | .nil => []
  | .cons info t rest =>
    (match role info t with
      | .ignored => []
      | .leaf f => [⟨f.name, f.tagged, depth⟩]
      | .explored => t.innerKeys (depth + 1)) ++ rest.keys depth

/-- The fields of an embedded struct, which may be behind a pointer; those of
`time.Time` are not exported. -/
def GoType.innerKeys (depth : ℕ) : GoType → List Key
  | .struct fs => fs.keys depth
  | .ptr t => t.innerKeys depth
  | _ => []

end

/-- `dominantField`: no other field of that name comes before or with this one. -/
def Fields.wins (fs : Fields) (k : Key) : Bool :=
  ((fs.keys 0).countP fun k' => k'.name = k.name && k'.rank ≤ k.rank) == 1

end Encode

/-! ### Promoted methods -/

mutual

/-- The fields and the methods of `time.Time` under a name, with their depths. -/
def Fields.selectors (name : GoString) (depth : ℕ) : Fields → List (ℕ × Bool)
  | .nil => []
  | .cons info t rest =>
    (if info.name = name then [(depth, false)] else []) ++
      (if info.anonymous then t.innerSelectors name (depth + 1) else []) ++
      rest.selectors name depth

def GoType.innerSelectors (name : GoString) (depth : ℕ) : GoType → List (ℕ × Bool)
  | .time => [(depth, true)]
  | .struct fs => fs.selectors name depth
  | .ptr t => t.innerSelectors name depth
  | _ => []

end

/-- The depth of the embedded `time.Time` whose method the struct has: it is the only
selector of the name that is not deeper. -/
def Fields.promoted (fs : Fields) (method : GoString) : Option ℕ :=
  ((fs.selectors method 0).find? fun s =>
    s.2 && (fs.selectors method 0).countP (·.1 ≤ s.1) == 1).map Prod.fst

mutual

/-- The time embedded this deep; none behind a nil pointer. -/
def Fields.timeAt : ℕ → (fs : Fields) → fs.Val → Option GoTime
  | _, .nil, _ => none
  | depth, .cons info t rest, (v, vs) =>
    (if info.anonymous then t.innerTime depth v else none) <|> rest.timeAt depth vs

def GoType.innerTime : ℕ → (t : GoType) → t.Val → Option GoTime
  | 1, .time, v => some v
  | depth + 1, .struct fs, v => fs.timeAt depth v
  | depth, .ptr t, some v => t.innerTime depth v
  | _, _, _ => none

end

/-- The struct is a `json.Marshaler` or an `encoding.TextMarshaler`. -/
def Fields.marshaler (fs : Fields) : Option ℕ :=
  fs.promoted (lit "MarshalJSON") <|> fs.promoted (lit "MarshalText")

/-! ### Empty and zero values -/

def GoFloat.isZero (x : GoFloat) : Bool := x = .num 0

/-- The time is a struct of zeros. -/
def GoTime.isInit (t : GoTime) : Bool := t = ⟨0, 0, none⟩

/-- `isEmptyValue`. -/
def isEmptyValue : (t : GoType) → t.Val → Bool
  | .bool, v => !v
  | .int _, v => v.1 = 0
  | .float, v => GoFloat.isZero v
  | .string, v => List.isEmpty v
  | .any, .nil => true
  | .ptr _, none => true
  | .slice _, none => true
  | .slice _, some vs => vs.isEmpty
  | .array n _, _ => n = 0
  | .map _ _, none => true
  | .map _ _, some m => m.1.isEmpty
  | _, _ => false

mutual

/-- `reflect.Value.IsZero`. -/
def GoType.rawZero : (t : GoType) → t.Val → Bool
  | .bool, v => !v
  | .int _, v => v.1 = 0
  | .float, v => GoFloat.isZero v
  | .string, v => List.isEmpty v
  | .time, v => GoTime.isInit v
  | .any, .nil => true
  | .any, .holds _ => false
  | .other, v => v
  | .ptr _, v => v.isNone
  | .slice _, v => v.isNone
  | .array _ t, v => (List.ofFn v).all (GoType.rawZero t)
  | .map _ _, v => v.isNone
  | .struct fs, v => fs.rawZero v

def Fields.rawZero : (fs : Fields) → fs.Val → Bool
  | .nil, _ => true
  | .cons _ t rest, (v, vs) => t.rawZero v && rest.rawZero vs

end

/-- Whether the option `omitzero` drops a value: by its method `IsZero` if it has one,
which is an error behind a nil pointer inside a struct. -/
def isZeroValue : (t : GoType) → t.Val → Option Bool
  | .time, v => some (GoTime.isZero v)
  | .ptr .time, v => some (Option.all GoTime.isZero v)
  | .struct fs, v =>
    match fs.promoted (lit "IsZero") with
    | some depth => (fs.timeAt depth v).map GoTime.isZero
    | none => some (fs.rawZero v)
  | .ptr (.struct _), none => some true
  | .ptr (.struct fs), some v =>
    match fs.promoted (lit "IsZero") with
    | some depth => (fs.timeAt depth v).map GoTime.isZero
    | none => some false
  | t, v => some (t.rawZero v)

/-- Whether a field is left out. -/
def JSONField.dropped (f : JSONField) (t : GoType) (v : t.Val) : Option Bool :=
  if f.omitEmpty && isEmptyValue t v then some true
  else if f.omitZero then isZeroValue t v
  else some false

/-! ### Encoding -/

def GoType.isByte : GoType → Bool
  | .int .uint8 => true
  | _ => false

def byteOf : (t : GoType) → t.Val → UInt8
  | .int .uint8, v => v.1.toNat.toUInt8
  | _, _ => 0

section Encode
variable [EncodingText]

/-- A value under the option `string`; a nil pointer stays null. -/
def quoteValue : Value → Value
  | .null => .null
  | j => .str (EncodingText.literal j)

/-- The member of a field, if it is not left out. -/
def JSONField.member (f : JSONField) (dropped : Option Bool) (json : Option Value) :
    Option (List (GoString × Value)) :=
  dropped.bind fun drop =>
    if drop then some [] else json.map fun j => [(f.name, if f.quoted then quoteValue j else j)]

mutual

/-- `json.Marshal`; `none` is an error. -/
def encode : (t : GoType) → t.Val → Option Value
  | .bool, v => some (.bool v)
  | .int _, v => some (.num v.1)
  | .float, .num q => some (.num q)
  | .float, .negZero => some (.num 0)
  | .float, .notFinite => none
  | .string, v => some (.str (mapRunes id v))
  | .time, v => (EncodingText.time v).map .str
  | .any, .nil => some .null
  | .any, .holds json => json
  | .other, _ => none
  | .ptr _, none => some .null
  | .ptr t, some v => encode t v
  | .slice _, none => some .null
  | .slice t, some vs =>
    if t.isByte then some (.str (Base64.encodeStd (vs.map (byteOf t))))
    else (vs.mapM (encode t)).map .arr
  | .array _ t, v => ((List.ofFn v).mapM (encode t)).map .arr
  | .map .other _, _ => none
  | .map _ _, none => some .null
  | .map _ t, some m =>
    (m.1.mapM fun e => (encode t e.2).map fun j => (mapRunes id e.1, j)).map .obj
  | .struct fs, v =>
    match fs.marshaler with
    | some depth => ((fs.timeAt depth v).bind EncodingText.time).map .str
    | none => (fs.members fs.wins 0 v).map .obj

/-- The members of the fields that win their names. -/
def Fields.members (wins : Key → Bool) (depth : ℕ) :
    (fs : Fields) → fs.Val → Option (List (GoString × Value))
  | .nil, _ => some []
  | .cons info t rest, (v, vs) =>
    (match role info t with
      | .ignored => some []
      | .leaf f =>
        if wins ⟨f.name, f.tagged, depth⟩ then f.member (f.dropped t v) (encode t v) else some []
      | .explored => t.innerMembers wins (depth + 1) v).bind fun here =>
    (rest.members wins depth vs).map fun after => here ++ after

/-- The members of an embedded struct; none behind a nil pointer. -/
def GoType.innerMembers (wins : Key → Bool) (depth : ℕ) :
    (t : GoType) → t.Val → Option (List (GoString × Value))
  | .struct fs, v => fs.members wins depth v
  | .ptr _, none => some []
  | .ptr t, some v => t.innerMembers wins depth v
  | _, _ => some []

end

end Encode

end ApiTest.Oapi
