import ApiTest.Dictionary.Basic
import ApiTest.Json.Schema

/-! The schemas of the OpenAPI generator (`pkg/oapi/schema.go`). A Go type is the
tree that `reflect` shows of it; a recursive type has a reference back to a type
around it, and a walk that takes such a reference comes to it again and never ends. -/

namespace ApiTest.Oapi

open ApiTest.Text ApiTest.Json ApiTest.Dictionary

inductive IntKind where
  | int | int8 | int16 | int32 | int64 | uint | uint8 | uint16 | uint32 | uint64 | uintptr
  deriving DecidableEq, Repr

/-- The key types of a map: strings, integers and what else is written by its text, and
those without a JSON form. -/
inductive KeyKind where
  | string | text | other
  deriving DecidableEq, Repr

/-- A `reflect.StructField` apart from its type; `tag` is what the tag has under `json`. -/
structure FieldInfo where
  name : GoString
  exported : Bool := true
  anonymous : Bool := false
  tag : GoString := []
  deriving DecidableEq, Repr

mutual

/-- A Go type; `other` are channels, functions and what else has no JSON form, and
`self` is a reference back. -/
inductive GoType where
  | bool
  | int (kind : IntKind)
  | float
  | string
  | time
  | any
  | other
  | self
  | ptr (elem : GoType)
  | slice (elem : GoType)
  | array (len : ℕ) (elem : GoType)
  | map (key : KeyKind) (elem : GoType)
  | struct (fields : Fields)
  deriving DecidableEq, Repr

inductive Fields where
  | nil
  | cons (info : FieldInfo) (type : GoType) (rest : Fields)
  deriving DecidableEq, Repr

end

def Fields.toList : Fields → List (FieldInfo × GoType)
  | .nil => []
  | .cons info t rest => (info, t) :: rest.toList

def Fields.ofList : List (FieldInfo × GoType) → Fields
  | [] => .nil
  | (info, t) :: rest => .cons info t (ofList rest)

/-- Fields are a list; what holds of their types is left to the caller. -/
@[elab_as_elim]
theorem Fields.induct {motive : Fields → Prop} (nil : motive .nil)
    (cons : ∀ info t rest, motive rest → motive (.cons info t rest)) : ∀ fs, motive fs
  | .nil => nil
  | .cons info t rest => cons info t rest (rest.induct nil cons)

/-! ### Tags -/

def comma : UInt8 := 0x2C

structure JSONTag where
  name : GoString := []
  omitEmpty : Bool := false
  skip : Bool := false
  deriving DecidableEq, Repr

/-- `parseJSONTag`. -/
def parseJSONTag (f : FieldInfo) : JSONTag :=
  if f.tag = lit "-" then { skip := true }
  else if f.tag = [] then { name := f.name }
  else
    let parts := f.tag.splitOn comma
    let name := parts.headD []
    { name := if name = [] then f.name else name
      omitEmpty := lit "omitempty" ∈ parts.tail }

/-- The loops over the fields of a struct pass over these. -/
def FieldInfo.described (f : FieldInfo) : Bool := f.exported && !(parseJSONTag f).skip

/-- The fields that a loop visits, with their tags. -/
def Fields.described (fs : Fields) : List (JSONTag × GoType) :=
  (fs.toList.filter fun f => f.1.described).map fun f => (parseJSONTag f.1, f.2)

theorem Fields.described_cons (info : FieldInfo) (t : GoType) (rest : Fields) :
    (Fields.cons info t rest).described =
      (if info.described then [(parseJSONTag info, t)] else []) ++ rest.described := by
  unfold Fields.described
  rw [Fields.toList, List.filter_cons]
  split_ifs <;> rfl

/-! ### Schemas -/

/-- `Properties` and `Required` of the schema of a struct under construction. -/
structure ObjectSchema where
  properties : List (GoString × Schema) := []
  required : List GoString := []

/-- One turn of the loop of `structSchema`. -/
def ObjectSchema.add (out : ObjectSchema) (tag : JSONTag) (s : Schema) : ObjectSchema where
  properties := assign out.properties tag.name s
  required := if tag.omitEmpty then out.required else out.required ++ [tag.name]

mutual

/-- `schemaFromType`; `none` if the walk does not end. -/
def schemaFromType : GoType → Option Schema
  | .ptr t => schemaFromType t
  | .time => some { type := some .string, format := lit "date-time" }
  | .bool => some { type := some .boolean }
  | .int .uintptr => some {}
  | .int _ => some { type := some .integer }
  | .float => some { type := some .number }
  | .string => some { type := some .string }
  | .slice t => (schemaFromType t).map fun s => { type := some .array, items := some s }
  | .array _ t => (schemaFromType t).map fun s => { type := some .array, items := some s }
  | .map .string t =>
    (schemaFromType t).map fun s => { type := some .object, additionalProperties := some s }
  | .map _ _ => some { type := some .object }
  | .struct fs => (structSchema fs {}).map fun out =>
    { type := some .object, properties := out.properties, required := out.required }
  | .any => some {}
  | .other => some {}
  | .self => none

/-- The loop of `structSchema`. -/
def structSchema : Fields → ObjectSchema → Option ObjectSchema
  | .nil, out => some out
  | .cons info t rest, out =>
    if info.described then
      (schemaFromType t).bind fun s => structSchema rest (out.add (parseJSONTag info) s)
    else structSchema rest out

end

example : (schemaFromType (.ptr (.struct (.cons { name := lit "N", tag := lit "n,omitempty" }
    (.slice .string) .nil)))).map (·.required) = some [] := by decide

mutual

/-- The walk of `schemaFromType` does not take a reference back. -/
def GoType.ends : GoType → Bool
  | .self => false
  | .ptr t | .slice t | .array _ t | .map .string t => t.ends
  | .struct fs => fs.ends
  | _ => true

def Fields.ends : Fields → Bool
  | .nil => true
  | .cons info t rest => (!info.described || t.ends) && rest.ends

end

mutual

theorem isSome_schemaFromType : ∀ t : GoType, (schemaFromType t).isSome = t.ends
  | .ptr t => isSome_schemaFromType t
  | .slice t | .array _ t | .map .string t => by
    simpa [schemaFromType, GoType.ends] using isSome_schemaFromType t
  | .struct fs => by
    simpa [schemaFromType, GoType.ends] using isSome_structSchema fs {}
  | .bool | .float | .string | .time | .any | .other | .self => rfl
  | .int kind => by cases kind <;> rfl
  | .map .text _ | .map .other _ => rfl

theorem isSome_structSchema : ∀ (fs : Fields) (out : ObjectSchema),
    (structSchema fs out).isSome = fs.ends
  | .nil, _ => rfl
  | .cons info t rest, out => by
    rw [structSchema, Fields.ends, ← isSome_schemaFromType t]
    cases info.described with
    | false => simpa using isSome_structSchema rest out
    | true =>
      cases schemaFromType t with
      | none => rfl
      | some s => simpa using isSome_structSchema rest (out.add (parseJSONTag info) s)

end

/-! ### What the schema of a struct says -/

/-- The type that the property of a name is made from: that of the last field visited
with it. -/
def Fields.owner : Fields → GoString → Option GoType
  | .nil, _ => none
  | .cons info t rest, n =>
    rest.owner n <|> if info.described ∧ (parseJSONTag info).name = n then some t else none

/-- The names of the fields visited without `omitempty`. -/
def Fields.required (fs : Fields) : List GoString :=
  (fs.described.filter fun d => !d.1.omitEmpty).map fun d => d.1.name

theorem Fields.required_cons (info : FieldInfo) (t : GoType) (rest : Fields) :
    (Fields.cons info t rest).required =
      (if info.described ∧ (parseJSONTag info).omitEmpty = false then [(parseJSONTag info).name]
        else []) ++ rest.required := by
  unfold Fields.required
  rw [Fields.described_cons]
  cases info.described <;> cases homit : (parseJSONTag info).omitEmpty <;> simp [homit]

theorem ObjectSchema.mem_add {out : ObjectSchema} {tag : JSONTag} {s' : Schema} {n : GoString}
    {s : Schema} : (n, s) ∈ (out.add tag s').properties ↔
      if tag.name = n then s' = s else (n, s) ∈ out.properties := by
  rw [ObjectSchema.add, mem_assign, Prod.mk.injEq]
  split_ifs with hn
  · simp [hn, eq_comm]
  · simp [Ne.symm hn]

/-- Each required field is listed, and each property is made from the type of its
owner, unless no field of that name is visited. -/
theorem structSchema_spec {fs : Fields} {out out' : ObjectSchema}
    (h : structSchema fs out = some out') :
    out'.required = out.required ++ fs.required ∧
      ∀ n s, (n, s) ∈ out'.properties ↔ match fs.owner n with
        | some t => schemaFromType t = some s
        | none => (n, s) ∈ out.properties := by
  induction fs using Fields.induct generalizing out with
  | nil =>
    cases h
    exact ⟨(List.append_nil _).symm, fun n s => Iff.rfl⟩
  | cons info t rest ih =>
    rw [structSchema] at h
    rw [Fields.required_cons]
    simp only [Fields.owner]
    cases hdesc : info.described with
    | false =>
      rw [hdesc, if_neg Bool.false_ne_true] at h
      simpa [hdesc] using ih h
    | true =>
      rw [hdesc, if_pos rfl, Option.bind_eq_some_iff] at h
      obtain ⟨schema, hschema, hrest⟩ := h
      obtain ⟨hrequired, hproperties⟩ := ih hrest
      constructor
      · rw [hrequired, ObjectSchema.add]
        cases (parseJSONTag info).omitEmpty <;> simp
      · intro n s
        rw [hproperties]
        cases rest.owner n with
        | some t' => rfl
        | none =>
          rw [ObjectSchema.mem_add]
          simp only [Option.orElse_eq_orElse, Option.orElse_none, true_and]
          split_ifs with hn
          · simp [hschema]
          · rfl

end ApiTest.Oapi
