import ApiTest.Oapi.Encode
import Mathlib.Data.List.OfFn

/-! Generated schemas and encoded values. A schema is made from the type alone, field by
field, and says nothing of null; the encoder writes nil pointers, slices and maps as
null, bytes as text, and the fields of embedded structs in place of them. Whether the
JSON of a value validates is read off the value: `Described`. -/

namespace ApiTest.Oapi

open Text Json Traverse

mutual

/-- The type is not recursive. -/
def GoType.finite : GoType → Bool
  | .self => false
  | .ptr t | .slice t | .array _ t | .map _ t => t.finite
  | .struct fs => fs.finite
  | _ => true

def Fields.finite : Fields → Bool
  | .nil => true
  | .cons _ t rest => t.finite && rest.finite

end

mutual

theorem GoType.ends_of_finite : ∀ t : GoType, t.finite = true → t.ends = true
  | .ptr t, h | .slice t, h | .array _ t, h | .map .string t, h => t.ends_of_finite h
  | .struct fs, h => fs.ends_of_finite h
  | .self, h => nomatch h
  | .bool, _ | .int _, _ | .float, _ | .string, _ | .time, _ | .any, _ | .other, _
  | .map .text _, _ | .map .other _, _ => rfl

theorem Fields.ends_of_finite : ∀ fs : Fields, fs.finite = true → fs.ends = true
  | .nil, _ => rfl
  | .cons info t rest, h => by
    rw [Fields.finite, Bool.and_eq_true] at h
    rw [Fields.ends, t.ends_of_finite h.1, rest.ends_of_finite h.2, Bool.or_true, Bool.and_true]

end

/-- The schema of the type has no `type`. -/
def GoType.untyped : GoType → Bool
  | .any | .other | .int .uintptr => true
  | .ptr t => t.untyped
  | _ => false

/-- The schema of the type holds of a string. -/
def GoType.takesString : GoType → Bool
  | .string | .time => true
  | .ptr t => t.takesString
  | t => t.untyped

theorem takesString_of_untyped : ∀ {t : GoType}, t.untyped = true → t.takesString = true
  | .ptr t, h => takesString_of_untyped (t := t) h
  | .any, _ | .other, _ => rfl
  | .int _, h => h

theorem accepts_null : ∀ {t : GoType} {s : Schema}, schemaFromType t = some s →
    s.accepts .null = t.untyped
  | .ptr t, s, h => accepts_null (t := t) h
  | .slice t, s, h | .array _ t, s, h | .map .string t, s, h => by
    obtain ⟨s', -, rfl⟩ := Option.map_eq_some_iff.mp h
    rfl
  | .struct fs, s, h => by
    obtain ⟨out, -, rfl⟩ := Option.map_eq_some_iff.mp h
    rfl
  | .int kind, s, h => by cases kind <;> cases h <;> rfl
  | .bool, s, h | .float, s, h | .string, s, h | .time, s, h | .any, s, h | .other, s, h
  | .map .text _, s, h | .map .other _, s, h => by
    cases h
    rfl

theorem accepts_str (text : GoString) : ∀ {t : GoType} {s : Schema}, schemaFromType t = some s →
    s.accepts (.str text) = t.takesString
  | .ptr t, s, h => accepts_str text (t := t) h
  | .slice t, s, h | .array _ t, s, h | .map .string t, s, h => by
    obtain ⟨s', -, rfl⟩ := Option.map_eq_some_iff.mp h
    rfl
  | .struct fs, s, h => by
    obtain ⟨out, -, rfl⟩ := Option.map_eq_some_iff.mp h
    rfl
  | .int kind, s, h => by cases kind <;> cases h <;> rfl
  | .bool, s, h | .float, s, h | .string, s, h | .time, s, h | .any, s, h | .other, s, h
  | .map .text _, s, h | .map .other _, s, h => by
    cases h
    rfl

theorem Fields.ends_of_owner {fs : Fields} (h : fs.ends = true) {n : GoString} {t : GoType}
    (ht : fs.owner n = some t) : t.ends = true := by
  induction fs using Fields.induct with
  | nil => cases ht
  | cons info t' rest ih =>
    rw [Fields.ends, Bool.and_eq_true] at h
    rw [Fields.owner] at ht
    cases hrest : rest.owner n with
    | some t'' =>
      rw [hrest] at ht
      exact ih h.2 (hrest ▸ ht)
    | none =>
      rw [hrest] at ht
      by_cases hn : info.described = true ∧ (parseJSONTag info).name = n
      · simp only [hn, and_self, if_true, Option.orElse_eq_orElse, Option.orElse_none,
          Option.some.injEq] at ht
        subst ht
        simpa [hn.1] using h.1
      · simp [hn] at ht

/-! ### What a value has to be -/

section
variable [EncodingText]

mutual

/-- The names of the members that are written. -/
def Fields.written (wins : Key → Bool) (depth : ℕ) : (fs : Fields) → fs.Val → List GoString
  | .nil, _ => []
  | .cons info t rest, (v, vs) =>
    (match role info t with
      | .ignored => []
      | .leaf f =>
        if wins ⟨f.name, f.tagged, depth⟩ ∧ f.dropped t v = some false then [f.name] else []
      | .explored => t.innerWritten wins (depth + 1) v) ++ rest.written wins depth vs

def GoType.innerWritten (wins : Key → Bool) (depth : ℕ) : (t : GoType) → t.Val → List GoString
  | .struct fs, v => fs.written wins depth v
  | .ptr _, none => []
  | .ptr t, some v => t.innerWritten wins depth v
  | _, _ => []

end

mutual

/-- No pointer to a typed value, slice or map that is written is nil, no bytes are, no
struct is a time; each required name of a struct is written, and each member that has a
property is described and keeps its type. -/
def Described : (t : GoType) → t.Val → Prop
  | .ptr t, none => t.untyped = true
  | .ptr t, some v => Described t v
  | .slice _, none => False
  | .slice t, some vs => t.isByte = false ∧ ∀ v ∈ vs, Described t v
  | .array _ t, v => ∀ i, Described t (v i)
  | .map _ _, none => False
  | .map .string t, some m => ∀ e ∈ m.1, Described t e.2
  | .struct fs, v =>
    fs.marshaler = none ∧ (∀ name ∈ fs.required, name ∈ fs.written fs.wins 0 v) ∧
      fs.MembersDescribed fs.wins fs.owner 0 v
  | _, _ => True

def Fields.MembersDescribed (wins : Key → Bool) (owner : GoString → Option GoType) (depth : ℕ) :
    (fs : Fields) → fs.Val → Prop
  | .nil, _ => True
  | .cons info t rest, (v, vs) =>
    (match role info t with
      | .ignored => True
      | .leaf f => wins ⟨f.name, f.tagged, depth⟩ = true → f.dropped t v = some false →
          (owner f.name).isSome = true → Described t v ∧ (f.quoted = true → t.takesString = true)
      | .explored => t.InnerDescribed wins owner (depth + 1) v) ∧
    rest.MembersDescribed wins owner depth vs

def GoType.InnerDescribed (wins : Key → Bool) (owner : GoString → Option GoType) (depth : ℕ) :
    (t : GoType) → t.Val → Prop
  | .struct fs, v => fs.MembersDescribed wins owner depth v
  | .ptr _, none => True
  | .ptr t, some v => t.InnerDescribed wins owner depth v
  | _, _ => True

end

mutual

/-- The property under the name of a member was made from the type of the field that is
written there. -/
def GoType.clear : GoType → Bool
  | .ptr t | .slice t | .array _ t | .map .string t => t.clear
  | .struct fs => fs.membersClear fs.wins fs.owner 0
  | _ => true

def Fields.membersClear (wins : Key → Bool) (owner : GoString → Option GoType) (depth : ℕ) :
    Fields → Bool
  | .nil => true
  | .cons info t rest =>
    (match role info t with
      | .ignored => true
      | .leaf f => !wins ⟨f.name, f.tagged, depth⟩ ||
          match owner f.name with
          | none => true
          | some t' => t' == t && t.clear
      | .explored => t.innerClear wins owner (depth + 1)) && rest.membersClear wins owner depth

def GoType.innerClear (wins : Key → Bool) (owner : GoString → Option GoType) (depth : ℕ) :
    GoType → Bool
  | .struct fs => fs.membersClear wins owner depth
  | .ptr t => t.innerClear wins owner depth
  | _ => true

end

/-! ### Members -/

theorem member_eq_some {f : JSONField} {dropped : Option Bool} {json : Option Value}
    {ms : List (GoString × Value)} (h : f.member dropped json = some ms) :
    dropped = some true ∧ ms = [] ∨
      dropped = some false ∧ ∃ j, json = some j ∧
        ms = [(f.name, if f.quoted then quoteValue j else j)] := by
  obtain ⟨drop, hdrop, h⟩ := Option.bind_eq_some_iff.mp h
  cases drop with
  | true => exact Or.inl ⟨hdrop, (Option.some.inj h).symm⟩
  | false =>
    obtain ⟨j, hj, rfl⟩ := Option.map_eq_some_iff.mp h
    exact Or.inr ⟨hdrop, j, hj, rfl⟩

theorem members_cons_eq_some {wins : Key → Bool} {depth : ℕ} {info : FieldInfo} {t : GoType}
    {rest : Fields} {v : t.Val} {vs : rest.Val} {ms : List (GoString × Value)}
    (h : (Fields.cons info t rest).members wins depth (v, vs) = some ms) :
    ∃ here after, (match role info t with
        | .ignored => some []
        | .leaf f =>
          if wins ⟨f.name, f.tagged, depth⟩ then f.member (f.dropped t v) (encode t v) else some []
        | .explored => t.innerMembers wins (depth + 1) v) = some here ∧
      rest.members wins depth vs = some after ∧ ms = here ++ after := by
  rw [Fields.members] at h
  obtain ⟨here, hhere, h⟩ := Option.bind_eq_some_iff.mp h
  obtain ⟨after, hafter, rfl⟩ := Option.map_eq_some_iff.mp h
  exact ⟨here, after, hhere, hafter, rfl⟩

mutual

theorem Fields.map_fst_members (wins : Key → Bool) : ∀ (depth : ℕ) (fs : Fields) (v : fs.Val)
    (ms : List (GoString × Value)), fs.members wins depth v = some ms →
      ms.map Prod.fst = fs.written wins depth v
  | depth, .nil, v, ms, h => by
    cases h
    rfl
  | depth, .cons info t rest, (v, vs), ms, h => by
    obtain ⟨here, after, hhere, hafter, rfl⟩ := members_cons_eq_some h
    rw [List.map_append, Fields.written, rest.map_fst_members wins depth vs after hafter]
    congr 1
    cases hrole : role info t with
    | ignored =>
      rw [hrole] at hhere
      cases hhere
      rfl
    | leaf f =>
      simp only [hrole] at hhere ⊢
      split_ifs at hhere with hwins
      · obtain ⟨hdrop, rfl⟩ | ⟨hdrop, j, -, rfl⟩ := member_eq_some hhere
        · simp [hdrop]
        · simp [hdrop, hwins]
      · cases hhere
        simp [hwins]
    | explored =>
      simp only [hrole] at hhere ⊢
      exact t.map_fst_innerMembers wins (depth + 1) v here hhere

theorem GoType.map_fst_innerMembers (wins : Key → Bool) : ∀ (depth : ℕ) (t : GoType) (v : t.Val)
    (ms : List (GoString × Value)), t.innerMembers wins depth v = some ms →
      ms.map Prod.fst = t.innerWritten wins depth v
  | depth, .struct fs, v, ms, h => fs.map_fst_members wins depth v ms h
  | depth, .ptr t, some v, ms, h => t.map_fst_innerMembers wins depth v ms h
  | _, .ptr _, none, _, h => by
    cases h
    rfl
  | _, .bool, _, _, h | _, .int _, _, _, h | _, .float, _, _, h | _, .string, _, _, h
  | _, .time, _, _, h | _, .any, _, _, h | _, .other, _, _, h | _, .slice _, _, _, h
  | _, .array _ _, _, _, h | _, .map _ _, _, _, h => by
    cases h
    rfl

end

/-! ### Under the option `string` -/

theorem encode_quotable {t : GoType} (ht : t.quotable = true) {v : t.Val} {j : Value}
    (hj : encode t v = some j) : (∃ text, quoteValue j = .str text) ∧ Described t v := by
  cases t with
  | bool | int | string =>
    cases hj
    exact ⟨⟨_, rfl⟩, trivial⟩
  | float =>
    cases v <;> cases hj
    all_goals exact ⟨⟨_, rfl⟩, trivial⟩
  | _ => cases ht

/-- A quoted member is accepted if the schema takes a string; the null of a nil pointer is
not quoted. -/
theorem accepts_quoteValue {t : GoType} (ht : t.target.quotable = true) {s : Schema}
    (hs : schemaFromType t = some s) {v : t.Val} {j : Value} (hj : encode t v = some j) :
    s.accepts (quoteValue j) = true ↔ Described t v ∧ t.takesString = true := by
  have hscalar {u : GoType} (hu : u.quotable = true) (hs : schemaFromType u = some s) {w : u.Val}
      (hj : encode u w = some j) :
      s.accepts (quoteValue j) = true ↔ Described u w ∧ u.takesString = true := by
    obtain ⟨⟨text, htext⟩, hdescribed⟩ := encode_quotable hu hj
    rw [htext, accepts_str text hs]
    exact (and_iff_right hdescribed).symm
  cases t with
  | ptr t =>
    cases v with
    | some v => exact hscalar ht hs hj
    | none =>
      cases hj
      show s.accepts .null = true ↔ t.untyped = true ∧ t.takesString = true
      rw [accepts_null (t := .ptr t) hs]
      exact ⟨fun h => ⟨h, takesString_of_untyped h⟩, And.left⟩
  | _ => exact hscalar ht hs hj

/-! ### Validation -/

/-- The member is accepted by the property of its name, if there is one. -/
def Fitting (owner : GoString → Option GoType) (m : GoString × Value) : Prop :=
  ∀ t, owner m.1 = some t → ∀ s, schemaFromType t = some s → s.accepts m.2 = true

theorem quoted_of_role {info : FieldInfo} {t : GoType} {f : JSONField} (h : role info t = .leaf f)
    (hq : f.quoted = true) : t.target.quotable = true := by
  unfold role at h
  simp only at h
  split_ifs at h
  all_goals
    cases h
    exact (Bool.and_eq_true_iff.mp hq).2

/-- The schema of a struct accepts an object whose members are fitting and have the
required names. -/
theorem accepts_struct {fs : Fields} {out : ObjectSchema} (hout : structSchema fs {} = some out)
    {wins : Key → Bool} {v : fs.Val} {ms : List (GoString × Value)}
    (hms : fs.members wins 0 v = some ms) :
    ({ type := some .object, properties := out.properties, required := out.required } :
        Schema).accepts (.obj ms) = true ↔
      (∀ m ∈ ms, Fitting fs.owner m) ∧ ∀ name ∈ fs.required, name ∈ fs.written wins 0 v := by
  obtain ⟨hrequired, hproperties⟩ := structSchema_spec hout
  rw [Schema.accepts_object]
  simp only [Value.obj.injEq, exists_eq_left']
  rw [hrequired, fs.map_fst_members wins 0 v ms hms]
  refine and_congr ?_ Iff.rfl
  constructor
  · intro h m hm t ht s hs
    refine h (m.1, s) ((hproperties m.1 s).mpr ?_) m hm rfl
    rw [ht]
    exact hs
  · rintro h ⟨n, s⟩ hp m hm rfl
    have hmem := (hproperties m.1 s).mp hp
    cases howner : fs.owner m.1 with
    | none =>
      rw [howner] at hmem
      cases hmem
    | some t =>
      rw [howner] at hmem
      exact h m hm t howner s hmem

mutual

theorem accepts_encode : ∀ (t : GoType) (v : t.Val) {s : Schema} {j : Value}, t.clear = true →
    schemaFromType t = some s → encode t v = some j → (s.accepts j = true ↔ Described t v)
  | .bool, v, s, j, _, hs, hj => by
    cases hs
    cases hj
    simp [Described, Kind.holds]
  | .int kind, v, s, j, _, hs, hj => by
    cases hj
    cases kind <;> cases hs <;> simp [Described, Kind.holds]
  | .float, .num q, s, j, _, hs, hj | .float, .negZero, s, j, _, hs, hj => by
    cases hs
    cases hj
    simp [Described, Kind.holds]
  | .string, v, s, j, _, hs, hj => by
    cases hs
    cases hj
    simp [Described, Kind.holds]
  | .time, v, s, j, _, hs, hj => by
    obtain ⟨text, -, rfl⟩ := Option.map_eq_some_iff.mp hj
    cases hs
    simp [Described, Kind.holds]
  | .any, v, s, j, _, hs, _ => by
    cases hs
    simp [Described]
  | .ptr t, none, s, j, _, hs, hj => by
    cases hj
    rw [accepts_null (t := .ptr t) hs]
    exact Iff.rfl
  | .ptr t, some v, s, j, hc, hs, hj => accepts_encode t v hc hs hj
  | .slice t, none, s, j, _, hs, hj => by
    cases hj
    rw [accepts_null hs]
    simp [Described, GoType.untyped]
  | .slice t, some vs, s, j, hc, hs, hj => by
    obtain ⟨items, hitems, rfl⟩ := Option.map_eq_some_iff.mp hs
    rw [encode] at hj
    rw [Described]
    cases hbyte : t.isByte with
    | true =>
      -- bytes are written as text
      rw [hbyte, if_pos rfl] at hj
      cases hj
      simp [Schema.accepts_array]
    | false =>
      rw [hbyte, if_neg Bool.false_ne_true] at hj
      obtain ⟨js, hjs, rfl⟩ := Option.map_eq_some_iff.mp hj
      simp only [Schema.accepts_array, Value.arr.injEq, exists_eq_left', true_and]
      exact forall_mapM hjs fun v _ w hw => accepts_encode t v hc hitems hw
  | .array n t, v, s, j, hc, hs, hj => by
    obtain ⟨items, hitems, rfl⟩ := Option.map_eq_some_iff.mp hs
    obtain ⟨js, hjs, rfl⟩ := Option.map_eq_some_iff.mp hj
    simp only [Schema.accepts_array, Value.arr.injEq, exists_eq_left', Described]
    exact (forall_mapM hjs fun v _ w hw => accepts_encode t v hc hitems hw).trans
      List.forall_mem_ofFn_iff
  | .map .string t, none, s, j, _, hs, hj | .map .text t, none, s, j, _, hs, hj => by
    cases hj
    rw [accepts_null hs]
    simp [Described, GoType.untyped]
  | .map .string t, some m, s, j, hc, hs, hj => by
    obtain ⟨values, hvalues, rfl⟩ := Option.map_eq_some_iff.mp hs
    obtain ⟨ms, hms, rfl⟩ := Option.map_eq_some_iff.mp hj
    simp only [Schema.accepts_map, Value.obj.injEq, exists_eq_left', Described]
    refine forall_mapM hms fun e _ member hmember => ?_
    obtain ⟨w, hw, rfl⟩ := Option.map_eq_some_iff.mp hmember
    exact accepts_encode t e.2 hc hvalues hw
  | .map .text t, some m, s, j, _, hs, hj => by
    cases hs
    obtain ⟨ms, -, rfl⟩ := Option.map_eq_some_iff.mp hj
    simp [Described, Kind.holds]
  | .struct fs, v, s, j, hc, hs, hj => by
    obtain ⟨out, hout, rfl⟩ := Option.map_eq_some_iff.mp hs
    rw [encode] at hj
    rw [Described]
    cases hmarshaler : fs.marshaler with
    | some depth =>
      -- the promoted method writes a text
      simp only [hmarshaler] at hj
      obtain ⟨text, -, rfl⟩ := Option.map_eq_some_iff.mp hj
      simp [Schema.accepts_object]
    | none =>
      simp only [hmarshaler] at hj
      obtain ⟨ms, hms, rfl⟩ := Option.map_eq_some_iff.mp hj
      have hends : fs.ends = true := by
        rw [← isSome_structSchema fs {}, hout]
        rfl
      have hmembers := fs.accepts_members v (fun n t => fs.ends_of_owner hends) hc hms
      rw [accepts_struct hout hms, ← hmembers, and_comm]
      simp

theorem Fields.accepts_members : ∀ (fs : Fields) (v : fs.Val) {wins : Key → Bool}
    {owner : GoString → Option GoType} {depth : ℕ} {ms : List (GoString × Value)},
    (∀ n t, owner n = some t → t.ends = true) → fs.membersClear wins owner depth = true →
      fs.members wins depth v = some ms →
      ((∀ m ∈ ms, Fitting owner m) ↔ fs.MembersDescribed wins owner depth v)
  | .nil, v, wins, owner, depth, ms, _, _, h => by
    cases h
    simp [Fields.MembersDescribed]
  | .cons info t rest, (v, vs), wins, owner, depth, ms, howner, hc, h => by
    -- said of `t` itself, before its owner takes its place
    have hencode := @accepts_encode t v
    obtain ⟨here, after, hhere, hafter, rfl⟩ := members_cons_eq_some h
    rw [Fields.membersClear, Bool.and_eq_true] at hc
    obtain ⟨hclear, hrest⟩ := hc
    rw [Fields.MembersDescribed, List.forall_mem_append,
      rest.accepts_members vs howner hrest hafter]
    refine and_congr_left fun _ => ?_
    cases hrole : role info t with
    | ignored =>
      simp only [hrole] at hhere ⊢
      cases hhere
      simp
    | explored =>
      simp only [hrole] at hhere hclear ⊢
      exact t.accepts_innerMembers v howner hclear hhere
    | leaf f =>
      simp only [hrole] at hhere hclear ⊢
      cases hwins : wins ⟨f.name, f.tagged, depth⟩ with
      | false =>
        rw [hwins, if_neg Bool.false_ne_true] at hhere
        cases hhere
        simp
      | true =>
        rw [hwins, if_pos rfl] at hhere
        rw [hwins, Bool.not_true, Bool.false_or] at hclear
        obtain ⟨hdrop, rfl⟩ | ⟨hdrop, j, hj, rfl⟩ := member_eq_some hhere
        · simp [hdrop]
        · simp only [hdrop, forall_const, List.mem_singleton, forall_eq]
          cases hown : owner f.name with
          | none => simp [Fitting, hown]
          | some t' =>
            simp only [hown, Bool.and_eq_true, beq_iff_eq] at hclear
            obtain ⟨rfl, hclear⟩ := hclear
            simp only [Option.isSome_some, forall_const]
            obtain ⟨s, hs⟩ := Option.isSome_iff_exists.mp
              ((isSome_schemaFromType t').trans (howner f.name t' hown))
            have hfitting (w : Value) : Fitting owner (f.name, w) ↔ s.accepts w = true := by
              simp [Fitting, hown, hs]
            rw [hfitting]
            cases hquoted : f.quoted with
            | true => simpa using accepts_quoteValue (quoted_of_role hrole hquoted) hs hj
            | false => simpa using hencode hclear hs hj

theorem GoType.accepts_innerMembers : ∀ (t : GoType) (v : t.Val) {wins : Key → Bool}
    {owner : GoString → Option GoType} {depth : ℕ} {ms : List (GoString × Value)},
    (∀ n t, owner n = some t → t.ends = true) → t.innerClear wins owner depth = true →
      t.innerMembers wins depth v = some ms →
      ((∀ m ∈ ms, Fitting owner m) ↔ t.InnerDescribed wins owner depth v)
  | .struct fs, v, _, _, _, _, howner, hc, h => fs.accepts_members v howner hc h
  | .ptr t, some v, _, _, _, _, howner, hc, h => t.accepts_innerMembers v howner hc h
  | .ptr _, none, _, _, _, _, _, _, h | .bool, _, _, _, _, _, _, _, h | .int _, _, _, _, _, _, _, _, h
  | .float, _, _, _, _, _, _, _, h | .string, _, _, _, _, _, _, _, h | .time, _, _, _, _, _, _, _, h
  | .any, _, _, _, _, _, _, _, h | .other, _, _, _, _, _, _, _, h | .slice _, _, _, _, _, _, _, _, h
  | .array _ _, _, _, _, _, _, _, _, h | .map _ _, _, _, _, _, _, _, _, h => by
    cases h
    simp [GoType.InnerDescribed]

end

/-- A type that is not recursive and whose properties are those of the fields written
under their names has a schema, and this accepts the JSON of the values that are
described, and no other. -/
theorem validates_iff_described (t : GoType) (hfinite : t.finite = true) (hclear : t.clear = true) :
    ∃ s, schemaFromType t = some s ∧
      ∀ v j, encode t v = some j → (s.accepts j = true ↔ Described t v) := by
  obtain ⟨s, hs⟩ := Option.isSome_iff_exists.mp
    ((isSome_schemaFromType t).trans (t.ends_of_finite hfinite))
  exact ⟨s, hs, fun v j hj => accepts_encode t v hclear hs hj⟩

end

/-! ### Some responses -/

/-- Letters and digits within ASCII; no times and no quoted values. -/
@[reducible] def asciiText : EncodingText := ⟨fun _ => false, fun _ => none, fun _ => []⟩

/-- A struct with tagged fields. -/
def taggedStruct (fields : List (String × String × GoType)) : GoType :=
  .struct (.ofList (fields.map fun f => ({ name := lit f.1, tag := lit f.2.1 }, f.2.2)))

/-- `WhoamiResponse`. -/
def whoamiResponse : GoType := taggedStruct
  [("Subject", "subject", .string), ("Email", "email,omitempty", .string),
    ("AuthType", "auth_type", .string), ("KeyName", "key_name,omitempty", .string),
    ("Scopes", "scopes,omitempty", .slice .string),
    ("Claims", "claims,omitempty", .map .string .any)]

def anonymousWhoami : whoamiResponse.Val :=
  (lit "anonymous", [], lit "anonymous", [], none, none, ())

theorem whoami_validates :
    whoamiResponse.finite = true ∧ @GoType.clear asciiText whoamiResponse = true ∧
      (@encode asciiText whoamiResponse anonymousWhoami).isSome = true ∧
      ∃ s, schemaFromType whoamiResponse = some s ∧
        ∀ v j, @encode asciiText whoamiResponse v = some j →
          (s.accepts j = true ↔ @Described asciiText whoamiResponse v) := by
  have hfinite : whoamiResponse.finite = true := by decide +kernel
  have hclear : @GoType.clear asciiText whoamiResponse = true := by
    simp only [whoamiResponse, taggedStruct, List.map_cons, List.map_nil]
    repeat rw [lit_ofList]
    decide +kernel
  exact ⟨hfinite, hclear, by decide +kernel,
    @validates_iff_described asciiText whoamiResponse hfinite hclear⟩

/-- `LinkResponse`. -/
def linkResponse : GoType := taggedStruct
  [("Items", "items", .slice (taggedStruct [("ID", "id", .int .int), ("Value", "value", .string)])),
    ("Page", "page", .int .int), ("PerPage", "per_page", .int .int), ("Total", "total", .int .int)]

def emptyLink : linkResponse.Val := (none, ⟨1, by decide⟩, ⟨10, by decide⟩, ⟨0, by decide⟩, ())

/-- Whether the JSON of a value validates. -/
def validates [EncodingText] (t : GoType) (v : t.Val) : Option Bool :=
  (schemaFromType t).bind fun s => (encode t v).map s.accepts

example : @validates asciiText whoamiResponse anonymousWhoami = some true := by decide +kernel

/-- A nil slice, a nil pointer, bytes, and an embedded struct. -/
theorem nil_slice_rejected :
    @validates asciiText linkResponse emptyLink = some false ∧
    @validates asciiText (.ptr .string) none = some false ∧
    @validates asciiText (.slice (.int .uint8)) (some []) = some false ∧
    @validates asciiText (.struct (.cons { name := lit "Item", anonymous := true }
      (taggedStruct [("ID", "id", .bool)]) .nil)) ((false, ()), ()) = some false := by
  decide +kernel

end ApiTest.Oapi
