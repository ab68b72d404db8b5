import ApiTest.Text.GoString
import Mathlib.Data.Rat.Defs

/-! JSON values and the part of JSON Schema that speaks about their shape: the type,
the items of an array, the named and the other members of an object, and the names
that must be there. Each keyword is checked apart from the others and holds of the
values it does not speak about; a format is an annotation. -/

namespace ApiTest.Json

open ApiTest.Text

/-- A JSON value; the members of an object are in the order of the text. -/
inductive Value where
  | null
  | bool (b : Bool)
  | num (q : ℚ)
  | str (s : GoString)
  | arr (items : List Value)
  | obj (members : List (GoString × Value))
  deriving Repr

inductive Kind where
  | boolean | integer | number | string | array | object
  deriving DecidableEq, Repr

structure Schema where
  type : Option Kind := none
  format : GoString := []
  properties : List (GoString × Schema) := []
  required : List GoString := []
  items : Option Schema := none
  additionalProperties : Option Schema := none
  deriving Repr

/-- The keyword `type`; a number without a fraction is an integer. -/
def Kind.holds : Kind → Value → Bool
  | .boolean, .bool _ => true
  | .integer, .num q => q.den == 1
  | .number, .num _ => true
  | .string, .str _ => true
  | .array, .arr _ => true
  | .object, .obj _ => true
  | _, _ => false

mutual

/-- The value validates against the schema. -/
def Schema.accepts : Schema → Value → Bool
  | ⟨type, _, properties, required, items, additional⟩, v =>
    type.all (·.holds v) &&
      match v with
      | .arr vs => acceptsEach items vs
      | .obj ms =>
        acceptsMembers properties ms && required.all (· ∈ ms.map Prod.fst) &&
          acceptsEach additional ((ms.filter fun m => m.1 ∉ properties.map Prod.fst).map Prod.snd)
      | _ => true

def acceptsEach : Option Schema → List Value → Bool
  | none, _ => true
  | some s, vs => vs.all s.accepts

def acceptsMembers : List (GoString × Schema) → List (GoString × Value) → Bool
  | [], _ => true
  | (name, s) :: properties, ms =>
    (ms.all fun m => m.1 ≠ name || s.accepts m.2) && acceptsMembers properties ms

end

namespace Schema

@[simp] theorem accepts_empty (v : Value) : ({} : Schema).accepts v = true := by
  cases v <;> rfl

@[simp] theorem accepts_typed (kind : Kind) (format : GoString) (v : Value) :
    ({ type := some kind, format := format } : Schema).accepts v = kind.holds v := by
  cases v <;> simp [accepts, acceptsEach, acceptsMembers]

theorem accepts_array {s : Schema} {v : Value} :
    ({ type := some .array, items := some s } : Schema).accepts v = true ↔
      ∃ vs, v = .arr vs ∧ ∀ w ∈ vs, s.accepts w = true := by
  cases v <;> simp [accepts, Kind.holds, acceptsEach]

theorem accepts_map {s : Schema} {v : Value} :
    ({ type := some .object, additionalProperties := some s } : Schema).accepts v = true ↔
      ∃ ms, v = .obj ms ∧ ∀ m ∈ ms, s.accepts m.2 = true := by
  cases v <;> simp [accepts, Kind.holds, acceptsEach, acceptsMembers]

theorem acceptsMembers_iff {properties : List (GoString × Schema)}
    {ms : List (GoString × Value)} :
    acceptsMembers properties ms = true ↔
      ∀ p ∈ properties, ∀ m ∈ ms, m.1 = p.1 → p.2.accepts m.2 = true := by
  induction properties with
  | nil => simp [acceptsMembers]
  | cons p properties ih =>
    obtain ⟨name, s⟩ := p
    rw [acceptsMembers, Bool.and_eq_true, ih, List.forall_mem_cons, List.all_eq_true]
    refine and_congr_left fun _ => forall₂_congr fun m _ => ?_
    simp only [Bool.or_eq_true, decide_eq_true_eq]
    exact imp_iff_not_or.symm

theorem accepts_object {properties : List (GoString × Schema)} {required : List GoString}
    {v : Value} :
    ({ type := some .object, properties := properties, required := required } : Schema).accepts v =
        true ↔
      ∃ ms, v = .obj ms ∧ (∀ p ∈ properties, ∀ m ∈ ms, m.1 = p.1 → p.2.accepts m.2 = true) ∧
        ∀ name ∈ required, name ∈ ms.map Prod.fst := by
  cases v with
  | obj ms =>
    simp only [Value.obj.injEq, exists_eq_left', ← acceptsMembers_iff]
    simp [accepts, Kind.holds, acceptsEach]
  | _ => simp [accepts, Kind.holds]

end Schema

end ApiTest.Json
