import Mathlib.Data.Rat.Defs
import ApiTest.Text.GoString

/-! The identity of the portal and of the token validator (`pkg/auth/identity.go`)
and the JSON values of its claims. -/

namespace ApiTest.Auth

open Text

/-- What `encoding/json` puts into an `any`. A `float64` is a rational number. -/
inductive Value where
  | null
  | bool (b : Bool)
  | number (n : ℚ)
  | string (s : GoString)
  | array (items : List Value)
  | object (fields : List (GoString × Value))

/-- The type assertion `v.(string)`, with `""` where it fails. -/
def Value.asString : Value → GoString
  | .string s => s
  | _ => []

/-- A `map[string]any`; a nil map has no keys either. -/
abbrev Claims := List (GoString × Value)

/-- `claims[key].(string)`, with `""` where the key is absent. -/
def Claims.str (c : Claims) (key : GoString) : GoString :=
  ((c.lookup key).map Value.asString).getD []

/-- `auth.Identity`. -/
structure Identity where
  subject : GoString := []
  email : GoString := []
  name : GoString := []
  authType : GoString := []
  claims : Claims := []
  apiKeyID : GoString := []

end ApiTest.Auth
