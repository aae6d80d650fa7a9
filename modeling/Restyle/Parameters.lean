import Restyle.Failure
import Restyle.Json
import Restyle.Environment

/-!
# Restyle.Parameters

Values given to a transformation from outside.
-/

namespace Restyle

/-- A value that can be given from outside. -/
inductive Scalar where
  | string (text : String)
  | number (value : Double)
  | boolean (value : Bool)
deriving DecidableEq

/-- The value that a scalar stands for. -/
def Scalar.value : Scalar → Value
  | .string text => .string text
  | .number value => .number value
  | .boolean value => .boolean value

/-- Named values from outside. -/
abbrev Parameters := List (String × Scalar)

/-- How messages refer to a kind of JSON value. -/
def Json.kindName : Json → String
  | .null => "null"
  | .boolean _ => "a boolean"
  | .integer _ | .real _ => "a number"
  | .string _ => "a string"
  | .array _ => "an array"
  | .object _ => "an object"

/-- The scalar that a JSON value is. -/
def Scalar.ofJson (name : String) : Json → Except Failure Scalar
  | .string text => .ok (.string text)
  | .boolean value => .ok (.boolean value)
  | .integer value => .ok (.number (.ofInt value))
  | .real value => .ok (.number value)
  | other => .error (.parameter name (.notScalar other.kindName))

namespace Parameters

/-- The parameters in a JSON object, in the order of their names. -/
def ofJson : Json → Except Failure Parameters
  | .object fields => fields.mapM fun (name, value) => do return (name, ← Scalar.ofJson name value)
  | other => .error (.parameter "<parameters>" (.notObject other.kindName))

/-- Give a name a value, in place of any value it had. -/
def insert (params : Parameters) (name : String) (value : Scalar) : Parameters :=
  (name, value) :: params.filter fun old => old.1 != name

/-- The parameters as bindings. -/
def scope (params : Parameters) : Scope := params.map fun (name, value) => (name, value.value)

end Parameters

end Restyle
