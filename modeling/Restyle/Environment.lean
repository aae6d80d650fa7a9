import Restyle.Value

/-!
# Restyle.Environment

What names stand for.

An `Environment` has global bindings and a stack of frames, one for each template that is being
carried out; a frame is a stack of scopes.  A name is looked up in the innermost frame, from its
innermost scope outwards, and then among the global bindings: what is bound in other frames is out
of sight.
-/

namespace Restyle

/-- Names with their values, the latest binding first. -/
abbrev Scope := List (String × Value)

/-- What names stand for. -/
structure Environment where
  globals : Scope
  /-- The frames, innermost first, each with its scopes, innermost first. -/
  frames : List (List Scope)

namespace Environment

/-- Nothing is bound. -/
def empty : Environment := ⟨[], []⟩

/-- Open a frame with one scope. -/
def openFrame (env : Environment) : Environment := { env with frames := [[]] :: env.frames }

/-- Close the innermost frame. -/
def closeFrame (env : Environment) : Environment := { env with frames := env.frames.tail }

/-- Open a scope in the innermost frame; where there is no frame, open one. -/
def openScope (env : Environment) : Environment :=
  match env.frames with
  | [] => env.openFrame
  | frame :: outer => { env with frames := ([] :: frame) :: outer }

/-- Close the innermost scope of the innermost frame. -/
def closeScope (env : Environment) : Environment :=
  match env.frames with
  | [] => env
  | frame :: outer => { env with frames := frame.tail :: outer }

/-- Bind a name globally. -/
def bindGlobal (name : String) (value : Value) (env : Environment) : Environment :=
  { env with globals := (name, value) :: env.globals }

/-- Bind a name in the innermost scope of the innermost frame; where there is none, globally. -/
def bind (name : String) (value : Value) (env : Environment) : Environment :=
  match env.frames with
  | (scope :: scopes) :: outer =>
    { env with frames := (((name, value) :: scope) :: scopes) :: outer }
  | _ => env.bindGlobal name value

/-- The value of a name. -/
def resolve (env : Environment) (name : String) : Option Value :=
  match env.frames with
  | [] => env.globals.lookup name
  | frame :: _ => (frame.findSome? (List.lookup name)).or (env.globals.lookup name)

end Environment

end Restyle
