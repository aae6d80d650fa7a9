import Restyle.Rules

/-!
# Restyle.Stylesheet

Stylesheets: templates, the variables and parameters of the whole, and the form of the result.
-/

namespace Restyle

/-- A variable or parameter of the whole stylesheet. -/
structure Global where
  name : String
  value : ValueSource Instruction
  /-- Whether a value given from outside counts. -/
  isParam : Bool

/-- How a result is written. -/
inductive OutputMethod where
  | xml
  | html
  | text
deriving DecidableEq, Repr

/-- What a stylesheet says about the form of its result. -/
structure OutputForm where
  method : OutputMethod
  /-- Whether a declaration stands before the result. -/
  declaration : Bool
deriving DecidableEq, Repr

/-- The form of a result where the stylesheet says nothing. -/
def OutputForm.standard : OutputForm := ⟨.xml, false⟩

/-- A stylesheet. -/
structure Stylesheet where
  rules : Rules
  /-- The variables and parameters of the whole stylesheet, in order. -/
  globals : List Global
  output : OutputForm

end Restyle
