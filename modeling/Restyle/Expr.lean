import Restyle.Document.Axis
import Restyle.Double.Decimal

/-!
# Restyle.Expr

Expressions that select nodes and compute values.

A location path starts at the context node, at the root or at the nodes of an expression, and goes
on by steps; a step looks along an axis, tests what it finds, and narrows it by predicates.
`Expr.calls` lists the functions an expression calls wherever they stand.
-/

namespace Restyle

/-- The operators with two operands. -/
inductive BinaryOp where
  | or
  | and
  | equals
  | notEquals
  | less
  | lessEqual
  | greater
  | greaterEqual
  | plus
  | minus
  | times
  | divide
  | modulo
  | union
deriving DecidableEq, Repr

/-- The comparison that holds when the operands are swapped. -/
def BinaryOp.flipped : BinaryOp → BinaryOp
  | .less => .greater
  | .lessEqual => .greaterEqual
  | .greater => .less
  | .greaterEqual => .lessEqual
  | op => op

/-- What a step requires of a node. -/
inductive NodeTest where
  /-- A name, as it is written. -/
  | name (text : String)
  /-- Any name. -/
  | any
  /-- Any name with a qualifier. -/
  | qualified (qualifier : String)
  | text
  | node
  | comment
  /-- A processing instruction, perhaps with a given target. -/
  | instruction (target : Option String)
deriving DecidableEq, Repr

/-- One step of a location path, over a type of predicates. -/
structure StepOf (ε : Type) where
  axis : Axis
  test : NodeTest
  predicates : List ε

/-- Where a location path starts, over a type of expressions. -/
inductive StartOf (ε : Type) where
  | context
  | root
  | value (start : ε)

/-- An expression. -/
inductive Expr where
  | literal (text : String)
  | number (value : Double)
  | variable (name : String)
  | call (name : String) (args : List Expr)
  | filter (primary : Expr) (predicates : List Expr)
  | binary (op : BinaryOp) (left right : Expr)
  | negate (operand : Expr)
  | path (start : StartOf Expr) (steps : List (StepOf Expr))

instance : Inhabited Expr := ⟨.literal ""⟩

/-- A step of a location path. -/
abbrev Step := StepOf Expr

namespace Step

/-- The context node, written `.`. -/
def self : Step := ⟨.self, .node, []⟩

/-- The node above, written `..`. -/
def parent : Step := ⟨.parent, .node, []⟩

/-- The step that `//` stands for. -/
def descendantOrSelf : Step := ⟨.descendantOrSelf, .node, []⟩

/-- Whether a step is the one that `//` stands for. -/
def isDescendantOrSelf (step : Step) : Bool :=
  step.axis == .descendantOrSelf && step.test == .node && step.predicates.isEmpty

end Step

/-- The context node as an expression. -/
def Expr.contextNode : Expr := .path .context [Step.self]

/-! ## Functions called -/

mutual

/-- The functions an expression calls, each before those in its arguments. -/
def Expr.calls : Expr → List String
  | .literal _ => []
  | .number _ => []
  | .variable _ => []
  | .call name args => name :: callsAll args
  | .filter primary predicates => primary.calls ++ callsAll predicates
  | .binary _ left right => left.calls ++ right.calls
  | .negate operand => operand.calls
  | .path start steps => callsStart start ++ callsSteps steps

/-- The functions that a list of expressions calls. -/
def callsAll : List Expr → List String
  | [] => []
  | e :: es => e.calls ++ callsAll es

/-- The functions that the start of a path calls. -/
def callsStart : StartOf Expr → List String
  | .context => []
  | .root => []
  | .value start => start.calls

/-- The functions that the predicates of steps call. -/
def callsSteps : List (StepOf Expr) → List String
  | [] => []
  | step :: steps => callsStep step ++ callsSteps steps

/-- The functions that the predicates of a step call. -/
def callsStep : StepOf Expr → List String
  | ⟨_, _, predicates⟩ => callsAll predicates

end

end Restyle
