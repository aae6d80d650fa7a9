import Restyle.Expr
import Restyle.Text.Quoted

/-!
# Restyle.Expr.Outline

Expressions spelled out in full on one line, as messages show those that are out of place.
-/

namespace Restyle

/-- The word for an operator. -/
def BinaryOp.label : BinaryOp → String
  | .or => "Or"
  | .and => "And"
  | .equals => "Equals"
  | .notEquals => "NotEquals"
  | .less => "LessThan"
  | .lessEqual => "LessThanOrEqual"
  | .greater => "GreaterThan"
  | .greaterEqual => "GreaterThanOrEqual"
  | .plus => "Plus"
  | .minus => "Minus"
  | .times => "Multiply"
  | .divide => "Divide"
  | .modulo => "Modulo"
  | .union => "Union"

/-- The word for an axis. -/
def Axis.label : Axis → String
  | .child => "Child"
  | .descendant => "Descendant"
  | .descendantOrSelf => "DescendantOrSelf"
  | .attr => "Attribute"
  | .parent => "Parent"
  | .ancestor => "Ancestor"
  | .ancestorOrSelf => "AncestorOrSelf"
  | .self => "SelfAxis"
  | .followingSibling => "FollowingSibling"
  | .precedingSibling => "PrecedingSibling"
  | .following => "Following"
  | .preceding => "Preceding"

/-- A node test spelled out. -/
def NodeTest.outline : NodeTest → String
  | .name written => "Name(" ++ Text.quoted written ++ ")"
  | .any => "Wildcard"
  | .qualified qualifier => "NamespaceWildcard(" ++ Text.quoted qualifier ++ ")"
  | .text => "NodeType(Text)"
  | .node => "NodeType(Node)"
  | .comment => "NodeType(Comment)"
  | .instruction none => "ProcessingInstruction(None)"
  | .instruction (some target) => "ProcessingInstruction(Some(" ++ Text.quoted target ++ "))"

/-- A kind of thing with its parts in curly brackets. -/
def braced (kind : String) (parts : List (String × String)) : String :=
  kind ++ " \x7b " ++ ", ".intercalate (parts.map fun (name, text) => name ++ ": " ++ text) ++
    " \x7d"

/-- A list in square brackets. -/
def listed (items : List String) : String := "[" ++ ", ".intercalate items ++ "]"

mutual

/-- An expression spelled out. -/
def Expr.outline : Expr → String
  | .literal written => "Literal(" ++ Text.quoted written ++ ")"
  | .number value => "Number(" ++ value.detailed ++ ")"
  | .variable name => "Variable(" ++ Text.quoted name ++ ")"
  | .call name args =>
    braced "FunctionCall" [("name", Text.quoted name), ("args", listed (outlines args))]
  | .filter primary predicates =>
    braced "Filter" [("primary", primary.outline), ("predicates", listed (outlines predicates))]
  | .binary op left right =>
    braced "BinaryOp" [("left", left.outline), ("op", op.label), ("right", right.outline)]
  | .negate operand => braced "UnaryOp" [("op", "Minus"), ("expr", operand.outline)]
  | .path start steps =>
    let (startPoint, absolute) := startOutline start
    "LocationPath(" ++ braced "LocationPath" [("start_point", startPoint),
      ("is_absolute", absolute), ("steps", listed (stepOutlines steps))] ++ ")"

/-- Expressions spelled out. -/
def outlines : List Expr → List String
  | [] => []
  | e :: es => e.outline :: outlines es

/-- The start of a path spelled out: the expression, and whether it is the root. -/
def startOutline : StartOf Expr → String × String
  | .context => ("None", "false")
  | .root => ("None", "true")
  | .value start => ("Some(" ++ start.outline ++ ")", "false")

/-- Steps spelled out. -/
def stepOutlines : List (StepOf Expr) → List String
  | [] => []
  | step :: steps => stepOutline step :: stepOutlines steps

/-- A step spelled out. -/
def stepOutline : StepOf Expr → String
  | ⟨axis, test, predicates⟩ =>
    braced "Step" [("axis", axis.label), ("node_test", test.outline),
      ("predicates", listed (outlines predicates))]

end

end Restyle
