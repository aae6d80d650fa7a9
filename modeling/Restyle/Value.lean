import Restyle.Expr.Parser

/-!
# Restyle.Value

The values of expressions, their coercions into one another, and what can go wrong in computing
them.

A node-set coerces to the string value of its first node, so its order matters: the evaluator
keeps every node-set in document order.
-/

namespace Restyle

/-- The value of an expression. -/
inductive Value where
  | nodes (nodes : List Node)
  | string (text : String)
  | number (value : Double)
  | boolean (value : Bool)
deriving Inhabited

/-- The number a text is read as: white space, an optional minus sign and a numeral, or NaN. -/
def readNumber (text : String) : Double :=
  let (negative, unsigned) := match Text.trim Text.isXmlSpace text.toList with
    | '-' :: rest => (true, rest)
    | cs => (false, cs)
  match numeralParts? unsigned with
  | some (whole, fraction) => numeralValue negative whole fraction
  | none => .nan

namespace Value

def toBool : Value → Bool
  | .nodes ns => !ns.isEmpty
  | .string text => !text.isEmpty
  | .number value => !value.eq (.zero false) && !value.isNaN
  | .boolean value => value

def toText : Value → String
  | .nodes [] => ""
  | .nodes (node :: _) => node.stringValue
  | .string text => text
  | .number value => value.text
  | .boolean value => if value then "true" else "false"

def toNumber : Value → Double
  | .nodes [] => .nan
  | .nodes (node :: _) => readNumber node.stringValue
  | .string text => readNumber text
  | .number value => value
  | .boolean value => if value then .ofNat 1 else .zero false

/-- A value as messages show it, with its type. -/
def detailed : Value → String
  | .nodes ns =>
    "NodeSet([" ++ ", ".intercalate (ns.map fun node => Text.quoted node.stringValue) ++ "])"
  | .string text => "String(" ++ Text.quoted text ++ ")"
  | .number value => "Number(" ++ value.detailed ++ ")"
  | .boolean value => if value then "Boolean(true)" else "Boolean(false)"

end Value

/-! ## Failures -/

/-- Where only a node-set will do. -/
inductive NodesRole where
  /-- In front of predicates. -/
  | filter
  /-- In front of the steps of a path. -/
  | pathStart
  /-- As the argument of a function. -/
  | argument (function : String)
deriving DecidableEq, Repr

/-- The words for a role. -/
def NodesRole.text : NodesRole → String
  | .filter => "filter expression must evaluate to a node-set"
  | .pathStart => "path start must evaluate to a node-set"
  | .argument function => function ++ "() argument must be a node-set"

/-- Why an expression has no value. -/
inductive ExprError where
  /-- The text is no expression. -/
  | malformed (source : String) (failure : ParseFailure)
  /-- The function is not among the known ones. -/
  | unknownFunction (name : String)
  /-- The function is known by name only. -/
  | noImplementation (name : String)
  /-- The function takes another number of arguments. -/
  | wrongArity (name expected : String)
  /-- A value other than a node-set where only a node-set will do. -/
  | notNodes (role : NodesRole) (value : Value)
  /-- The operands of a union are not both node-sets. -/
  | notUnion (left right : Value)
  /-- The variable has no value. -/
  | unbound (name : String)

namespace ExprError

/-- The function that a failure is about, as messages name it, and what is wrong with it. -/
def functionFault : ExprError → Option (String × String)
  | .unknownFunction name => some (name, "Unknown XPath function")
  | .noImplementation name => some (name, "No implementation for registered function")
  | .wrongArity name expected => some (name ++ "()", "Expected " ++ expected)
  | _ => none

/-- The words for a failure. -/
def message (failure : ExprError) : String :=
  match failure with
  | .malformed source reason => s!"XPath parse error in '{source}': {reason.message}"
  | .notNodes role value => s!"Type error: {role.text}, got {value.detailed}"
  | .notUnion left right =>
    s!"Type error: Union operands must be node-sets, got {left.detailed} and {right.detailed}"
  | .unbound name => s!"Variable '${name}' is not bound"
  | _ =>
    match failure.functionFault with
    | some (function, fault) => s!"Function '{function}' error: {fault}"
    | none => ""

end ExprError

end Restyle
