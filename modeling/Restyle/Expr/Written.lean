import Restyle.Expr.Parser

/-!
# Restyle.Expr.Written

Expressions as text, with as few brackets as can be.

The looseness of an expression is that of the operator at its top: a part that binds more loosely
than its place allows stands in round brackets, and nothing else does.  Binary operators are joined
from the left, so their right operands must bind more tightly than they do.  Steps are written in
full, with axis and test, and so are the steps that `//`, `.` and `..` stand for.

* `Expr.written` — an expression as text;
* `Expr.isWritable` — whether an expression can be written: its names are names, its texts can
  stand between quotes, its numbers have no sign, and it has the steps and predicates without which
  it would be another expression.
-/

namespace Restyle

/-! ## Looseness -/

/-- How loosely an operator binds.  Nothing binds as tightly as a step or a bracket, whose looseness
is up to 2; the sign stands at 4. -/
def BinaryOp.looseness : BinaryOp → Nat
  | .union => 3
  | .times | .divide | .modulo => 5
  | .plus | .minus => 6
  | .less | .lessEqual | .greater | .greaterEqual => 7
  | .equals | .notEquals => 8
  | .and => 9
  | .or => 10

/-- An operator as it is written. -/
def BinaryOp.mark : BinaryOp → List Char
  | .or => "or".toList
  | .and => "and".toList
  | .equals => "=".toList
  | .notEquals => "!=".toList
  | .less => "<".toList
  | .lessEqual => "<=".toList
  | .greater => ">".toList
  | .greaterEqual => ">=".toList
  | .plus => "+".toList
  | .minus => "-".toList
  | .times => "*".toList
  | .divide => "div".toList
  | .modulo => "mod".toList
  | .union => "|".toList

/-- How loosely an expression binds: what may be narrowed by predicates comes first, then what a path
may start with, then paths, and then the operators. -/
def Expr.looseness : Expr → Nat
  | .literal _ | .number _ | .variable _ | .call .. => 0
  | .filter .. => 1
  | .path .. => 2
  | .negate _ => 4
  | .binary op .. => op.looseness

/-- The text of an expression in a place that allows only so much looseness. -/
def Expr.bracket (k : Nat) (e : Expr) (text : List Char) : List Char :=
  if e.looseness ≤ k then text else '(' :: text ++ [')']

/-! ## Parts of steps -/

/-- A text between quotes that it does not hold. -/
def quotedText (text : List Char) : List Char :=
  if text.contains '"' then '\'' :: text ++ ['\''] else '"' :: text ++ ['"']

/-- An axis as it is written. -/
def Axis.word : Axis → List Char
  | .child => "child".toList
  | .descendant => "descendant".toList
  | .descendantOrSelf => "descendant-or-self".toList
  | .attr => "attribute".toList
  | .parent => "parent".toList
  | .ancestor => "ancestor".toList
  | .ancestorOrSelf => "ancestor-or-self".toList
  | .self => "self".toList
  | .followingSibling => "following-sibling".toList
  | .precedingSibling => "preceding-sibling".toList
  | .following => "following".toList
  | .preceding => "preceding".toList

/-- A node test as it is written. -/
def NodeTest.written : NodeTest → List Char
  | .name test => test.toList
  | .any => ['*']
  | .qualified qualifier => qualifier.toList ++ [':', '*']
  | .text => "text()".toList
  | .node => "node()".toList
  | .comment => "comment()".toList
  | .instruction target =>
    "processing-instruction(".toList ++ (target.elim [] fun target => quotedText target.toList) ++
      [')']

theorem NodeTest.written_name (test : String) : (NodeTest.name test).written = test.toList := rfl

theorem NodeTest.written_qualified (qualifier : String) :
    (NodeTest.qualified qualifier).written = qualifier.toList ++ [':', '*'] := rfl

theorem NodeTest.written_instruction (target : Option String) :
    (NodeTest.instruction target).written =
      "processing-instruction(".toList ++ (target.elim [] fun target => quotedText target.toList) ++
        [')'] := rfl

/-- What stands before the first step of a path that starts in this way. -/
def StartOf.lead {ε : Type} : StartOf ε → List Char
  | .context | .root => []
  | .value _ => ['/']

/-! ## Expressions -/

mutual

/-- An expression as text. -/
def Expr.written : Expr → List Char
  | .literal text => quotedText text.toList
  | .number value => value.text.toList
  | .variable name => '$' :: name.toList
  | .call name args => name.toList ++ '(' :: writtenArgs [] args ++ [')']
  | .filter primary predicates => primary.bracket 0 primary.written ++ writtenPredicates predicates
  | .binary op left right =>
    left.bracket op.looseness left.written ++
      ' ' :: op.mark ++ ' ' :: right.bracket (op.looseness - 1) right.written
  | .negate operand => '-' :: operand.bracket 4 operand.written
  | .path start steps => writtenStart start ++ writtenSteps start.lead steps

/-- Arguments as text, the first one after a `lead`, the others after commas. -/
def writtenArgs (lead : List Char) : List Expr → List Char
  | [] => []
  | e :: es => lead ++ e.written ++ writtenArgs [',', ' '] es

/-- Predicates as text. -/
def writtenPredicates : List Expr → List Char
  | [] => []
  | e :: es => '[' :: e.written ++ ']' :: writtenPredicates es

/-- The start of a path as text. -/
def writtenStart : StartOf Expr → List Char
  | .context => []
  | .root => ['/']
  | .value start => start.bracket 1 start.written

/-- Steps as text, the first one after a `lead`, the others after slashes. -/
def writtenSteps (lead : List Char) : List (StepOf Expr) → List Char
  | [] => []
  | step :: steps => lead ++ writtenStep step ++ writtenSteps ['/'] steps

/-- A step as text. -/
def writtenStep : StepOf Expr → List Char
  | ⟨axis, test, predicates⟩ =>
    axis.word ++ ':' :: ':' :: test.written ++ writtenPredicates predicates

end

/-! ## What can be written -/

/-- Whether a text is a name, or two names with a colon between them. -/
def isQName (name : List Char) : Bool :=
  match name.dropWhile (· != ':') with
  | [] => isNCName name
  | _ :: localPart => isNCName (name.takeWhile (· != ':')) && isNCName localPart

/-- Whether there is a quote that a text does not hold. -/
def isQuotable (text : List Char) : Bool := !(text.contains '"' && text.contains '\'')

/-- Whether a number is finite and has no sign. -/
def Double.isPlain : Double → Bool
  | .finite negative _ => !negative
  | _ => false

/-- Whether a node test can be written. -/
def NodeTest.isWritable : NodeTest → Bool
  | .name test => isQName test.toList
  | .qualified qualifier => isNCName qualifier.toList
  | .instruction (some target) => isQuotable target.toList
  | .any | .text | .node | .comment | .instruction none => true

/-- Whether a path that starts in this way may have no steps. -/
def StartOf.standsAlone {ε : Type} : StartOf ε → Bool
  | .root => true
  | .context | .value _ => false

mutual

/-- Whether an expression can be written. -/
def Expr.isWritable : Expr → Bool
  | .literal text => isQuotable text.toList
  | .number value => value.isPlain
  | .variable name => isQName name.toList
  | .call name args =>
    isQName name.toList && !Grammar.kindNames.contains name && allWritable args
  | .filter primary predicates =>
    primary.isWritable && !predicates.isEmpty && allWritable predicates
  | .binary _ left right => left.isWritable && right.isWritable
  | .negate operand => operand.isWritable
  | .path start steps =>
    startWritable start && (start.standsAlone || !steps.isEmpty) && stepsWritable steps

/-- Whether all of some expressions can be written. -/
def allWritable : List Expr → Bool
  | [] => true
  | e :: es => e.isWritable && allWritable es

/-- Whether the start of a path can be written. -/
def startWritable : StartOf Expr → Bool
  | .context | .root => true
  | .value start => start.isWritable

/-- Whether all of some steps can be written. -/
def stepsWritable : List (StepOf Expr) → Bool
  | [] => true
  | step :: steps => stepWritable step && stepsWritable steps

/-- Whether a step can be written. -/
def stepWritable : StepOf Expr → Bool
  | ⟨_, test, predicates⟩ => test.isWritable && allWritable predicates

end

end Restyle
