import Restyle.Failure

/-!
# Restyle.Pattern

Patterns tell which nodes a template is for.

A pattern is read as an expression and then held to a narrower grammar: alternatives joined by `|`,
each a location path of child and attribute steps with `/` or `//` between them.  A pattern of one
step without predicates has a default priority by how much its test leaves open; every other
pattern has one half.
-/

namespace Restyle

/-- The axes of a pattern. -/
inductive PatternAxis where
  | child
  | attr
deriving DecidableEq, Repr

/-- The axis of a step that a pattern axis stands for. -/
def PatternAxis.axis : PatternAxis → Axis
  | .child => .child
  | .attr => .attr

/-- How a step of a pattern hangs on what stands before it. -/
inductive Link where
  /-- By `/`: right below. -/
  | child
  /-- By `//`: anywhere below. -/
  | descendant
deriving DecidableEq, Repr

/-- A step of a pattern. -/
structure PatternStep where
  axis : PatternAxis
  test : NodeTest
  predicates : List Expr
  link : Link

/-- One alternative of a pattern. -/
structure PathPattern where
  absolute : Bool
  steps : List PatternStep

/-- A pattern. -/
structure Pattern where
  /-- The text it was read from. -/
  source : String
  paths : List PathPattern

namespace PathPattern

/-- The priority of a test that stands alone. -/
def testPriority : NodeTest → Double
  | .name _ => .zero false
  | .instruction (some _) => .zero false
  | .qualified _ => .nearest true 1 4
  | _ => .nearest true 1 2

/-- The priority of a template for this alternative that states none. -/
def defaultPriority (path : PathPattern) : Double :=
  match path.absolute, path.steps with
  | false, [step] => if step.predicates.isEmpty then testPriority step.test else .nearest false 1 2
  | _, _ => .nearest false 1 2

end PathPattern

namespace Pattern

/-- The alternatives of a union, from the left. -/
def alternatives : Expr → List Expr
  | .binary .union left right => alternatives left ++ alternatives right
  | e => [e]

/-- The steps of a pattern for the steps of a path, where `link` is how the next one hangs on what
stands before it. -/
def linkSteps (link : Link) : List Step → Except SyntaxProblem (List PatternStep)
  | [] => if link = .descendant then .error .slashEnd else .ok []
  | step :: steps =>
    if step.isDescendantOrSelf then
      if link = .descendant then .error .doubleSlash else linkSteps .descendant steps
    else
      match step.axis with
      | .child => do return ⟨.child, step.test, step.predicates, link⟩ :: (← linkSteps .child steps)
      | .attr => do return ⟨.attr, step.test, step.predicates, link⟩ :: (← linkSteps .child steps)
      | axis => .error (.axis axis)

/-- The alternative of a pattern for an expression. -/
def pathOf : Expr → Except SyntaxProblem PathPattern
  | .path .context steps => do return ⟨false, ← linkSteps .child steps⟩
  | .path .root steps => do return ⟨true, ← linkSteps .child steps⟩
  | .path (.value _) _ => .error .filterStart
  | e => .error (.notPath e)

/-- Read a pattern whose predicates may call the given functions. -/
def parse (functions : List String) (text : String) : Except Failure Pattern :=
  let source := Text.trimString Text.isBlank text
  let result : Except SyntaxProblem Pattern := do
    let e ← (Expr.parse source).mapError .unreadable
    match e.calls.find? fun name => !functions.contains name with
    | some name => throw (.unknownFunction name)
    | none => return ⟨source, ← (alternatives e).mapM pathOf⟩
  result.mapError (.expression text)

end Pattern

end Restyle
