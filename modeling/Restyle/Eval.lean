import Restyle.Function

/-!
# Restyle.Eval

The values of expressions.

Each step of a path looks from every node reached so far; what the looks find is put in document
order, each node once.  Within one look, nodes are counted with the nearest first, and a predicate
whose value is a number keeps the node in that place.
-/

namespace Restyle

/-- Whether a node on an axis passes a test.  A name means nodes of the principal kind only. -/
def NodeTest.accepts (test : NodeTest) (axis : Axis) (node : Node) : Bool :=
  match test with
  | .any => node.kind == axis.principal
  | .qualified qualifier =>
    node.kind == axis.principal && node.name.any fun name => name.qualifier == some qualifier
  | .name written =>
    node.kind == axis.principal && node.name.any fun name => name.isWritten written
  | .node => true
  | .text => node.kind == .text
  | .comment => node.kind == .comment
  | .instruction target =>
    node.kind == .instruction && target.all fun t => node.name.any fun name => name.localPart == t

/-- The nodes along an axis that pass a test, nearest first. -/
def Axis.candidates (axis : Axis) (test : NodeTest) (node : Node) : List Node :=
  (axis.nodes node).filter (test.accepts axis)

/-- Whether the value of a predicate keeps the node in a place. -/
def Value.keeps (value : Value) (place : Nat) : Bool :=
  match value with
  | .number n => n.eq (.ofNat place)
  | other => other.toBool

/-- The nodes of a value, for a role in which only a node-set will do. -/
def Value.expectNodes (role : NodesRole) : Value → Except ExprError (List Node)
  | .nodes ns => .ok ns
  | value => .error (.notNodes role value)

/-- Keep the nodes for which a test with the place of the node holds, counting from `place`. -/
def keepFrom (test : Node → Nat → Except ExprError Bool) (place : Nat) :
    List Node → Except ExprError (List Node)
  | [] => .ok []
  | node :: nodes => do
    let keep ← test node place
    let kept ← keepFrom test (place + 1) nodes
    return if keep then node :: kept else kept

mutual

/-- The value of an expression. -/
def Expr.eval (ctx : Context) : Expr → Except ExprError Value
  | .literal text => .ok (.string text)
  | .number value => .ok (.number value)
  | .variable name =>
    match ctx.bound name with
    | some value => .ok value
    | none => .error (.unbound name)
  | .call name args => do
    let values ← evalAll ctx args
    ctx.call name values
  | .filter primary predicates => do
    let nodes ← (← primary.eval ctx).expectNodes .filter
    return .nodes (← narrow ctx predicates nodes)
  | .binary .or left right => do
    if (← left.eval ctx).toBool then return .boolean true
    else return .boolean (← right.eval ctx).toBool
  | .binary .and left right => do
    if (← left.eval ctx).toBool then return .boolean (← right.eval ctx).toBool
    else return .boolean false
  | .binary op left right => do
    let l ← left.eval ctx
    let r ← right.eval ctx
    op.apply l r
  | .negate operand => do return .number (← operand.eval ctx).toNumber.neg
  | .path start steps => do
    let nodes ← startNodes ctx start
    return .nodes (← followSteps ctx steps nodes)

/-- The values of expressions, from the left. -/
def evalAll (ctx : Context) : List Expr → Except ExprError (List Value)
  | [] => .ok []
  | e :: es => do
    let value ← e.eval ctx
    let values ← evalAll ctx es
    return value :: values

/-- The nodes a path starts at. -/
def startNodes (ctx : Context) : StartOf Expr → Except ExprError (List Node)
  | .context => .ok [ctx.node]
  | .root => .ok [ctx.document.root]
  | .value start => do (← start.eval ctx).expectNodes .pathStart

/-- The nodes reached by steps. -/
def followSteps (ctx : Context) : List (StepOf Expr) → List Node → Except ExprError (List Node)
  | [], nodes => .ok nodes
  | step :: steps, nodes => do
    let reached ← followStep ctx step nodes
    followSteps ctx steps reached

/-- The nodes reached by one step, in document order. -/
def followStep (ctx : Context) : StepOf Expr → List Node → Except ExprError (List Node)
  | ⟨axis, test, predicates⟩, nodes => do
    let found ← nodes.mapM fun node => narrow ctx predicates (axis.candidates test node)
    return Node.inOrder found.flatten

/-- The nodes that pass predicates, each counting the nodes that passed the one before. -/
def narrow (ctx : Context) : List Expr → List Node → Except ExprError (List Node)
  | [], nodes => .ok nodes
  | predicate :: predicates, nodes => do
    let size := nodes.length
    let kept ← keepFrom (fun node place => do
      let value ← predicate.eval (ctx.focus node place size)
      return value.keeps place) 1 nodes
    narrow ctx predicates kept

end

end Restyle
