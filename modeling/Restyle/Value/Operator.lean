import Restyle.Value

/-!
# Restyle.Value.Operator

The operators on values.

A comparison with a node-set holds if it holds for the string value of some member; with a
boolean, the node-set counts as whether it has members.  Two other values are equal as booleans if
one is a boolean, else as numbers if one is a number, else as texts; their order is that of their
numbers.
-/

namespace Restyle

namespace Value

/-- Whether two values, neither of them a node-set, are equal. -/
def equalAtoms (left right : Value) : Bool :=
  match left, right with
  | .boolean _, _ | _, .boolean _ => left.toBool == right.toBool
  | .number _, _ | _, .number _ => left.toNumber.eq right.toNumber
  | _, _ => left.toText == right.toText

/-- Compare two values, neither of them a node-set.  An operator that compares nothing never
holds. -/
def compareAtoms (op : BinaryOp) (left right : Value) : Bool :=
  match op with
  | .equals => equalAtoms left right
  | .notEquals => !equalAtoms left right
  | .less => left.toNumber.lt right.toNumber
  | .lessEqual => left.toNumber.le right.toNumber
  | .greater => right.toNumber.lt left.toNumber
  | .greaterEqual => right.toNumber.le left.toNumber
  | _ => false

/-- Compare a node-set with a value that is none. -/
def compareNodes (op : BinaryOp) (nodes : List Node) (right : Value) : Bool :=
  match right with
  | .boolean _ => compareAtoms op (.boolean (!nodes.isEmpty)) right
  | _ => nodes.any fun node => compareAtoms op (.string node.stringValue) right

/-- What an operator compares of a node: its text for equality, and its number for order. -/
def compared (op : BinaryOp) (node : Node) : Value :=
  match op with
  | .equals | .notEquals => .string node.stringValue
  | _ => .number (readNumber node.stringValue)

/-- Compare two values. -/
def compare (op : BinaryOp) (left right : Value) : Bool :=
  match left, right with
  | .nodes l, .nodes r =>
    let others := r.map (compared op)
    l.any fun node =>
      let value := compared op node
      others.any fun other => compareAtoms op value other
  | .nodes l, _ => compareNodes op l right
  | _, .nodes r => compareNodes op.flipped r left
  | _, _ => compareAtoms op left right

/-- The nodes of two node-sets in document order. -/
def union (left right : Value) : Except ExprError Value :=
  match left, right with
  | .nodes l, .nodes r => .ok (.nodes (Node.inOrder (l ++ r)))
  | _, _ => .error (.notUnion left right)

end Value

/-- The value of an operator for the values of its operands. -/
def BinaryOp.apply (op : BinaryOp) (left right : Value) : Except ExprError Value :=
  match op with
  | .or => .ok (.boolean (left.toBool || right.toBool))
  | .and => .ok (.boolean (left.toBool && right.toBool))
  | .plus => .ok (.number (left.toNumber.add right.toNumber))
  | .minus => .ok (.number (left.toNumber.sub right.toNumber))
  | .times => .ok (.number (left.toNumber.mul right.toNumber))
  | .divide => .ok (.number (left.toNumber.div right.toNumber))
  | .modulo => .ok (.number (left.toNumber.rem right.toNumber))
  | .union => left.union right
  | .equals | .notEquals | .less | .lessEqual | .greater | .greaterEqual =>
    .ok (.boolean (left.compare op right))

end Restyle
