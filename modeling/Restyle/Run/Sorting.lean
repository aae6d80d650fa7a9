import Restyle.Run.Focus

/-!
# Restyle.Run.Sorting

Nodes in the order of sort keys.

Every key is evaluated for every node where it stands before sorting.  Texts compare by code point;
numbers by size, with NaN before all of them.  A descending key turns its own comparison around.
Nodes for which all keys are equal stay in the order they were in.
-/

namespace Restyle

/-- The value of a sort key. -/
inductive SortValue where
  | text (content : String)
  | number (value : Double)
deriving DecidableEq

namespace SortValue

/-- The value of a key of a type for the value of its expression. -/
def ofValue (type : SortType) (value : Value) : SortValue :=
  match type with
  | .text => .text value.toText
  | .number => .number value.toNumber

/-- How two numbers compare; NaN comes before every other number. -/
def compareNumbers (x y : Double) : Ordering :=
  if x.isNaN then if y.isNaN then .eq else .lt
  else if y.isNaN then .gt
  else if x.lt y then .lt
  else if y.lt x then .gt
  else .eq

/-- How two values compare. -/
def compare : SortValue → SortValue → Ordering
  | .text a, .text b => Ord.compare a b
  | .number x, .number y => compareNumbers x y
  | .number _, .text _ => .lt
  | .text _, .number _ => .gt

end SortValue

/-- How two values of a key compare in its direction. -/
def SortOrder.compare (order : SortOrder) (a b : SortValue) : Ordering :=
  match order with
  | .ascending => a.compare b
  | .descending => b.compare a

namespace SortKey

/-- How two lists of values of keys compare: the first key that tells them apart decides. -/
def compareAll : List SortKey → List SortValue → List SortValue → Ordering
  | key :: keys, a :: as, b :: bs => (key.order.compare a b).then (compareAll keys as bs)
  | _, _, _ => .eq

end SortKey

namespace Job

/-- The values of sort keys. -/
def sortValues (job : Job) (focus : Focus) : List SortKey → Action (List SortValue)
  | [] => return []
  | key :: keys => do
    let value ← job.eval focus key.select
    return .ofValue key.type value :: (← job.sortValues focus keys)

/-- Nodes with the values of sort keys. -/
def withSortValues (job : Job) (keys : List SortKey) :
    List Focus → Action (List (List SortValue × Node))
  | [] => return []
  | focus :: others => do
    let values ← job.sortValues focus keys
    return (values, focus.node) :: (← job.withSortValues keys others)

/-- Nodes in the order of sort keys.  With no keys or fewer than two nodes, no key is evaluated. -/
def sorted (job : Job) (keys : List SortKey) (nodes : List Node) : Action (List Node) := do
  if keys.isEmpty || nodes.length < 2 then return nodes
  else
    let keyed ← job.withSortValues keys (Focus.among nodes)
    return (keyed.mergeSort fun a b => (SortKey.compareAll keys a.1 b.1).isLE).map Prod.snd

end Job

end Restyle
