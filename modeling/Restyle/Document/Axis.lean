import Restyle.Document

/-!
# Restyle.Document.Axis

The twelve directions in which a step looks from a node.  `Axis.nodes` lists what lies in a
direction with the nearest node first, so forward axes list in document order and the four reverse
axes against it.  An attribute has no siblings; what is below its element follows it, and what
precedes its element precedes it.
-/

namespace Restyle

/-- A direction in a document. -/
inductive Axis where
  | child
  | descendant
  | descendantOrSelf
  | attr
  | parent
  | ancestor
  | ancestorOrSelf
  | self
  | followingSibling
  | precedingSibling
  | following
  | preceding
deriving DecidableEq, Repr

namespace Node

/-- The children of the same parent that come after a node. -/
def followingSiblings : Node → List Node
  | .child parent index order tree =>
    childrenFrom parent (index + 1) (order + tree.size) (parent.trees.drop (index + 1))
  | _ => []

/-- The children of the same parent that come before a node, nearest first. -/
def precedingSiblings : Node → List Node
  | .child parent index _ _ =>
    (childrenFrom parent 0 parent.orderBelow (parent.trees.take index)).reverse
  | _ => []

/-- A node that is no attribute, and what is below it. -/
def withDescendants (node : Node) : List Node := node :: node.descendants

/-- What comes after a node and is not below it. -/
def following : Node → List Node
  | .root _ => []
  | .child parent index order tree =>
    (findForest parent (index + 1) ⟨[], order + tree.size⟩
      (parent.trees.drop (index + 1))).nodes.reverse ++ parent.following
  | .attr parent _ _ => parent.descendants ++ parent.following

/-- What comes before a node and is not above it, nearest first. -/
def preceding : Node → List Node
  | .root _ => []
  | .child parent index _ _ =>
    (findForest parent 0 ⟨[], parent.orderBelow⟩ (parent.trees.take index)).nodes ++
      parent.preceding
  | .attr parent _ _ => parent.preceding

end Node

/-- The nodes in a direction, nearest first. -/
def Axis.nodes (axis : Axis) (node : Node) : List Node :=
  match axis with
  | .child => node.children
  | .descendant => node.descendants
  | .descendantOrSelf => node.withDescendants
  | .attr => node.attributes
  | .parent => node.parent.toList
  | .ancestor => node.ancestors
  | .ancestorOrSelf => node :: node.ancestors
  | .self => [node]
  | .followingSibling => node.followingSiblings
  | .precedingSibling => node.precedingSiblings
  | .following => node.following
  | .preceding => node.preceding

/-- Whether an axis lists nodes against document order. -/
def Axis.isReverse : Axis → Bool
  | .ancestor | .ancestorOrSelf | .preceding | .precedingSibling => true
  | _ => false

/-- The kind of node that a name on an axis means. -/
def Axis.principal : Axis → NodeKind
  | .attr => .attr
  | _ => .element

end Restyle
