import Restyle.Name

/-!
# Restyle.Document

Documents as trees, and the nodes in them.

A `Document` is a list of trees below an unnamed root.  A `Node` is a place in a document: it knows
the tree at that place and the node above it, so it can look in every direction.  The nodes of a
document are numbered in document order, the root first, and each node before its attributes and
these before what is below it.  Two nodes of one document are the same if they have the same
number, which is their `order`.

* `Node.children`, `Node.attributes`, `Node.parent` — the neighbours;
* `Node.order` — the place of a node in document order;
* `Node.stringValue` — the text of a node;
* `Document.Holds` — the nodes that a document really has.
-/

namespace Restyle

/-- An attribute of an element. -/
structure Attribute where
  name : QName
  value : String
deriving DecidableEq, Repr

/-- A node below the root, with all that is below it. -/
inductive Tree where
  | element (name : QName) (attributes : List Attribute) (children : List Tree)
  | text (content : String)
  | comment (content : String)
  | instruction (target content : String)
deriving Inhabited

/-- A document: what stands below the root. -/
structure Document where
  children : List Tree
deriving Inhabited

/-- The kinds of nodes. -/
inductive NodeKind where
  | root
  | element
  | attr
  | text
  | comment
  | instruction
deriving DecidableEq, Repr

/-! ## Trees -/

namespace Tree

def kind : Tree → NodeKind
  | .element .. => .element
  | .text _ => .text
  | .comment _ => .comment
  | .instruction .. => .instruction

def attributes : Tree → List Attribute
  | .element _ attributes _ => attributes
  | _ => []

def children : Tree → List Tree
  | .element _ _ children => children
  | _ => []

mutual

/-- The texts in a tree in order, in front of others. -/
def textsThen (rest : List String) : Tree → List String
  | .element _ _ children => forestTextsThen rest children
  | .text content => content :: rest
  | _ => rest

/-- The texts in a list of trees in order, in front of others. -/
def forestTextsThen (rest : List String) : List Tree → List String
  | [] => rest
  | tree :: trees => textsThen (forestTextsThen rest trees) tree

end

/-- The text in a list of trees. -/
def forestText (trees : List Tree) : String := String.join (forestTextsThen [] trees)

/-- The string value of a tree: the text in an element, the content of anything else. -/
def stringValue : Tree → String
  | .element _ _ children => forestText children
  | .text content => content
  | .comment content => content
  | .instruction _ content => content

mutual

/-- How many nodes a tree makes: itself, its attributes and what is below it. -/
def size : Tree → Nat
  | .element _ attributes children => 1 + attributes.length + forestSize children
  | _ => 1

/-- How many nodes a list of trees makes. -/
def forestSize : List Tree → Nat
  | [] => 0
  | tree :: trees => size tree + forestSize trees

end

end Tree

/-! ## Nodes -/

/-- A place in a document. -/
inductive Node where
  /-- The root. -/
  | root (document : Document)
  /-- The child of a node at an index, with its number in document order. -/
  | child (parent : Node) (index order : Nat) (tree : Tree)
  /-- The attribute of a node at an index. -/
  | attr (parent : Node) (index : Nat) (content : Attribute)
deriving Inhabited

namespace Node

def kind : Node → NodeKind
  | .root _ => .root
  | .child _ _ _ tree => tree.kind
  | .attr .. => .attr

/-- The name of an element or attribute, or the target of a processing instruction. -/
def name : Node → Option QName
  | .child _ _ _ (.element name _ _) => some name
  | .child _ _ _ (.instruction target _) => some ⟨none, target⟩
  | .attr _ _ content => some content.name
  | _ => none

/-- The text of the root or an element, the value of an attribute, the content of a leaf. -/
def stringValue : Node → String
  | .root document => Tree.forestText document.children
  | .child _ _ _ tree => tree.stringValue
  | .attr _ _ content => content.value

/-- The trees right below a node. -/
def trees : Node → List Tree
  | .root document => document.children
  | .child _ _ _ tree => tree.children
  | .attr .. => []

/-- The attributes a node holds. -/
def held : Node → List Attribute
  | .child _ _ _ tree => tree.attributes
  | _ => []

/-- The number of a node in document order. -/
def order : Node → Nat
  | .root _ => 0
  | .child _ _ order _ => order
  | .attr parent index _ => parent.order + 1 + index

/-- The number of the first node below a node, which its attributes come before. -/
def orderBelow (node : Node) : Nat := node.order + 1 + node.held.length

/-- Trees as the children of a node from an index and a number on. -/
def childrenFrom (parent : Node) (index order : Nat) : List Tree → List Node
  | [] => []
  | tree :: trees =>
    .child parent index order tree :: childrenFrom parent (index + 1) (order + tree.size) trees

/-- The nodes right below a node, in order. -/
def children (node : Node) : List Node := childrenFrom node 0 node.orderBelow node.trees

/-- The number of the child at an index. -/
def childOrder (parent : Node) (index : Nat) : Nat :=
  parent.orderBelow + Tree.forestSize (parent.trees.take index)

theorem mem_childrenFrom {parent c : Node} {index order : Nat} {trees : List Tree}
    (h : c ∈ childrenFrom parent index order trees) :
    ∃ k tree, trees[k]? = some tree ∧
      c = .child parent (index + k) (order + Tree.forestSize (trees.take k)) tree := by
  induction trees generalizing index order with
  | nil => simp [childrenFrom] at h
  | cons tree trees ih =>
    rcases List.mem_cons.1 h with rfl | h
    · exact ⟨0, tree, rfl, rfl⟩
    · obtain ⟨k, t, hk, rfl⟩ := ih h
      exact ⟨k + 1, t, hk, by
        simp only [List.take_succ_cons, Tree.forestSize, Node.child.injEq, true_and, and_true]
        omega⟩

/-- The attribute nodes of an element, in order. -/
def attributes (node : Node) : List Node := node.held.mapIdx (.attr node)

/-- The node above; the element for an attribute. -/
def parent : Node → Option Node
  | .root _ => none
  | .child parent _ _ _ => some parent
  | .attr parent _ _ => some parent

/-- The nodes above, nearest first. -/
def ancestors : Node → List Node
  | .root _ => []
  | .child parent _ _ _ => parent :: parent.ancestors
  | .attr parent _ _ => parent :: parent.ancestors

/-- The document that a node belongs to. -/
def document : Node → Document
  | .root document => document
  | .child parent _ _ _ => parent.document
  | .attr parent _ _ => parent.document

/-! ### Document order -/

/-- Whether two nodes of one document are the same. -/
def same (a b : Node) : Bool := a.order == b.order

/-- Two lists of nodes in document order as one, in which a node that is in both comes once. -/
def merge : List Node → List Node → List Node
  | [], bs => bs
  | as, [] => as
  | a :: as, b :: bs =>
    if a.order < b.order then a :: merge as (b :: bs)
    else if b.order < a.order then b :: merge (a :: as) bs
    else a :: merge as bs

/-- Neighbouring lists merged, two at a time. -/
def mergePairs : List (List Node) → List (List Node)
  | as :: bs :: lists => merge as bs :: mergePairs lists
  | lists => lists

theorem length_mergePairs_le (lists : List (List Node)) :
    (mergePairs lists).length ≤ lists.length := by
  fun_induction mergePairs lists with
  | case1 as bs lists ih => simp only [List.length_cons]; omega
  | case2 => exact Nat.le_refl _

/-- Lists of nodes in document order as one. -/
def mergeAll (lists : List (List Node)) : List Node :=
  match lists with
  | [] => []
  | [nodes] => nodes
  | as :: bs :: lists => mergeAll (merge as bs :: mergePairs lists)
termination_by lists.length
decreasing_by
  have := length_mergePairs_le lists
  simp only [List.length_cons]; omega

/-- The runs of a list in which each node comes after the one before it. -/
def runs : List Node → List (List Node)
  | [] => []
  | a :: nodes =>
    match runs nodes with
    | (b :: run) :: others =>
      if a.order < b.order then (a :: b :: run) :: others else [a] :: (b :: run) :: others
    | others => [a] :: others

/-- Nodes in document order, each once. -/
def inOrder (nodes : List Node) : List Node := mergeAll (runs nodes)

/-! ### Below a node -/

/-- Nodes found one after another, last first, and the number of the node that comes next. -/
structure Found where
  nodes : List Node
  next : Nat

mutual

/-- Find the child at an index and all nodes below it, without attributes. -/
def findTree (parent : Node) (index : Nat) (found : Found) : Tree → Found
  | .element name attributes children =>
    let self := Node.child parent index found.next (.element name attributes children)
    findForest self 0 ⟨self :: found.nodes, found.next + 1 + attributes.length⟩ children
  | .text content =>
    ⟨.child parent index found.next (.text content) :: found.nodes, found.next + 1⟩
  | .comment content =>
    ⟨.child parent index found.next (.comment content) :: found.nodes, found.next + 1⟩
  | .instruction target content =>
    ⟨.child parent index found.next (.instruction target content) :: found.nodes,
      found.next + 1⟩

/-- Find the children from an index on and all nodes below them, without attributes. -/
def findForest (parent : Node) (index : Nat) (found : Found) : List Tree → Found
  | [] => found
  | tree :: trees => findForest parent (index + 1) (findTree parent index found tree) trees

end

/-- The nodes below a node, last first. -/
def descendantsReversed (node : Node) : List Node :=
  (findForest node 0 ⟨[], node.orderBelow⟩ node.trees).nodes

/-- The nodes below a node, in document order. -/
def descendants (node : Node) : List Node := node.descendantsReversed.reverse

end Node

/-! ## The nodes of a document -/

namespace Document

/-- The root node. -/
def root (document : Document) : Node := .root document

/-- All nodes in document order: each node, then its attributes, then what is below it. -/
def nodes (document : Document) : List Node :=
  (document.root :: document.root.descendants).flatMap fun node => node :: node.attributes

/-- The nodes that a document has: the root, and the children and attributes of its nodes. -/
inductive Holds (document : Document) : Node → Prop
  | root : Holds document document.root
  | child {parent : Node} {index : Nat} {tree : Tree} :
    Holds document parent → parent.trees[index]? = some tree →
      Holds document (.child parent index (parent.childOrder index) tree)
  | attr {parent : Node} {index : Nat} {content : Attribute} :
    Holds document parent → parent.held[index]? = some content →
      Holds document (.attr parent index content)

/-- A child of a node that a document has is one too. -/
theorem Holds.of_mem_children {document : Document} {node c : Node} (h : document.Holds node)
    (hc : c ∈ node.children) : document.Holds c := by
  obtain ⟨k, tree, hk, rfl⟩ := Node.mem_childrenFrom hc
  rw [Nat.zero_add]
  exact .child h hk

/-- An attribute of a node that a document has is one too. -/
theorem Holds.of_mem_attributes {document : Document} {node a : Node} (h : document.Holds node)
    (ha : a ∈ node.attributes) : document.Holds a := by
  obtain ⟨i, hi, rfl⟩ := List.mem_mapIdx.1 ha
  exact .attr h (List.getElem?_eq_getElem hi)

/-- The node above a node that a document has is one too. -/
theorem Holds.of_parent {document : Document} {node p : Node} (h : document.Holds node)
    (hp : node.parent = some p) : document.Holds p := by
  cases h with
  | root => simp [Document.root, Node.parent] at hp
  | child h _ => simp only [Node.parent, Option.some.injEq] at hp; exact hp ▸ h
  | attr h _ => simp only [Node.parent, Option.some.injEq] at hp; exact hp ▸ h

end Document

end Restyle
