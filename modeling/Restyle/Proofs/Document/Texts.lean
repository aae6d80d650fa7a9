import Mathlib
import Restyle.Proofs.Document.Below

/-!
# Restyle.Proofs.Document.Texts

The texts in a node.

The texts in the root or in an element are those in its children, one child after the other, and only
text nodes have a text of their own.  So the string value of the root, which is put together tree by
tree, joins the text nodes in document order, whatever stands between them.

* `Node.texts`, `Node.texts_eq_flatMap` — the texts in a node, child by child;
* `Node.textNodes_withDescendants` — they are the texts of the text nodes from the node downwards;
* `Document.stringValue_root` — the main result.
-/

namespace Restyle

namespace Tree

mutual

theorem textsThen_eq (rest : List String) : (tree : Tree) →
    textsThen rest tree = textsThen [] tree ++ rest
  | .element name attributes children => by
      rw [textsThen, textsThen, forestTextsThen_eq rest children]
  | .text content => by rw [textsThen, textsThen]; rfl
  | .comment content => by simp [textsThen]
  | .instruction target content => by simp [textsThen]

theorem forestTextsThen_eq (rest : List String) : (trees : List Tree) →
    forestTextsThen rest trees = forestTextsThen [] trees ++ rest
  | [] => by rw [forestTextsThen, forestTextsThen]; rfl
  | tree :: trees => by
      rw [forestTextsThen, forestTextsThen, textsThen_eq (forestTextsThen rest trees) tree,
        textsThen_eq (forestTextsThen [] trees) tree, forestTextsThen_eq rest trees,
        List.append_assoc]

end

end Tree

namespace Node

/-- The texts in a node, in order. -/
def texts (node : Node) : List String :=
  if node.kind = .text then [node.stringValue] else Tree.forestTextsThen [] node.trees

theorem texts_child (parent : Node) (index order : Nat) (tree : Tree) :
    (child parent index order tree).texts = Tree.textsThen [] tree := by
  cases tree <;>
    simp [texts, kind, Tree.kind, stringValue, Tree.stringValue, trees, Tree.children, Tree.textsThen,
      Tree.forestTextsThen]

theorem flatMap_texts_childrenFrom (parent : Node) (index order : Nat) (trees : List Tree) :
    (childrenFrom parent index order trees).flatMap texts = Tree.forestTextsThen [] trees := by
  induction trees generalizing index order with
  | nil => simp [childrenFrom, Tree.forestTextsThen]
  | cons tree trees ih =>
    rw [childrenFrom, List.flatMap_cons, ih, texts_child, Tree.forestTextsThen,
      Tree.textsThen_eq (Tree.forestTextsThen [] trees) tree]

/-- The texts in a node that is no text are those in its children. -/
theorem texts_eq_flatMap {node : Node} (h : node.kind ≠ .text) :
    node.texts = node.children.flatMap texts := by
  rw [children, flatMap_texts_childrenFrom, texts, if_neg h]

/-! ## Text nodes -/

/-- The text nodes of a list. -/
def textNodes (nodes : List Node) : List Node := nodes.filter fun node => node.kind == .text

theorem textNodes_cons (node : Node) (nodes : List Node) : textNodes (node :: nodes) =
    if node.kind = .text then node :: textNodes nodes else textNodes nodes := by
  simp [textNodes, List.filter_cons]

theorem textNodes_append (before after : List Node) :
    textNodes (before ++ after) = textNodes before ++ textNodes after := List.filter_append before after

theorem textNodes_attributes (node : Node) : textNodes node.attributes = [] := by
  refine List.filter_eq_nil_iff.2 fun a ha => ?_
  obtain ⟨index, hindex, rfl⟩ := List.mem_mapIdx.1 ha
  exact Bool.false_ne_true

/-- Attributes put after their nodes bring no text nodes. -/
theorem textNodes_flatMap_attributes (nodes : List Node) :
    textNodes (nodes.flatMap fun node => node :: node.attributes) = textNodes nodes := by
  induction nodes with
  | nil => rfl
  | cons node nodes ih =>
    rw [List.flatMap_cons, List.cons_append, textNodes_cons, textNodes_cons, textNodes_append,
      textNodes_attributes, ih, List.nil_append]

/-- The text nodes from a node downwards have the texts in it. -/
theorem textNodes_withDescendants (node : Node) :
    (textNodes node.withDescendants).map stringValue = node.texts := by
  have hbelow : (textNodes node.descendants).map stringValue = node.children.flatMap texts := by
    rw [descendants_eq, textNodes, List.filter_flatMap, List.map_flatMap]
    exact List.flatMap_congr fun c hc => textNodes_withDescendants c
  rw [withDescendants, textNodes_cons]
  by_cases htext : node.kind = .text
  · have hleaf : ¬node.MayHaveChildren := fun h => h.kind_ne htext
    rw [if_pos htext, List.map_cons, hbelow, children_eq_nil hleaf, texts, if_pos htext,
      List.flatMap_nil]
  · rw [if_neg htext, hbelow, texts_eq_flatMap htext]
termination_by Tree.forestSize node.trees
decreasing_by
  obtain ⟨k, tree, hk, rfl⟩ := mem_childrenFrom hc
  have hsize := tree.size_eq
  have hle := Tree.forestSize_take_add_le hk
  rw [trees]
  omega

end Node

/-- **The string value of the root is the text of the document.**  It joins the text nodes in
document order. -/
theorem Document.stringValue_root (document : Document) :
    document.root.stringValue =
      String.join ((Node.textNodes document.nodes).map Node.stringValue) := by
  have hnodes : Node.textNodes document.nodes = Node.textNodes document.root.withDescendants :=
    Node.textNodes_flatMap_attributes _
  rw [hnodes, Node.textNodes_withDescendants]
  rfl

end Restyle
