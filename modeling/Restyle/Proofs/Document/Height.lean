import Mathlib
import Restyle.Proofs.Document.Below

/-!
# Restyle.Proofs.Document.Height

How deep the elements of a document lie in each other.

The height of a tree is the largest number of elements on a way down from it, the tree included, and a
document is as high as the highest of its trees.  The levels of a node are the times that one goes on
from a node to its children on such a way: one for each element, and one more for the root.

* `Document.height`, `Node.levels` — the height of a document, and the levels of a node;
* `Node.levels_le_succ_iff`, `Node.succ_lt_levels_iff` — levels, from a node to its children;
* `Document.Holds.length_ancestors_add_levels_le` — the lower a node, the fewer levels it has;
* `Document.isGreatest_height` — the main result: the height is the largest number of elements on the
  way up from a node.
-/

namespace Restyle

/-! ## Heights -/

namespace Tree

mutual

/-- The largest number of elements on a way down from a tree. -/
def height : Tree → Nat
  | .element _ _ children => 1 + forestHeight children
  | _ => 0

/-- The largest height of trees. -/
def forestHeight : List Tree → Nat
  | [] => 0
  | tree :: trees => max (height tree) (forestHeight trees)

end

theorem forestHeight_le_iff {trees : List Tree} {left : Nat} :
    forestHeight trees ≤ left ↔ ∀ tree ∈ trees, tree.height ≤ left := by
  induction trees with
  | nil => simp [forestHeight]
  | cons tree trees ih => rw [forestHeight, max_le_iff, ih, List.forall_mem_cons]

end Tree

/-- The largest number of elements that lie in each other. -/
def Document.height (document : Document) : Nat := Tree.forestHeight document.children

namespace Node

/-- How many levels it takes to go down from a node to its children and on from there. -/
def levels (node : Node) : Nat :=
  if node.MayHaveChildren then 1 + Tree.forestHeight node.trees else 0

theorem levels_pos_iff {node : Node} : 0 < node.levels ↔ node.MayHaveChildren := by
  by_cases h : node.MayHaveChildren <;> simp [levels, h]

theorem levels_child (parent : Node) (index order : Nat) (tree : Tree) :
    (child parent index order tree).levels = tree.height := by
  cases tree <;>
    simp [levels, MayHaveChildren, kind, Tree.kind, trees, Tree.children, Tree.height]

theorem map_levels_childrenFrom (parent : Node) (index order : Nat) (trees : List Tree) :
    (childrenFrom parent index order trees).map levels = trees.map Tree.height := by
  induction trees generalizing index order with
  | nil => rfl
  | cons tree trees ih => simp [childrenFrom, levels_child, ih]

/-- A node goes down at most one level more than its children do. -/
theorem levels_le_succ_iff {node : Node} (h : node.MayHaveChildren) {left : Nat} :
    node.levels ≤ left + 1 ↔ ∀ c ∈ node.children, c.levels ≤ left := by
  have hmap := map_levels_childrenFrom node 0 node.orderBelow node.trees
  have hchildren : (∀ c ∈ node.children, c.levels ≤ left) ↔
      ∀ tree ∈ node.trees, tree.height ≤ left := by
    rw [← List.forall_mem_map (f := levels) (P := (· ≤ left)), children, hmap, List.forall_mem_map]
  rw [levels, if_pos h, hchildren, ← Tree.forestHeight_le_iff, Nat.add_comm, Nat.add_le_add_iff_right]

theorem succ_lt_levels_iff {node : Node} (h : node.MayHaveChildren) {left : Nat} :
    left + 1 < node.levels ↔ ∃ c ∈ node.children, left < c.levels := by
  have hnot := not_congr (levels_le_succ_iff h : node.levels ≤ left + 1 ↔ _)
  push Not at hnot
  exact hnot

/-- A node with more than one level has a child with one level less. -/
theorem exists_child_levels {node : Node} {left : Nat} (h : node.levels = left + 2) :
    ∃ c ∈ node.children, c.levels = left + 1 := by
  have hinner : node.MayHaveChildren := levels_pos_iff.1 (by omega)
  have hle : ∀ c ∈ node.children, c.levels ≤ left + 1 := (levels_le_succ_iff hinner).1 (by omega)
  obtain ⟨c, hc, hlevels⟩ := (succ_lt_levels_iff hinner).1 (by omega : left + 1 < node.levels)
  exact ⟨c, hc, Nat.le_antisymm (hle c hc) hlevels⟩

/-- How many elements there are on the way up from a node, the node included. -/
def elements (node : Node) : Nat :=
  (node :: node.ancestors).countP fun above => above.kind == .element

theorem elements_of_parent {node p : Node} (h : node.parent = some p) :
    node.elements = p.elements + if node.kind = .element then 1 else 0 := by
  rw [elements, elements, ancestors_eq_of_parent h, List.countP_cons]
  simp only [beq_iff_eq]

end Node

/-! ## The nodes of a document -/

namespace Document.Holds

variable {document : Document} {n p : Node}

theorem parent_mayHaveChildren (h : document.Holds n) (hp : n.parent = some p) :
    p.MayHaveChildren := by
  cases h with
  | root => cases hp
  | @child above _ _ _ hbelow | @attr above _ _ _ hbelow =>
    obtain rfl := Option.some.inj hp
    -- nothing is below or in what is neither the root nor an element
    cases above with
    | root document => exact .inl rfl
    | attr parent index content => cases hbelow
    | child parent index order tree =>
      cases tree with
      | element name attributes children => exact .inr rfl
      | _ => cases hbelow

/-- A node has more levels than what is below it. -/
theorem levels_lt_parent (h : document.Holds n) (hp : n.parent = some p) : n.levels < p.levels := by
  have hinner := h.parent_mayHaveChildren hp
  have hpos := Node.levels_pos_iff.2 hinner
  by_cases hkind : n.kind = .attr
  · cases n with
    | attr parent index content => exact hpos
    | root document => cases hkind
    | child parent index order tree => exact absurd hkind tree.kind_ne.1
  · obtain ⟨left, hleft⟩ := Nat.exists_eq_add_one_of_ne_zero (Nat.ne_of_gt hpos)
    have hchild := (Node.levels_le_succ_iff hinner).1 (Nat.le_of_eq hleft) n
      (h.mem_children.2 ⟨hp, hkind⟩)
    omega

/-- The lower a node, the fewer levels it has. -/
theorem length_ancestors_add_levels_le (h : document.Holds n) :
    n.ancestors.length + n.levels ≤ document.height + 1 := by
  induction h with
  | root => exact Nat.le_of_eq ((Nat.zero_add _).trans (Nat.add_comm _ _))
  | @child above _ _ habove hbelow ih =>
    have hlevels := (habove.child hbelow).levels_lt_parent rfl
    rw [Node.ancestors, List.length_cons]
    omega
  | @attr above _ _ habove hbelow ih =>
    have hlevels := (habove.attr hbelow).levels_lt_parent rfl
    rw [Node.ancestors, List.length_cons]
    omega

/-- Above an element there are elements, up to the root. -/
theorem elements_eq (h : document.Holds n) (hinner : n.MayHaveChildren) :
    n.elements = n.ancestors.length := by
  induction h with
  | root => rfl
  | @child above _ tree habove hbelow ih =>
    have hparent := (habove.child hbelow).parent_mayHaveChildren rfl
    have helement := hinner.resolve_left tree.kind_ne.2
    rw [Node.elements_of_parent rfl, if_pos helement, ih hparent]
    rfl
  | attr _ _ => simp [Node.MayHaveChildren, Node.kind] at hinner

theorem elements_le (h : document.Holds n) : n.elements ≤ document.height := by
  have hinner {n : Node} (h : document.Holds n) (hinner : n.MayHaveChildren) :
      n.elements ≤ document.height := by
    have hlevels := h.length_ancestors_add_levels_le
    have hpos := Node.levels_pos_iff.2 hinner
    rw [h.elements_eq hinner]
    omega
  by_cases hkind : n.MayHaveChildren
  · exact hinner h hkind
  · cases hp : n.parent with
    | none =>
      cases n with
      | root document => exact absurd (.inl rfl) hkind
      | child parent index order tree | attr parent index content => cases hp
    | some p =>
      have helement : n.kind ≠ .element := fun helement => hkind (.inr helement)
      rw [Node.elements_of_parent hp, if_neg helement]
      exact hinner (h.of_parent hp) (h.parent_mayHaveChildren hp)

/-- From a node there is a way down on which each node has one level less. -/
theorem exists_lowest {left : Nat} (h : document.Holds n) (hlevels : n.levels = left + 1) :
    ∃ low, document.Holds low ∧ low.MayHaveChildren ∧
      low.ancestors.length = n.ancestors.length + left := by
  induction left generalizing n with
  | zero => exact ⟨n, h, Node.levels_pos_iff.1 (by omega), rfl⟩
  | succ left ih =>
    obtain ⟨c, hc, hlevels⟩ := Node.exists_child_levels hlevels
    obtain ⟨low, hlow, hinner, hlength⟩ := ih (h.of_mem_children hc) hlevels
    have hancestors := Node.ancestors_eq_of_parent (Node.parent_of_mem_children hc)
    rw [hancestors, List.length_cons] at hlength
    exact ⟨low, hlow, hinner, by omega⟩

end Document.Holds

/-- **The height of a document is the largest number of elements in each other.**  It is the largest
number of elements on the way up from a node. -/
theorem Document.isGreatest_height (document : Document) :
    IsGreatest {n | ∃ node, document.Holds node ∧ node.elements = n} document.height := by
  constructor
  · obtain ⟨low, hlow, hinner, hlength⟩ :=
      Document.Holds.root.exists_lowest (n := document.root) (Nat.add_comm 1 document.height)
    have helements := hlow.elements_eq hinner
    exact ⟨low, hlow, helements.trans (hlength.trans (Nat.zero_add _))⟩
  · rintro n ⟨node, hnode, rfl⟩
    exact hnode.elements_le

end Restyle
