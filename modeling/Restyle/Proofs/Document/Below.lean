import Restyle.Document.Axis
import Restyle.Proofs.Document.Order

/-!
# Restyle.Proofs.Document.Below

What is below a node.

The nodes below a node are its children, each followed by what is below it in turn.  For the nodes
that a document has, looking down and looking up agree: the children of a node are the nodes whose
parent it is, and the nodes below it are those it is an ancestor of; attributes stand apart.

* `Node.descendants_eq` — what is below a node, child by child;
* `Document.Holds.mem_children`, `Document.Holds.mem_attributes` — children and attributes by their
  parent;
* `Document.Holds.mem_withDescendants` — what is below by what is above.
-/

namespace Restyle

namespace Node

/-- Whether a node is of a kind that may have children. -/
def MayHaveChildren (node : Node) : Prop := node.kind = .root ∨ node.kind = .element

instance (node : Node) : Decidable node.MayHaveChildren :=
  inferInstanceAs (Decidable (node.kind = .root ∨ node.kind = .element))

theorem MayHaveChildren.kind_ne {node : Node} (h : node.MayHaveChildren) : node.kind ≠ .text := by
  obtain h | h := h <;> simp [h]

theorem children_eq_nil {node : Node} (h : ¬node.MayHaveChildren) : node.children = [] := by
  cases node with
  | root document => exact absurd (.inl rfl) h
  | attr parent index content => rfl
  | child parent index order tree =>
      cases tree with
      | element name attributes children => exact absurd (.inr rfl) h
      | _ => rfl

/-! ## Child by child -/

mutual

theorem findTree_eq (parent : Node) (index : Nat) (found : Found) : (tree : Tree) →
    findTree parent index found tree =
      ⟨(Node.child parent index found.next tree).descendantsReversed ++
          .child parent index found.next tree :: found.nodes,
        found.next + tree.size⟩
  | .element name attributes children => by
      have hsize : (Tree.element name attributes children).size =
          1 + attributes.length + Tree.forestSize children := by rw [Tree.size]
      rw [findTree, findForest_eq _ 0 _ children, descendantsReversed, trees, Tree.children,
        findForest_eq _ 0 _ children, hsize]
      simp only [List.append_nil, Found.mk.injEq]
      exact ⟨rfl, by omega⟩
  | .text content => by rw [findTree]; rfl
  | .comment content => by rw [findTree]; rfl
  | .instruction target content => by rw [findTree]; rfl

theorem findForest_eq (parent : Node) (index : Nat) (found : Found) : (trees : List Tree) →
    findForest parent index found trees =
      ⟨((childrenFrom parent index found.next trees).reverse.flatMap fun c =>
          c.descendantsReversed ++ [c]) ++ found.nodes,
        found.next + Tree.forestSize trees⟩
  | [] => by rw [findForest]; rfl
  | tree :: trees => by
      rw [findForest, findTree_eq parent index found tree,
        findForest_eq parent (index + 1) _ trees, childrenFrom, List.reverse_cons,
        List.flatMap_append, Tree.forestSize]
      simp only [List.flatMap_singleton, List.append_assoc, Nat.add_assoc]
      rfl

end

/-- What is below a node: its children, each with what is below it. -/
theorem descendants_eq (node : Node) :
    node.descendants = node.children.flatMap withDescendants := by
  rw [descendants, descendantsReversed, findForest_eq, List.append_nil, List.reverse_flatMap,
    List.reverse_reverse]
  refine congrArg (node.children.flatMap ·) (funext fun c => ?_)
  rw [Function.comp_apply, List.reverse_append]
  rfl

theorem mem_descendants {a x : Node} :
    x ∈ a.descendants ↔ ∃ c ∈ a.children, x = c ∨ x ∈ c.descendants := by
  rw [descendants_eq, List.mem_flatMap]
  exact exists_congr fun c => and_congr_right fun _ => List.mem_cons

/-- Induction along the way down from a node to one below it. -/
theorem descendants_induction {P : Node → Node → Prop}
    (child : ∀ {a c}, c ∈ a.children → P a c)
    (step : ∀ {a c x}, c ∈ a.children → P c x → P a x) {a x : Node} (h : x ∈ a.descendants) :
    P a x := by
  obtain ⟨c, hc, rfl | hx⟩ := mem_descendants.1 h
  · exact child hc
  · exact step hc (descendants_induction child step hx)
termination_by Tree.forestSize a.trees
decreasing_by
  obtain ⟨k, tree, hk, rfl⟩ := mem_childrenFrom hc
  have hsize := tree.size_eq
  have hle := Tree.forestSize_take_add_le hk
  rw [trees]
  omega

/-- What is below a node goes on with the children of what is there. -/
theorem mem_descendants_of_mem_children {a x y : Node} (hx : x ∈ a.descendants)
    (hy : y ∈ x.children) : y ∈ a.descendants := by
  revert hy
  refine descendants_induction (P := fun a x => y ∈ x.children → y ∈ a.descendants) ?_ ?_ hx
  · intro a c hc hy
    exact mem_descendants.2 ⟨c, hc, .inr (mem_descendants.2 ⟨y, hy, .inl rfl⟩)⟩
  · intro a c x hc ih hy
    exact mem_descendants.2 ⟨c, hc, .inr (ih hy)⟩

/-! ## Looking up -/

theorem parent_of_mem_children {a c : Node} (h : c ∈ a.children) : c.parent = some a := by
  obtain ⟨k, tree, -, rfl⟩ := mem_childrenFrom h
  rfl

theorem parent_of_mem_attributes {a c : Node} (h : c ∈ a.attributes) : c.parent = some a := by
  obtain ⟨i, hi, rfl⟩ := List.mem_mapIdx.1 h
  rfl

theorem ancestors_eq_of_parent {a c : Node} (h : c.parent = some a) :
    c.ancestors = a :: a.ancestors := by
  cases c with
  | root document => cases h
  | child parent index order tree | attr parent index content =>
      obtain rfl := Option.some.inj h
      rfl

theorem mem_ancestors_of_parent {a c : Node} (h : c.parent = some a) : a ∈ c.ancestors := by
  rw [ancestors_eq_of_parent h]
  exact List.mem_cons_self

/-- Ancestors of ancestors are ancestors. -/
theorem mem_ancestors_trans {a b c : Node} (hab : a ∈ b.ancestors) (hbc : b ∈ c.ancestors) :
    a ∈ c.ancestors := by
  induction c with
  | root document => cases hbc
  | child parent index order tree ih | attr parent index content ih =>
      rcases List.mem_cons.1 hbc with rfl | hbc
      · exact List.mem_cons_of_mem _ hab
      · exact List.mem_cons_of_mem _ (ih hbc)

theorem mem_self_ancestors_trans {a b c : Node} (hab : a ∈ b :: b.ancestors)
    (hbc : b ∈ c :: c.ancestors) : a ∈ c :: c.ancestors := by
  rcases List.mem_cons.1 hab with rfl | hab
  · exact hbc
  · rcases List.mem_cons.1 hbc with rfl | hbc
    · exact List.mem_cons_of_mem _ hab
    · exact List.mem_cons_of_mem c (mem_ancestors_trans hab hbc)

theorem mem_ancestors_of_mem_descendants {a x : Node} (h : x ∈ a.descendants) :
    a ∈ x.ancestors := by
  refine descendants_induction (P := fun a x => a ∈ x.ancestors) ?_ ?_ h
  · intro a c hc
    exact mem_ancestors_of_parent (parent_of_mem_children hc)
  · intro a c x hc ih
    exact mem_ancestors_trans (mem_ancestors_of_parent (parent_of_mem_children hc)) ih

theorem mem_of_mem_withDescendants {a x : Node} (h : x ∈ a.withDescendants) :
    a ∈ x :: x.ancestors := by
  rcases List.mem_cons.1 h with rfl | h
  · exact List.mem_cons_self
  · exact List.mem_cons_of_mem x (mem_ancestors_of_mem_descendants h)

end Node

/-! ## The nodes that a document has -/

/-- A tree makes neither an attribute nor a root. -/
theorem Tree.kind_ne (tree : Tree) : tree.kind ≠ .attr ∧ tree.kind ≠ .root := by
  cases tree <;> exact ⟨nofun, nofun⟩

namespace Node

theorem kind_ne_of_mem_children {a c : Node} (h : c ∈ a.children) : c.kind ≠ .attr := by
  obtain ⟨k, tree, -, rfl⟩ := mem_childrenFrom h
  exact tree.kind_ne.1

theorem mem_childrenFrom_of_getElem? (parent : Node) (index order : Nat) {k : Nat}
    {trees : List Tree} {tree : Tree} (h : trees[k]? = some tree) :
    .child parent (index + k) (order + Tree.forestSize (trees.take k)) tree ∈
      childrenFrom parent index order trees := by
  induction trees generalizing index order k with
  | nil => cases h
  | cons first trees ih =>
      cases k with
      | zero =>
          obtain rfl := Option.some.inj h
          exact List.mem_cons_self
      | succ k =>
          have hmem := ih (index + 1) (order + first.size) h
          rw [Nat.add_right_comm index 1 k, Nat.add_assoc order] at hmem
          exact List.mem_cons_of_mem _ hmem

end Node

namespace Document.Holds

variable {document : Document} {n p a : Node}

theorem mem_children (h : document.Holds n) :
    n ∈ p.children ↔ n.parent = some p ∧ n.kind ≠ .attr := by
  constructor
  · intro hmem
    obtain ⟨k, tree, -, rfl⟩ := Node.mem_childrenFrom hmem
    exact ⟨rfl, tree.kind_ne.1⟩
  · rintro ⟨hparent, hkind⟩
    cases h with
    | root => cases hparent
    | @child above _ _ _ htree =>
        obtain rfl := Option.some.inj hparent
        have hmem := Node.mem_childrenFrom_of_getElem? above 0 above.orderBelow htree
        rwa [Nat.zero_add] at hmem
    | attr _ _ => exact absurd rfl hkind

theorem mem_attributes (h : document.Holds n) :
    n ∈ p.attributes ↔ n.parent = some p ∧ n.kind = .attr := by
  constructor
  · intro hmem
    obtain ⟨i, hi, rfl⟩ := List.mem_mapIdx.1 hmem
    exact ⟨rfl, rfl⟩
  · rintro ⟨hparent, hkind⟩
    cases h with
    | root => cases hparent
    | @child _ _ tree _ _ => exact absurd hkind tree.kind_ne.1
    | attr _ hcontent =>
        obtain rfl := Option.some.inj hparent
        obtain ⟨hi, rfl⟩ := List.getElem?_eq_some_iff.1 hcontent
        exact List.mem_mapIdx.2 ⟨_, hi, rfl⟩

theorem eq_root (h : document.Holds n) (hkind : n.kind = .root) : n = document.root := by
  cases h with
  | root => rfl
  | @child _ _ tree _ _ => exact absurd hkind tree.kind_ne.2
  | attr _ _ => cases hkind

theorem of_mem_descendants (h : document.Holds a) (hn : n ∈ a.descendants) : document.Holds n := by
  revert h
  refine Node.descendants_induction (P := fun a n => document.Holds a → document.Holds n) ?_ ?_ hn
  · intro a c hc ha
    exact ha.of_mem_children hc
  · intro a c x hc ih ha
    exact ih (ha.of_mem_children hc)

/-- A node above another one is no attribute. -/
theorem kind_parent_ne (h : document.Holds n) (hp : n.parent = some p) : p.kind ≠ .attr := by
  cases h with
  | root => cases hp
  | @child above _ _ _ htree =>
      obtain rfl := Option.some.inj hp
      cases above with
      | root document => exact nofun
      | child parent index order tree => exact tree.kind_ne.1
      | attr parent index content => cases htree
  | @attr above _ _ _ hcontent =>
      obtain rfl := Option.some.inj hp
      cases above with
      | root document => exact nofun
      | child parent index order tree => exact tree.kind_ne.1
      | attr parent index content => cases hcontent

/-- What is below a node, itself included, is what it is above, unless that is an attribute. -/
theorem mem_withDescendants (h : document.Holds n) (hkind : n.kind ≠ .attr) :
    n ∈ a.withDescendants ↔ a ∈ n :: n.ancestors := by
  refine ⟨Node.mem_of_mem_withDescendants, fun hmem => ?_⟩
  induction h with
  | root =>
      obtain rfl := List.mem_singleton.1 hmem
      exact List.mem_cons_self
  | @child p index tree hparent htree ih =>
      rcases List.mem_cons.1 hmem with rfl | hmem
      · exact List.mem_cons_self
      · have hc : Node.child p index (p.childOrder index) tree ∈ p.children :=
          (hparent.child htree).mem_children.2 ⟨rfl, hkind⟩
        have hp : p ∈ a.withDescendants :=
          ih ((hparent.child htree).kind_parent_ne rfl) hmem
        rcases List.mem_cons.1 hp with rfl | hp
        · exact List.mem_cons_of_mem _ (Node.mem_descendants.2 ⟨_, hc, .inl rfl⟩)
        · exact List.mem_cons_of_mem _ (Node.mem_descendants_of_mem_children hp hc)
  | attr _ _ _ => exact absurd rfl hkind

end Document.Holds

end Restyle
