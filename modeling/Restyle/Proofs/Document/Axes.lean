import Restyle.Proofs.Document.Ascending

/-!
# Restyle.Proofs.Document.Axes

How the axes share out a document.

Seen from a node, a document consists of the nodes above it, those before it, the node with what is
below it, and those after it.  This is proved from the top down: the children of the node above are
the siblings before the node, the node, and the siblings after it, so one step down moves the
subtrees of the siblings to what precedes and what follows.

* `Document.Holds.preceding_sublist` — what precedes a node, the node with what is below it and what
  follows it, in document order;
* `Document.Holds.perm_around` — together with what is above the node that is every node but the
  attributes;
* `Document.Holds.mem_following_iff` — to follow a node is to come after it and not to be below it;
* `Document.Holds.of_mem_nodes` — no axis leads out of the document;
* `Axis.nodes_divide` — the main result.
-/

namespace Restyle

namespace Node

/-! ## Siblings -/

theorem childrenFrom_append (parent : Node) (index order : Nat) (front back : List Tree) :
    childrenFrom parent index order (front ++ back) =
      childrenFrom parent index order front ++
        childrenFrom parent (index + front.length) (order + Tree.forestSize front) back := by
  induction front generalizing index order with
  | nil => rfl
  | cons tree front ih =>
      rw [List.cons_append, childrenFrom, ih, childrenFrom, List.cons_append, List.length_cons,
        Tree.forestSize, Nat.add_right_comm index, Nat.add_assoc order, Nat.add_assoc index]

/-- The children of a node are one of them between its siblings. -/
theorem children_eq {parent : Node} {index : Nat} {tree : Tree}
    (h : parent.trees[index]? = some tree) :
    let node := Node.child parent index (parent.childOrder index) tree
    parent.children = node.precedingSiblings.reverse ++ node :: node.followingSiblings := by
  obtain ⟨hindex, htree⟩ := List.getElem?_eq_some_iff.1 h
  have htrees : parent.trees =
      parent.trees.take index ++ tree :: parent.trees.drop (index + 1) := by
    rw [← htree, List.getElem_cons_drop, List.take_append_drop]
  have hlength : (parent.trees.take index).length = index :=
    List.length_take_of_le (Nat.le_of_lt hindex)
  dsimp only
  rw [precedingSiblings, followingSiblings, List.reverse_reverse]
  conv => lhs; rw [children, htrees, childrenFrom_append, hlength, Nat.zero_add, childrenFrom]
  rfl

/-! ## One step down -/

theorem reverse_findForest (parent : Node) (index next : Nat) (trees : List Tree) :
    (findForest parent index ⟨[], next⟩ trees).nodes.reverse =
      (childrenFrom parent index next trees).flatMap withDescendants := by
  rw [findForest_eq, List.append_nil, List.reverse_flatMap, List.reverse_reverse]
  refine congrArg ((childrenFrom parent index next trees).flatMap ·) (funext fun c => ?_)
  rw [Function.comp_apply, List.reverse_append]
  rfl

theorem following_child (parent : Node) (index order : Nat) (tree : Tree) :
    (Node.child parent index order tree).following =
      (Node.child parent index order tree).followingSiblings.flatMap withDescendants ++
        parent.following := by
  rw [following, reverse_findForest, followingSiblings]

theorem reverse_preceding_child (parent : Node) (index order : Nat) (tree : Tree) :
    (Node.child parent index order tree).preceding.reverse = parent.preceding.reverse ++
      (Node.child parent index order tree).precedingSiblings.reverse.flatMap withDescendants := by
  rw [preceding, List.reverse_append, reverse_findForest, precedingSiblings, List.reverse_reverse]

/-- A node with what is below it, by one of its children. -/
theorem withDescendants_eq {parent : Node} {index : Nat} {tree : Tree}
    (h : parent.trees[index]? = some tree) :
    let node := Node.child parent index (parent.childOrder index) tree
    parent.withDescendants =
      parent :: (node.precedingSiblings.reverse.flatMap withDescendants ++
        (node.withDescendants ++ node.followingSiblings.flatMap withDescendants)) := by
  dsimp only
  rw [withDescendants, descendants_eq, children_eq h, List.flatMap_append, List.flatMap_cons]

theorem kind_ne_of_mem_descendants {a x : Node} (h : x ∈ a.descendants) : x.kind ≠ .attr := by
  have hchild {a c : Node} (hc : c ∈ a.children) : c.kind ≠ .attr := by
    obtain ⟨k, tree, -, rfl⟩ := mem_childrenFrom hc
    exact tree.kind_ne.1
  exact descendants_induction (P := fun _ x => x.kind ≠ .attr) hchild (fun _ ih => ih) h

theorem ascending_withDescendants (node : Node) : Ascending node.withDescendants :=
  node.ascending_listed.sublist (sublist_flatMap (fun _ => ⟨_, rfl⟩) _)

theorem Ascending.nodup {nodes : List Node} (h : Ascending nodes) : nodes.Nodup := by
  refine List.Pairwise.imp (fun {a b} hlt heq => ?_) h
  exact Nat.lt_irrefl b.order (heq ▸ hlt)

end Node

namespace Document

/-! ## Around a node -/

/-- The nodes that are no attributes. -/
theorem mem_withDescendants_root {document : Document} {x : Node} :
    x ∈ document.root.withDescendants ↔ document.Holds x ∧ x.kind ≠ .attr := by
  constructor
  · intro hx
    obtain rfl | hx := List.mem_cons.1 hx
    · exact ⟨.root, nofun⟩
    · exact ⟨Holds.root.of_mem_descendants hx, Node.kind_ne_of_mem_descendants hx⟩
  · rintro ⟨hheld, hkind⟩
    exact (hheld.mem_withDescendants hkind).2 hheld.root_mem

namespace Holds

variable {document : Document} {n x y : Node}

/-- What precedes a node, the node with what is below it and what follows it are nodes of the
document in its order. -/
theorem preceding_sublist (h : document.Holds n) (hkind : n.kind ≠ .attr) :
    (n.preceding.reverse ++ (n.withDescendants ++ n.following)).Sublist
      document.root.withDescendants := by
  induction h with
  | root =>
      rw [show document.root.preceding = [] from rfl, show document.root.following = [] from rfl,
        List.append_nil]
      exact .refl _
  | @child parent index tree hparent htree ih =>
      have hparentKind := (hparent.child htree).kind_parent_ne rfl
      refine List.Sublist.trans ?_ (ih hparentKind)
      rw [Node.reverse_preceding_child, Node.following_child, Node.withDescendants_eq htree]
      simp only [List.append_assoc, List.cons_append]
      exact (List.Sublist.refl _).append (List.sublist_cons_self _ _)
  | attr => exact absurd rfl hkind

/-- What is above a node, what precedes it, the node with what is below it and what follows it are
all nodes of the document but the attributes. -/
theorem perm_around (h : document.Holds n) (hkind : n.kind ≠ .attr) :
    (n.ancestors ++ (n.preceding ++ (n.withDescendants ++ n.following))).Perm
      document.root.withDescendants := by
  induction h with
  | root =>
      rw [show document.root.preceding = [] from rfl, show document.root.following = [] from rfl,
        List.append_nil]
      exact .refl _
  | @child parent index tree hparent htree ih =>
      have hparentKind := (hparent.child htree).kind_parent_ne rfl
      refine List.Perm.trans ?_ (ih hparentKind)
      have hpreceding := (List.reverse_perm
        (Node.child parent index (parent.childOrder index) tree).preceding).symm
      rw [Node.reverse_preceding_child] at hpreceding
      have hbefore := hpreceding.trans ((List.reverse_perm parent.preceding).append_right _)
      rw [Node.following_child, Node.withDescendants_eq htree, Node.ancestors, List.cons_append]
      refine List.perm_middle.symm.trans (List.Perm.append_left _ ?_)
      refine (List.Perm.cons parent (hbefore.append_right _)).trans ?_
      simp only [List.append_assoc, List.cons_append]
      exact List.perm_middle.symm
  | attr => exact absurd rfl hkind

/-- For an attribute, what is below its element follows it. -/
theorem perm_around_attr (h : document.Holds n) (hkind : n.kind = .attr) :
    (n.ancestors ++ (n.preceding ++ n.following)).Perm document.root.withDescendants := by
  cases h with
  | root => cases hkind
  | @child _ _ tree _ _ => exact absurd hkind tree.kind_ne.1
  | @attr parent index content hparent hcontent =>
      refine List.Perm.trans ?_
        (hparent.perm_around ((hparent.attr hcontent).kind_parent_ne rfl))
      rw [Node.ancestors, Node.preceding, Node.following, List.cons_append]
      refine List.perm_middle.symm.trans (List.Perm.append_left _ ?_)
      rw [Node.withDescendants, List.cons_append]
      exact List.perm_middle.symm

/-! ## Order -/

/-- The nodes above a node come before it, the nearest last. -/
theorem descending_ancestors (h : document.Holds n) :
    (n :: n.ancestors).Pairwise fun a b => b.order < a.order := by
  induction h with
  | root => exact List.pairwise_singleton _ _
  | child hparent htree ih =>
      exact List.pairwise_cons.2 ⟨fun x hx => (hparent.child htree).order_lt_of_mem_ancestors hx, ih⟩
  | attr hparent hcontent ih =>
      exact List.pairwise_cons.2
        ⟨fun x hx => (hparent.attr hcontent).order_lt_of_mem_ancestors hx, ih⟩

theorem ascending_around (h : document.Holds n) (hkind : n.kind ≠ .attr) :
    Node.Ascending (n.preceding.reverse ++ (n.withDescendants ++ n.following)) :=
  document.root.ascending_withDescendants.sublist (h.preceding_sublist hkind)

theorem ascending_following (h : document.Holds n) : Node.Ascending n.following := by
  cases h with
  | root => exact .nil
  | child hparent htree =>
      exact ((hparent.child htree).ascending_around (Tree.kind_ne _).1).sublist
        ((List.sublist_append_right _ _).trans (List.sublist_append_right _ _))
  | @attr parent index content hparent hcontent =>
      -- behind an attribute comes what is below its element
      have hkind := (hparent.attr hcontent).kind_parent_ne rfl
      refine (hparent.ascending_around hkind).sublist ?_
      rw [Node.following]
      exact ((List.sublist_cons_self _ _).append_right _).trans (List.sublist_append_right _ _)

theorem ascending_reverse_preceding (h : document.Holds n) :
    Node.Ascending n.preceding.reverse := by
  have hnear {n : Node} (h : document.Holds n) (hkind : n.kind ≠ .attr) :
      Node.Ascending n.preceding.reverse :=
    (h.ascending_around hkind).sublist (List.sublist_append_left _ _)
  cases h with
  | root => exact .nil
  | child hparent htree => exact hnear (hparent.child htree) (Tree.kind_ne _).1
  | @attr parent index content hparent hcontent =>
      have hkind := (hparent.attr hcontent).kind_parent_ne rfl
      change Node.Ascending parent.preceding.reverse
      exact hnear hparent hkind

theorem ascending_siblings (h : document.Holds n) :
    Node.Ascending n.precedingSiblings.reverse ∧ Node.Ascending n.followingSiblings := by
  cases h with
  | root => exact ⟨.nil, .nil⟩
  | @child parent index tree hparent htree =>
      have hchildren : Node.Ascending parent.children :=
        parent.ascending_below.sublist (List.sublist_append_right _ _)
      rw [Node.children_eq htree] at hchildren
      exact ⟨hchildren.sublist (List.sublist_append_left _ _),
        hchildren.sublist ((List.sublist_cons_self _ _).trans (List.sublist_append_right _ _))⟩
  | attr => exact ⟨.nil, .nil⟩

/-! ## Before and after -/

section Around

variable (hn : document.Holds n) (hkind : n.kind ≠ .attr)

include hn hkind

theorem order_lt_of_mem_preceding (hx : x ∈ n.preceding) : x.order < n.order :=
  (List.pairwise_append.1 (hn.ascending_around hkind)).2.2 x (List.mem_reverse.2 hx) n
    (List.mem_append_left _ List.mem_cons_self)

theorem order_lt_of_mem_following (hx : x ∈ n.following) : n.order < x.order := by
  obtain ⟨-, hown, -⟩ := List.pairwise_append.1 (hn.ascending_around hkind)
  exact (List.pairwise_append.1 hown).2.2 n List.mem_cons_self x hx

theorem nodup_around :
    (n.ancestors ++ (n.preceding ++ (n.withDescendants ++ n.following))).Nodup :=
  (hn.perm_around hkind).nodup_iff.2 document.root.ascending_withDescendants.nodup

variable (hx : document.Holds x) (hxkind : x.kind ≠ .attr)

include hx hxkind

/-- Where another node may lie, seen from a node. -/
theorem around_cases :
    x ∈ n.ancestors ∨ x ∈ n.preceding ∨ n ∈ x :: x.ancestors ∨ x ∈ n.following := by
  have haround := (hn.perm_around hkind).mem_iff.2 (mem_withDescendants_root.2 ⟨hx, hxkind⟩)
  rw [← hx.mem_withDescendants hxkind]
  simpa only [List.mem_append] using haround

/-- To follow a node is to come after it and not to be below it. -/
theorem mem_following_iff : x ∈ n.following ↔ n.order < x.order ∧ n ∉ x.ancestors := by
  constructor
  · intro hfollowing
    refine ⟨hn.order_lt_of_mem_following hkind hfollowing, fun hmem => ?_⟩
    have hbelow := (hx.mem_withDescendants hxkind).2 (List.mem_cons_of_mem x hmem)
    obtain ⟨-, hrest, -⟩ := List.nodup_append.1 (hn.nodup_around hkind)
    obtain ⟨-, hown, -⟩ := List.nodup_append.1 hrest
    exact (List.nodup_append.1 hown).2.2 x hbelow x hfollowing rfl
  · rintro ⟨hlt, hmem⟩
    obtain habove | hpreceding | hbelow | hfollowing := hn.around_cases hkind hx hxkind
    · exact absurd (hn.order_lt_of_mem_ancestors habove) (Nat.lt_asymm hlt)
    · exact absurd (hn.order_lt_of_mem_preceding hkind hpreceding) (Nat.lt_asymm hlt)
    · obtain rfl | habove := List.mem_cons.1 hbelow
      · exact absurd hlt (Nat.lt_irrefl _)
      · exact absurd habove hmem
    · exact hfollowing

/-- To precede a node is to come before it and not to be above it. -/
theorem mem_preceding_iff : x ∈ n.preceding ↔ x.order < n.order ∧ x ∉ n.ancestors := by
  constructor
  · intro hpreceding
    refine ⟨hn.order_lt_of_mem_preceding hkind hpreceding, fun hmem => ?_⟩
    exact (List.nodup_append.1 (hn.nodup_around hkind)).2.2 x hmem x
      (List.mem_append_left _ hpreceding) rfl
  · rintro ⟨hlt, hmem⟩
    obtain habove | hpreceding | hbelow | hfollowing := hn.around_cases hkind hx hxkind
    · exact absurd habove hmem
    · exact hpreceding
    · obtain rfl | habove := List.mem_cons.1 hbelow
      · exact absurd hlt (Nat.lt_irrefl _)
      · exact absurd (hx.order_lt_of_mem_ancestors habove) (Nat.lt_asymm hlt)
    · exact absurd (hn.order_lt_of_mem_following hkind hfollowing) (Nat.lt_asymm hlt)

/-- One node follows another one if that one precedes it. -/
theorem mem_following_comm : x ∈ n.following ↔ n ∈ x.preceding := by
  rw [hn.mem_following_iff hkind hx hxkind, hx.mem_preceding_iff hxkind hn hkind]

end Around

theorem mem_descendants_iff (hx : document.Holds x) (hkind : x.kind ≠ .attr) :
    x ∈ n.descendants ↔ n ∈ x.ancestors := by
  refine ⟨Node.mem_ancestors_of_mem_descendants, fun hmem => ?_⟩
  obtain rfl | hbelow :=
    List.mem_cons.1 ((hx.mem_withDescendants hkind).2 (List.mem_cons_of_mem x hmem))
  · exact absurd (hx.order_lt_of_mem_ancestors hmem) (Nat.lt_irrefl _)
  · exact hbelow

end Holds

end Document

/-! ## The axes -/

namespace Document.Holds

variable {document : Document} {n x : Node}

theorem of_mem_siblings (h : document.Holds n)
    (hx : x ∈ n.precedingSiblings ∨ x ∈ n.followingSiblings) : document.Holds x := by
  cases h with
  | root => exact hx.elim nofun nofun
  | @child parent index tree hparent htree =>
      refine hparent.of_mem_children ?_
      rw [Node.children_eq htree, List.mem_append, List.mem_reverse, List.mem_cons]
      exact hx.imp_right .inr
  | attr => exact hx.elim nofun nofun

theorem of_mem_around (h : document.Holds n) (hx : x ∈ n.preceding ∨ x ∈ n.following) :
    document.Holds x := by
  suffices hmem : x ∈ document.root.withDescendants from (mem_withDescendants_root.1 hmem).1
  by_cases hkind : n.kind = .attr
  · refine (h.perm_around_attr hkind).mem_iff.1 (List.mem_append_right _ ?_)
    exact List.mem_append.2 hx
  · refine (h.perm_around hkind).mem_iff.1 (List.mem_append_right _ (List.mem_append.2 ?_))
    exact hx.imp_right (List.mem_append_right _)

/-- Every axis of a node that a document has lists nodes that the document has. -/
theorem of_mem_nodes {axis : Axis} (h : document.Holds n) (hx : x ∈ axis.nodes n) :
    document.Holds x := by
  cases axis with
  | child => exact h.of_mem_children hx
  | attr => exact h.of_mem_attributes hx
  | descendant => exact h.of_mem_descendants hx
  | descendantOrSelf =>
      obtain rfl | hx := List.mem_cons.1 hx
      · exact h
      · exact h.of_mem_descendants hx
  | parent => exact h.of_parent (Option.mem_toList.1 hx)
  | ancestor => exact h.of_mem_ancestors hx
  | ancestorOrSelf => exact h.of_mem_self_ancestors hx
  | self =>
      obtain rfl := List.mem_singleton.1 hx
      exact h
  | followingSibling => exact h.of_mem_siblings (.inr hx)
  | precedingSibling => exact h.of_mem_siblings (.inl hx)
  | following => exact h.of_mem_around (.inr hx)
  | preceding => exact h.of_mem_around (.inl hx)

end Document.Holds

namespace Axis

open Document (Holds)

/-- Forward axes list in document order and reverse axes against it. -/
theorem ordered_nodes (axis : Axis) {document : Document} {n : Node} (h : document.Holds n) :
    if axis.isReverse then (axis.nodes n).Pairwise fun a b => b.order < a.order
    else Node.Ascending (axis.nodes n) := by
  have hreverse {nodes : List Node} (hnodes : Node.Ascending nodes.reverse) :
      nodes.Pairwise fun a b => b.order < a.order := List.pairwise_reverse.1 hnodes
  cases axis with
  | child => exact n.ascending_below.sublist (List.sublist_append_right _ _)
  | attr => exact n.ascending_below.sublist (List.sublist_append_left _ _)
  | descendant => exact n.ascending_descendants
  | descendantOrSelf => exact n.ascending_withDescendants
  | parent =>
      change Node.Ascending n.parent.toList
      cases n.parent with
      | none => exact .nil
      | some p => exact Node.ascending_singleton p
  | self => exact Node.ascending_singleton n
  | ancestor => exact (List.pairwise_cons.1 h.descending_ancestors).2
  | ancestorOrSelf => exact h.descending_ancestors
  | followingSibling => exact h.ascending_siblings.2
  | precedingSibling => exact hreverse h.ascending_siblings.1
  | following => exact h.ascending_following
  | preceding => exact hreverse h.ascending_reverse_preceding

/-- **How the axes share out a document.**  The node itself, what is above it, below it, before it
and after it: no node is there twice, and together they are all nodes of the document but the
attributes.  For an attribute, what is above it, before it and after it are.  Every axis lists nodes
without repetition, forward axes in document order and reverse axes against it.  What follows a node
is what the node precedes, and what is below it is what it is above. -/
theorem nodes_divide (document : Document) :
    (∀ n, document.Holds n → n.kind ≠ .attr →
      let around := [self, ancestor, descendant, preceding, following].flatMap (nodes · n)
      around.Nodup ∧ ∀ x, x ∈ around ↔ document.Holds x ∧ x.kind ≠ .attr) ∧
    (∀ n, document.Holds n → n.kind = .attr →
      let around := [ancestor, preceding, following].flatMap (nodes · n)
      around.Nodup ∧ ∀ x, x ∈ around ↔ document.Holds x ∧ x.kind ≠ .attr) ∧
    (∀ (axis : Axis) (n : Node), document.Holds n →
      if axis.isReverse then (axis.nodes n).Pairwise fun a b => b.order < a.order
      else (axis.nodes n).Pairwise fun a b => a.order < b.order) ∧
    ∀ x y, document.Holds x → document.Holds y → x.kind ≠ .attr → y.kind ≠ .attr →
      (y ∈ following.nodes x ↔ x ∈ preceding.nodes y) ∧
        (y ∈ descendant.nodes x ↔ x ∈ ancestor.nodes y) := by
  -- whatever lists the nodes that are no attributes in some order does so without repetition
  have hdivides {around : List Node} (h : around.Perm document.root.withDescendants) :
      around.Nodup ∧ ∀ x, x ∈ around ↔ document.Holds x ∧ x.kind ≠ .attr :=
    ⟨h.nodup_iff.2 document.root.ascending_withDescendants.nodup, fun x =>
      h.mem_iff.trans Document.mem_withDescendants_root⟩
  refine ⟨fun n hn hkind => hdivides ?_, fun n hn hkind => hdivides ?_,
    fun axis n hn => axis.ordered_nodes hn, fun x y hx hy hxkind hykind =>
      ⟨hx.mem_following_comm hxkind hy hykind, hy.mem_descendants_iff hykind⟩⟩
  · refine List.Perm.trans ?_ (hn.perm_around hkind)
    change (n :: (n.ancestors ++ (n.descendants ++ (n.preceding ++ (n.following ++ []))))).Perm _
    rw [List.append_nil, Node.withDescendants, List.cons_append]
    refine List.Perm.trans ?_ (List.Perm.append_left _ List.perm_middle.symm)
    refine List.Perm.trans (List.Perm.cons n (List.Perm.append_left _ ?_)) List.perm_middle.symm
    rw [← List.append_assoc, ← List.append_assoc]
    exact List.perm_append_comm.append_right _
  · change (n.ancestors ++ (n.preceding ++ (n.following ++ []))).Perm _
    rw [List.append_nil]
    exact hn.perm_around_attr hkind

/-- An element with an attribute, an element, a text and another element in it. -/
def mixed : Tree :=
  .element ⟨none, "a"⟩ [⟨⟨none, "k"⟩, "v"⟩]
    [.element ⟨none, "b"⟩ [] [], .text "t", .element ⟨none, "c"⟩ [] [.text "u"]]

/-- That element in a document, and the first and the last element in it. -/
def mixedNode : Node := .child (.root ⟨[mixed]⟩) 0 1 mixed
def firstInMixed : Node := .child mixedNode 0 3 (.element ⟨none, "b"⟩ [] [])
def lastInMixed : Node := .child mixedNode 2 5 (.element ⟨none, "c"⟩ [] [.text "u"])

/-- Around the last element, and around the attribute; the text and the first element lie before the
last one, the text nearer to it. -/
theorem nodes_divide_mixed :
    ((⟨[mixed]⟩ : Document).Holds lastInMixed ∧ (⟨[mixed]⟩ : Document).Holds firstInMixed) ∧
      ([self, ancestor, descendant, preceding, following].flatMap (nodes · lastInMixed)).Nodup ∧
      ([ancestor, preceding, following].flatMap
        (nodes · (.attr mixedNode 0 ⟨⟨none, "k"⟩, "v"⟩))).Nodup ∧
      (preceding.nodes lastInMixed).map Node.order = [4, 3] ∧
      ((preceding.nodes lastInMixed).Pairwise fun a b => b.order < a.order) ∧
      lastInMixed ∈ following.nodes firstInMixed := by
  have hmixed : (⟨[mixed]⟩ : Document).Holds mixedNode := .child .root rfl
  have hfirst : (⟨[mixed]⟩ : Document).Holds firstInMixed := .child hmixed rfl
  have hlast : (⟨[mixed]⟩ : Document).Holds lastInMixed := .child hmixed rfl
  obtain ⟨haround, hattr, hordered, hcomm⟩ := nodes_divide ⟨[mixed]⟩
  refine ⟨⟨hlast, hfirst⟩, (haround _ hlast nofun).1, (hattr _ (.attr hmixed rfl) rfl).1, rfl,
    hordered preceding lastInMixed hlast, ?_⟩
  have hprecedes : firstInMixed ∈ preceding.nodes lastInMixed :=
    List.mem_cons_of_mem _ List.mem_cons_self
  exact (hcomm firstInMixed lastInMixed hfirst hlast nofun nofun).1.2 hprecedes

end Axis

end Restyle
