import Restyle.Proofs.Document.Below

/-!
# Restyle.Proofs.Document.Ascending

Lists of nodes in strictly ascending order.

Nodes are put in order by merging runs, and what comes of that ascends whatever the list was before.
That the numbers compared are those of document order is a fact of its own: the nodes of a document,
listed as they stand in it, are numbered from zero on.

* `Node.ascending_inOrder`, `Node.inOrder_of_ascending` — nodes put in order ascend, and ascending
  nodes stay as they are;
* `Document.map_order_nodes`, `Document.mem_nodes` — the numbers are those of document order;
* `Node.ascending_descendants`, `Node.ascending_below` — what is below a node ascends.
-/

namespace Restyle

namespace Node

/-- Whether nodes come in document order, each once. -/
def Ascending (nodes : List Node) : Prop := nodes.Pairwise fun a b => a.order < b.order

theorem ascending_singleton (node : Node) : Ascending [node] := List.pairwise_singleton _ _

theorem Ascending.sublist {kept nodes : List Node} (h : Ascending nodes)
    (hkept : kept.Sublist nodes) : Ascending kept := List.Pairwise.sublist hkept h

/-- The first of ascending nodes is the first one in document order. -/
theorem Ascending.order_le {first : Node} {others : List Node} (h : Ascending (first :: others))
    {node : Node} (hnode : node ∈ first :: others) : first.order ≤ node.order := by
  rcases List.mem_cons.1 hnode with rfl | hnode
  · exact Nat.le_refl _
  · exact Nat.le_of_lt (List.rel_of_pairwise_cons h hnode)

/-! ## Nodes put in order -/

theorem ascending_merge {as bs : List Node} (ha : Ascending as) (hb : Ascending bs) :
    Ascending (merge as bs) := by
  fun_induction merge as bs with
  | case1 bs => exact hb
  | case2 as => exact ha
  | case3 a as b bs hlt ih =>
      obtain ⟨hfirst, ha⟩ := List.pairwise_cons.1 ha
      refine List.pairwise_cons.2 ⟨fun x hx => ?_, ih ha hb⟩
      rcases List.mem_append.1 ((represents_merge as (b :: bs)).mem hx) with hx | hx
      · exact hfirst x hx
      · exact Nat.lt_of_lt_of_le hlt (hb.order_le hx)
  | case4 a as b bs hge hlt ih =>
      obtain ⟨hfirst, hb⟩ := List.pairwise_cons.1 hb
      refine List.pairwise_cons.2 ⟨fun x hx => ?_, ih ha hb⟩
      rcases List.mem_append.1 ((represents_merge (a :: as) bs).mem hx) with hx | hx
      · exact Nat.lt_of_lt_of_le hlt (ha.order_le hx)
      · exact hfirst x hx
  | case5 a as b bs hge hge' ih =>
      obtain ⟨hfirst, ha⟩ := List.pairwise_cons.1 ha
      obtain ⟨hfirst', hb⟩ := List.pairwise_cons.1 hb
      refine List.pairwise_cons.2 ⟨fun x hx => ?_, ih ha hb⟩
      rcases List.mem_append.1 ((represents_merge as bs).mem hx) with hx | hx
      · exact hfirst x hx
      · have horder : a.order = b.order := by omega
        exact horder ▸ hfirst' x hx

theorem ascending_mergePairs {lists : List (List Node)} (h : ∀ nodes ∈ lists, Ascending nodes) :
    ∀ nodes ∈ mergePairs lists, Ascending nodes := by
  fun_induction mergePairs lists with
  | case1 as bs lists ih =>
      rw [List.forall_mem_cons, List.forall_mem_cons] at h
      obtain ⟨has, hbs, hlists⟩ := h
      exact List.forall_mem_cons.2 ⟨ascending_merge has hbs, ih hlists⟩
  | case2 => exact h

theorem ascending_mergeAll {lists : List (List Node)} (h : ∀ nodes ∈ lists, Ascending nodes) :
    Ascending (mergeAll lists) := by
  fun_induction mergeAll lists with
  | case1 => exact .nil
  | case2 nodes => exact h nodes List.mem_cons_self
  | case3 as bs lists ih => exact ih (ascending_mergePairs h)

theorem ascending_runs (nodes : List Node) : ∀ run ∈ runs nodes, Ascending run := by
  induction nodes with
  | nil => exact List.forall_mem_nil _
  | cons a nodes ih =>
      unfold runs
      split
      · next b run others hruns =>
        rw [hruns, List.forall_mem_cons] at ih
        obtain ⟨hrun, hothers⟩ := ih
        split
        · next hlt =>
          refine List.forall_mem_cons.2 ⟨List.pairwise_cons.2 ⟨fun x hx => ?_, hrun⟩, hothers⟩
          exact Nat.lt_of_lt_of_le hlt (hrun.order_le hx)
        · exact List.forall_mem_cons.2
            ⟨ascending_singleton a, List.forall_mem_cons.2 ⟨hrun, hothers⟩⟩
      · exact List.forall_mem_cons.2 ⟨ascending_singleton a, ih⟩

/-- Nodes put in order ascend, whatever the order was before. -/
theorem ascending_inOrder (nodes : List Node) : Ascending (inOrder nodes) :=
  ascending_mergeAll (ascending_runs nodes)

theorem runs_of_ascending {node : Node} {nodes : List Node} (h : Ascending (node :: nodes)) :
    runs (node :: nodes) = [node :: nodes] := by
  induction nodes generalizing node with
  | nil => rfl
  | cons next others ih =>
      obtain ⟨hfirst, hnext⟩ := List.pairwise_cons.1 h
      rw [runs, ih hnext]
      exact if_pos (hfirst next List.mem_cons_self)

/-- Nodes that are in order stay as they are. -/
theorem inOrder_of_ascending {nodes : List Node} (h : Ascending nodes) : inOrder nodes = nodes := by
  unfold inOrder
  cases nodes with
  | nil => rw [runs, mergeAll]
  | cons node others => rw [runs_of_ascending h, mergeAll]

/-! ## The nodes of a document in order -/

/-- A node and all that is below it, each node with its attributes behind it. -/
def listed (node : Node) : List Node :=
  node.withDescendants.flatMap fun below => below :: below.attributes

theorem map_order_attributes (node : Node) :
    node.attributes.map order = List.range' (node.order + 1) node.held.length := by
  refine List.ext_getElem (by simp [attributes]) fun i hi hi' => ?_
  simp [attributes, order]

theorem listed_eq (node : Node) :
    node.listed = node :: node.attributes ++ node.children.flatMap listed := by
  rw [listed, withDescendants, descendants_eq, List.flatMap_cons, List.flatMap_assoc]
  rfl

/-- A node is listed with its numbers one after another, if what is below it is. -/
theorem map_order_listed_of_children {node : Node}
    (h : (node.children.flatMap listed).map order =
      List.range' node.orderBelow (Tree.forestSize node.trees)) :
    node.listed.map order = List.range' node.order node.extent := by
  rw [listed_eq, List.cons_append, List.map_cons, List.map_append, map_order_attributes, h,
    orderBelow, List.range'_append_1, extent, Nat.add_assoc 1, Nat.add_comm 1, List.range'_succ]

mutual

theorem map_order_listed_child (parent : Node) (index number : Nat) : (tree : Tree) →
    (Node.child parent index number tree).listed.map order = List.range' number tree.size
  | .element name attributes children => by
      have h := map_order_listed_forest
        (.child parent index number (.element name attributes children)) 0
        (number + 1 + attributes.length) children
      rw [map_order_listed_of_children h, extent_child]
      rfl
  | .text content => rfl
  | .comment content => rfl
  | .instruction target content => rfl

theorem map_order_listed_forest (parent : Node) (index number : Nat) : (trees : List Tree) →
    ((childrenFrom parent index number trees).flatMap listed).map order =
      List.range' number (Tree.forestSize trees)
  | [] => rfl
  | tree :: trees => by
      rw [childrenFrom, List.flatMap_cons, List.map_append,
        map_order_listed_child parent index number tree,
        map_order_listed_forest parent (index + 1) (number + tree.size) trees, Tree.forestSize,
        List.range'_append_1]

end

theorem map_order_listed (node : Node) :
    node.listed.map order = List.range' node.order node.extent :=
  map_order_listed_of_children (map_order_listed_forest node 0 node.orderBelow node.trees)

theorem ascending_listed (node : Node) : Ascending node.listed := by
  have h : (node.listed.map order).Pairwise (· < ·) := by
    rw [map_order_listed]
    exact List.pairwise_lt_range'
  exact List.pairwise_map.1 h

theorem sublist_flatMap {f : Node → List Node} (h : ∀ node, ∃ below, f node = node :: below)
    (nodes : List Node) : nodes.Sublist (nodes.flatMap f) := by
  induction nodes with
  | nil => exact .slnil
  | cons node others ih =>
      obtain ⟨below, hbelow⟩ := h node
      rw [List.flatMap_cons, hbelow]
      exact (ih.trans (List.sublist_append_right _ _)).cons_cons node

/-- What is below a node comes in document order, attributes left out. -/
theorem ascending_descendants (node : Node) : Ascending node.descendants :=
  node.ascending_listed.sublist
    ((List.sublist_cons_self node _).trans (sublist_flatMap (fun _ => ⟨_, rfl⟩) _))

/-- The attributes of a node come in document order, and its children after them. -/
theorem ascending_below (node : Node) : Ascending (node.attributes ++ node.children) := by
  have hchildren : node.children.Sublist (node.children.flatMap listed) :=
    sublist_flatMap (fun _ => ⟨_, rfl⟩) _
  have h := node.ascending_listed
  rw [listed_eq, List.cons_append] at h
  exact (List.pairwise_cons.1 h).2.sublist ((List.Sublist.refl _).append hchildren)

end Node

namespace Document

theorem nodes_eq (document : Document) : document.nodes = document.root.listed := rfl

/-- **Document order.**  The nodes of a document, in the order in which they stand in it, are
numbered from zero on. -/
theorem map_order_nodes (document : Document) :
    document.nodes.map Node.order = List.range document.nodes.length := by
  have h := document.root.map_order_listed
  rw [← nodes_eq] at h
  have hlength := congrArg List.length h
  rw [List.length_map, List.length_range'] at hlength
  rw [h, hlength, List.range_eq_range']
  rfl

/-- These are the nodes that the document has. -/
theorem mem_nodes {document : Document} {node : Node} :
    node ∈ document.nodes ↔ document.Holds node := by
  unfold nodes
  simp only [List.mem_flatMap, List.mem_cons]
  constructor
  · rintro ⟨above, habove, hnode⟩
    have hheld : document.Holds above := by
      rcases habove with rfl | habove
      · exact .root
      · exact Holds.root.of_mem_descendants habove
    rcases hnode with rfl | hnode
    · exact hheld
    · exact hheld.of_mem_attributes hnode
  · intro h
    have hbelow {above : Node} (habove : document.Holds above) (hkind : above.kind ≠ .attr) :
        above = document.root ∨ above ∈ document.root.descendants :=
      List.mem_cons.1 ((habove.mem_withDescendants hkind).2 habove.root_mem)
    cases h with
    | root => exact ⟨_, .inl rfl, .inl rfl⟩
    | @child parent index tree hparent htree =>
        exact ⟨_, hbelow (hparent.child htree) tree.kind_ne.1, .inl rfl⟩
    | @attr parent index content hparent hcontent =>
        have hattr := hparent.attr hcontent
        exact ⟨parent, hbelow hparent (hattr.kind_parent_ne rfl),
          .inr (hattr.mem_attributes.2 ⟨rfl, rfl⟩)⟩

end Document

end Restyle
