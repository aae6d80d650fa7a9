import Restyle.Document

/-!
# Restyle.Proofs.Document.Order

Nodes and their numbers.

A node takes up the numbers of all that is below it, and its attributes and children share them out
without overlap.  So the number of a node tells which node of the document it is, and putting nodes
in order by their numbers neither loses a node nor adds one.

* `Node.Covers` — the numbers that a node takes up;
* `Document.Holds.eq_or_mem_ancestors` — whatever has one of them is the node or below it;
* `Document.Holds.eq_of_order_eq` — nodes of one document with the same number are the same;
* `Node.mem_inOrder` — putting nodes in order keeps them all.
-/

namespace Restyle

/-! ## Sizes -/

namespace Tree

theorem size_eq (tree : Tree) :
    tree.size = 1 + tree.attributes.length + forestSize tree.children := by
  cases tree <;> simp [size, attributes, children, forestSize]

/-- The trees up to one of them have room for the trees in front of it and for itself. -/
theorem forestSize_take_add {trees : List Tree} {i j : Nat} {tree : Tree}
    (h : trees[i]? = some tree) (hij : i < j) :
    forestSize (trees.take i) + tree.size ≤ forestSize (trees.take j) := by
  induction trees generalizing i j with
  | nil => cases h
  | cons first trees ih =>
      obtain ⟨j, rfl⟩ := Nat.exists_eq_add_one_of_ne_zero (Nat.ne_zero_of_lt hij)
      cases i with
      | zero =>
          obtain rfl := Option.some.inj h
          rw [List.take_zero, List.take_succ_cons, forestSize, forestSize]
          omega
      | succ i =>
          have hrest := ih h (Nat.lt_of_succ_lt_succ hij)
          rw [List.take_succ_cons, List.take_succ_cons, forestSize, forestSize]
          omega

theorem forestSize_take_add_le {trees : List Tree} {i : Nat} {tree : Tree}
    (h : trees[i]? = some tree) :
    forestSize (trees.take i) + tree.size ≤ forestSize trees := by
  obtain ⟨hi, -⟩ := List.getElem?_eq_some_iff.1 h
  have := forestSize_take_add h hi
  rwa [List.take_length] at this

end Tree

namespace Node

/-! ## The numbers that a node takes up -/

/-- How many numbers a node takes up: its own, those of its attributes and those of all below it. -/
def extent (node : Node) : Nat := 1 + node.held.length + Tree.forestSize node.trees

theorem extent_child (parent : Node) (index order : Nat) (tree : Tree) :
    (Node.child parent index order tree).extent = tree.size := tree.size_eq.symm

theorem extent_attr (parent : Node) (index : Nat) (content : Attribute) :
    (Node.attr parent index content).extent = 1 := rfl

/-- Whether a number is one of those that a node takes up. -/
def Covers (node : Node) (number : Nat) : Prop :=
  node.order ≤ number ∧ number < node.order + node.extent

theorem covers_order (node : Node) : node.Covers node.order := by
  refine ⟨Nat.le_refl _, ?_⟩
  rw [extent]
  omega

/-- A child takes up its numbers behind the attributes of its parent and the children before it. -/
theorem covers_child {parent : Node} {index number : Nat} {tree : Tree} :
    (Node.child parent index (parent.childOrder index) tree).Covers number ↔
      parent.orderBelow + Tree.forestSize (parent.trees.take index) ≤ number ∧
        number < parent.orderBelow + Tree.forestSize (parent.trees.take index) + tree.size := by
  rw [Covers, extent_child, order, childOrder]

theorem covers_attr {parent : Node} {index number : Nat} {content : Attribute} :
    (Node.attr parent index content).Covers number ↔ number = parent.order + 1 + index := by
  rw [Covers, extent_attr, order]
  omega

/-- On the way down to a node there is one right below each node above it. -/
theorem exists_below_of_mem_ancestors {p y : Node} (h : p ∈ y.ancestors) :
    ∃ z ∈ y :: y.ancestors, z.parent = some p := by
  induction y with
  | root document => cases h
  | child parent index order tree ih | attr parent index content ih =>
      rcases List.mem_cons.1 h with rfl | h
      · exact ⟨_, List.mem_cons_self, rfl⟩
      · obtain ⟨z, hz, hparent⟩ := ih h
        exact ⟨z, List.mem_cons_of_mem _ hz, hparent⟩

end Node

namespace Document.Holds

variable {document : Document} {x y p : Node}

theorem of_mem_ancestors (h : document.Holds y) (hx : x ∈ y.ancestors) : document.Holds x := by
  induction h with
  | root => cases hx
  | child hparent _ ih | attr hparent _ ih =>
      rcases List.mem_cons.1 hx with rfl | hx
      · exact hparent
      · exact ih hx

theorem of_mem_self_ancestors (h : document.Holds y) (hx : x ∈ y :: y.ancestors) :
    document.Holds x := by
  rcases List.mem_cons.1 hx with rfl | hx
  · exact h
  · exact h.of_mem_ancestors hx

theorem root_mem (h : document.Holds y) : document.root ∈ y :: y.ancestors := by
  induction h with
  | root => exact List.mem_cons_self
  | child _ _ ih | attr _ _ ih => exact List.mem_cons_of_mem _ ih

/-- A node takes up some of the numbers of the node above it, and not its own. -/
theorem extent_le (h : document.Holds x) (hp : x.parent = some p) :
    p.order < x.order ∧ x.order + x.extent ≤ p.order + p.extent := by
  cases h with
  | root => cases hp
  | child _ htree =>
      obtain rfl := Option.some.inj hp
      have hsize := Tree.forestSize_take_add_le htree
      rw [Node.extent_child, Node.order, Node.childOrder, Node.orderBelow, Node.extent]
      omega
  | attr _ hcontent =>
      obtain rfl := Option.some.inj hp
      obtain ⟨hindex, -⟩ := List.getElem?_eq_some_iff.1 hcontent
      rw [Node.extent_attr, Node.order, Node.extent]
      omega

theorem covers_parent (h : document.Holds x) (hp : x.parent = some p) {number : Nat}
    (hx : x.Covers number) : p.Covers number ∧ p.order < number := by
  obtain ⟨hlt, hle⟩ := h.extent_le hp
  obtain ⟨hfirst, hlast⟩ := hx
  exact ⟨⟨by omega, by omega⟩, by omega⟩

theorem covers_of_mem (h : document.Holds y) (hx : x ∈ y :: y.ancestors) {number : Nat}
    (hy : y.Covers number) : x.Covers number := by
  induction h with
  | root =>
      obtain rfl := List.mem_singleton.1 hx
      exact hy
  | child hparent htree ih =>
      rcases List.mem_cons.1 hx with rfl | hx
      · exact hy
      · exact ih hx ((hparent.child htree).covers_parent rfl hy).1
  | attr hparent hcontent ih =>
      rcases List.mem_cons.1 hx with rfl | hx
      · exact hy
      · exact ih hx ((hparent.attr hcontent).covers_parent rfl hy).1

theorem order_lt_of_mem_ancestors (h : document.Holds y) (hx : x ∈ y.ancestors) :
    x.order < y.order := by
  obtain ⟨z, hz, hparent⟩ := Node.exists_below_of_mem_ancestors hx
  have hheld : document.Holds z := h.of_mem_self_ancestors hz
  exact (hheld.covers_parent hparent (h.covers_of_mem hz y.covers_order)).2

/-- No number is taken up by two nodes below the same node. -/
theorem eq_of_covers (hx : document.Holds x) (hy : document.Holds y) (hpx : x.parent = some p)
    (hpy : y.parent = some p) {number : Nat} (hcx : x.Covers number) (hcy : y.Covers number) :
    x = y := by
  cases hx with
  | root => cases hpx
  | @child _ i tree _ htree =>
      obtain rfl := Option.some.inj hpx
      rw [Node.covers_child] at hcx
      cases hy with
      | root => cases hpy
      | @child _ j tree' _ htree' =>
          obtain rfl := Option.some.inj hpy
          rw [Node.covers_child] at hcy
          rcases Nat.lt_trichotomy i j with hij | rfl | hij
          · have := Tree.forestSize_take_add htree hij
            omega
          · rw [Option.some.inj (htree.symm.trans htree')]
          · have := Tree.forestSize_take_add htree' hij
            omega
      | @attr _ j content _ hcontent =>
          obtain rfl := Option.some.inj hpy
          obtain ⟨hj, -⟩ := List.getElem?_eq_some_iff.1 hcontent
          rw [Node.covers_attr] at hcy
          rw [Node.orderBelow] at hcx
          omega
  | @attr _ i content _ hcontent =>
      obtain rfl := Option.some.inj hpx
      obtain ⟨hi, -⟩ := List.getElem?_eq_some_iff.1 hcontent
      rw [Node.covers_attr] at hcx
      cases hy with
      | root => cases hpy
      | @child _ j tree _ htree =>
          obtain rfl := Option.some.inj hpy
          rw [Node.covers_child, Node.orderBelow] at hcy
          omega
      | @attr _ j content' _ hcontent' =>
          obtain rfl := Option.some.inj hpy
          rw [Node.covers_attr] at hcy
          obtain rfl : i = j := by omega
          rw [Option.some.inj (hcontent.symm.trans hcontent')]

/-- Whatever has one of the numbers that a node takes up is that node or below it. -/
theorem eq_or_mem_ancestors (hx : document.Holds x) (hy : document.Holds y)
    (h : x.Covers y.order) : x = y ∨ x ∈ y.ancestors := by
  -- From the top down: the way to `y` leads through the node above `x`, and then through `x`.
  have hbelow {x p : Node} (hx : document.Holds x) (hp : x.parent = some p)
      (h : x.Covers y.order) (ih : p.Covers y.order → p = y ∨ p ∈ y.ancestors) :
      x = y ∨ x ∈ y.ancestors := by
    obtain ⟨hcovers, hlt⟩ := hx.covers_parent hp h
    rcases ih hcovers with rfl | hmem
    · exact absurd hlt (Nat.lt_irrefl _)
    · obtain ⟨z, hz, hpz⟩ := Node.exists_below_of_mem_ancestors hmem
      have hheld : document.Holds z := hy.of_mem_self_ancestors hz
      obtain rfl := eq_of_covers hx hheld hp hpz h (hy.covers_of_mem hz y.covers_order)
      exact List.mem_cons.1 hz
  induction hx with
  | root => exact List.mem_cons.1 hy.root_mem
  | child hparent htree ih => exact hbelow (hparent.child htree) rfl h ih
  | attr hparent hcontent ih => exact hbelow (hparent.attr hcontent) rfl h ih

/-- Nodes of one document with the same number are the same. -/
theorem eq_of_order_eq (hx : document.Holds x) (hy : document.Holds y) (h : x.order = y.order) :
    x = y := by
  rcases hx.eq_or_mem_ancestors hy (h ▸ x.covers_order) with rfl | hmem
  · rfl
  · exact absurd h (Nat.ne_of_lt (hy.order_lt_of_mem_ancestors hmem))

end Document.Holds

/-! ## Nodes in order -/

namespace Node

/-- One list has only nodes of another, and a node for each number of theirs. -/
structure Represents (kept nodes : List Node) : Prop where
  mem {x : Node} : x ∈ kept → x ∈ nodes
  exists_mem {x : Node} : x ∈ nodes → ∃ y ∈ kept, y.order = x.order

namespace Represents

theorem refl (nodes : List Node) : Represents nodes nodes := ⟨id, fun h => ⟨_, h, rfl⟩⟩

theorem trans {as bs cs : List Node} (hab : Represents as bs) (hbc : Represents bs cs) :
    Represents as cs where
  mem h := hbc.mem (hab.mem h)
  exists_mem h := by
    obtain ⟨y, hy, horder⟩ := hbc.exists_mem h
    obtain ⟨z, hz, horder'⟩ := hab.exists_mem hy
    exact ⟨z, hz, horder'.trans horder⟩

theorem append {as bs cs ds : List Node} (hab : Represents as bs) (hcd : Represents cs ds) :
    Represents (as ++ cs) (bs ++ ds) where
  mem h := List.mem_append.2 ((List.mem_append.1 h).imp hab.mem hcd.mem)
  exists_mem h := by
    rcases List.mem_append.1 h with h | h
    · obtain ⟨y, hy, horder⟩ := hab.exists_mem h
      exact ⟨y, List.mem_append_left _ hy, horder⟩
    · obtain ⟨y, hy, horder⟩ := hcd.exists_mem h
      exact ⟨y, List.mem_append_right _ hy, horder⟩

/-- A node may be put in front of nodes that stand for the others. -/
theorem cons {kept others nodes : List Node} {a : Node} (h : Represents kept others)
    (hmem : a ∈ nodes) (hothers : ∀ x ∈ others, x ∈ nodes)
    (hnodes : ∀ x ∈ nodes, x.order = a.order ∨ x ∈ others) : Represents (a :: kept) nodes where
  mem hx := by
    rcases List.mem_cons.1 hx with rfl | hx
    · exact hmem
    · exact hothers _ (h.mem hx)
  exists_mem hx := by
    rcases hnodes _ hx with horder | hx
    · exact ⟨a, List.mem_cons_self, horder.symm⟩
    · obtain ⟨y, hy, horder⟩ := h.exists_mem hx
      exact ⟨y, List.mem_cons_of_mem a hy, horder⟩

end Represents

theorem represents_merge (as bs : List Node) : Represents (merge as bs) (as ++ bs) := by
  fun_induction merge as bs with
  | case1 bs => exact .refl bs
  | case2 as => rw [List.append_nil]; exact .refl as
  | case3 a as b bs hlt ih =>
      refine ih.cons List.mem_cons_self (fun x hx => List.mem_cons_of_mem a hx) fun x hx => ?_
      rcases List.mem_cons.1 hx with rfl | hx
      · exact .inl rfl
      · exact .inr hx
  | case4 a as b bs hge hlt ih =>
      have hsub : bs.Sublist (b :: bs) := List.sublist_cons_self b bs
      refine ih.cons (by simp) (fun x hx => (hsub.append_left (a :: as)).subset hx) fun x hx => ?_
      simp only [List.mem_append, List.mem_cons] at hx ⊢
      rcases hx with hx | rfl | hx
      · exact .inr (.inl hx)
      · exact .inl rfl
      · exact .inr (.inr hx)
  | case5 a as b bs hge hge' ih =>
      have hsub : bs.Sublist (b :: bs) := List.sublist_cons_self b bs
      have hboth : (as ++ bs).Sublist (a :: as ++ b :: bs) :=
        (List.sublist_cons_self a as).append hsub
      refine ih.cons List.mem_cons_self (fun x hx => hboth.subset hx) fun x hx => ?_
      simp only [List.mem_append, List.mem_cons] at hx ⊢
      rcases hx with (rfl | hx) | rfl | hx
      · exact .inl rfl
      · exact .inr (.inl hx)
      · exact .inl (by omega)
      · exact .inr (.inr hx)

theorem represents_mergePairs (lists : List (List Node)) :
    Represents (mergePairs lists).flatten lists.flatten := by
  fun_induction mergePairs lists with
  | case1 as bs lists ih =>
      rw [List.flatten_cons, List.flatten_cons, List.flatten_cons, ← List.append_assoc]
      exact (represents_merge as bs).append ih
  | case2 => exact .refl _

theorem represents_mergeAll (lists : List (List Node)) :
    Represents (mergeAll lists) lists.flatten := by
  fun_induction mergeAll lists with
  | case1 => exact .refl _
  | case2 nodes => rw [List.flatten_singleton]; exact .refl nodes
  | case3 as bs lists ih => exact ih.trans (represents_mergePairs (as :: bs :: lists))

theorem flatten_runs (nodes : List Node) : (runs nodes).flatten = nodes := by
  induction nodes with
  | nil => rfl
  | cons a nodes ih =>
      unfold runs
      split
      · next b run others hruns =>
        rw [hruns] at ih
        split
        · rw [← ih]
          rfl
        · rw [← ih]
          rfl
      · rw [List.flatten_cons, ih]
        rfl

theorem represents_inOrder (nodes : List Node) : Represents (inOrder nodes) nodes := by
  have h := represents_mergeAll (runs nodes)
  rwa [flatten_runs] at h

/-- Putting nodes of a document in order keeps them all. -/
theorem mem_inOrder {document : Document} {nodes : List Node}
    (hnodes : ∀ x ∈ nodes, document.Holds x) {x : Node} : x ∈ inOrder nodes ↔ x ∈ nodes := by
  constructor
  · exact (represents_inOrder nodes).mem
  · intro hx
    obtain ⟨y, hy, horder⟩ := (represents_inOrder nodes).exists_mem hx
    have hheld := hnodes y ((represents_inOrder nodes).mem hy)
    rwa [← hheld.eq_of_order_eq (hnodes x hx) horder]

end Node

end Restyle
