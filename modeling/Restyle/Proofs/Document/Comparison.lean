import Mathlib
import Restyle.Proofs.Document.Axes
import Restyle.Proofs.Document.Texts

/-!
# Restyle.Proofs.Document.Comparison

How the nodes of a document compare.

An attribute is not a node of its own in a tree of elements: it is found at its element, its *anchor*,
in one of the *slots* behind the element itself.  If numbers are given to the other nodes in document
order, then nodes compare by the numbers of their anchors, and at one anchor by their slots.  This is
the order of the numbers that a document gives to all its nodes, attributes included, so what is known
of that order is true of the comparison.

* `Node.compareBy`, `Node.sameBy` — comparison by anchor and slot;
* `Document.Ascends` — numbers given in document order, with `Document.position` as an example;
* `Document.Holds.compareBy_eq` — comparison by anchor and slot is comparison in document order;
* `Node.stringValue_eq_join` — the text of the root or an element by the text nodes below it;
* `Document.nodes_compare` — the main result.
-/

namespace Restyle

namespace Node

/-! ## Anchors and slots -/

/-- A node itself, or the element of an attribute. -/
def anchor : Node → Node
  | .attr parent _ _ => parent
  | node => node

/-- The place of a node at its anchor: the anchor itself comes first, and then its attributes. -/
def slot : Node → Nat
  | .attr _ index _ => index + 1
  | _ => 0

/-- How two nodes compare, where numbers are given to their anchors. -/
def compareBy (number : Node → Nat) (a b : Node) : Ordering :=
  (compare (number a.anchor) (number b.anchor)).then (compare a.slot b.slot)

/-- Whether two nodes are the same, where numbers are given to their anchors. -/
def sameBy (number : Node → Nat) (a b : Node) : Bool :=
  number a.anchor == number b.anchor && a.slot == b.slot

theorem sameBy_iff {number : Node → Nat} {a b : Node} :
    a.sameBy number b = true ↔ a.compareBy number b = .eq := by
  simp [sameBy, compareBy, Ordering.then_eq_eq]

theorem order_eq (node : Node) : node.order = node.anchor.order + node.slot := by
  cases node with
  | root | child => rfl
  | attr parent index content =>
      simp only [anchor, slot, order]
      omega

theorem mem_anchor_attributes {document : Document} {node : Node} (h : document.Holds node) :
    node ∈ node.anchor :: node.anchor.attributes := by
  cases h with
  | root | child => exact List.mem_cons_self
  | attr hparent hcontent =>
      exact List.mem_cons_of_mem _ ((hparent.attr hcontent).mem_attributes.2 ⟨rfl, rfl⟩)

end Node

namespace Document

variable {document : Document} {number : Node → Nat} {a b c : Node}

theorem Holds.anchor_mem (h : document.Holds a) :
    a.anchor ∈ document.root.withDescendants := by
  rw [mem_withDescendants_root]
  cases h with
  | root => exact ⟨.root, nofun⟩
  | @child parent index tree hparent htree => exact ⟨hparent.child htree, tree.kind_ne.1⟩
  | attr hparent hcontent => exact ⟨hparent, (hparent.attr hcontent).kind_parent_ne rfl⟩

/-! ## Numbers in document order -/

/-- Numbers that ascend over the nodes which are no attributes, from the root downwards and each node
before what is below it. -/
def Ascends (document : Document) (number : Node → Nat) : Prop :=
  document.root.withDescendants.Pairwise fun a b => number a < number b

/-- How many nodes that are no attributes come before a node. -/
def position (document : Document) (node : Node) : Nat :=
  document.root.withDescendants.findIdx node.same

/-- Nodes may be numbered by counting them. -/
theorem ascends_position (document : Document) : document.Ascends document.position := by
  have hascending := List.pairwise_iff_getElem.1 document.root.ascending_withDescendants
  have hposition (i : Nat) (hi : i < document.root.withDescendants.length) :
      document.position document.root.withDescendants[i] = i := by
    refine (List.findIdx_eq hi).2 ⟨by simp [Node.same], fun j hji => ?_⟩
    have hlt := hascending j i (hji.trans hi) hi hji
    simp [Node.same, hlt.ne']
  refine List.pairwise_iff_getElem.2 fun i j hi hj hij => ?_
  rwa [hposition i hi, hposition j hj]

/-- Numbers in document order tell nodes apart. -/
theorem Ascends.eq_of_number_eq (h : document.Ascends number)
    (ha : a ∈ document.root.withDescendants) (hb : b ∈ document.root.withDescendants)
    (heq : number a = number b) : a = b := by
  refine List.Pairwise.forall_of_forall_of_flip (R := fun a b => number a = number b → a = b)
    (fun _ _ _ => rfl) (h.imp fun hlt heq => ?_) (h.imp fun hlt heq => ?_) ha hb heq
  · exact absurd heq hlt.ne
  · exact absurd heq hlt.ne'

/-- A node with its attributes comes before another node with its attributes, if it has the smaller
number. -/
theorem Ascends.order_lt (h : document.Ascends number) (ha : document.Holds a)
    (hb : document.Holds b) (hlt : number a.anchor < number b.anchor) : a.order < b.order := by
  let Before (x y : Node) : Prop :=
    number x < number y → ∀ a ∈ x :: x.attributes, ∀ b ∈ y :: y.attributes, a.order < b.order
  have hlisted := (List.pairwise_flatMap.1 document.root.ascending_listed).2
  have hbefore : document.root.withDescendants.Pairwise Before := by
    refine List.Pairwise.imp ?_ hlisted
    exact fun hbefore _ => hbefore
  have hafter : document.root.withDescendants.Pairwise fun x y => Before y x :=
    h.imp fun hlt hlt' => absurd hlt' hlt.asymm
  exact List.Pairwise.forall_of_forall_of_flip (fun _ _ hlt => absurd hlt (Nat.lt_irrefl _))
    hbefore hafter ha.anchor_mem hb.anchor_mem hlt a (Node.mem_anchor_attributes ha) b
    (Node.mem_anchor_attributes hb)

/-- Comparison by anchor and slot is comparison in document order. -/
theorem Ascends.compareBy_eq (h : document.Ascends number) (ha : document.Holds a)
    (hb : document.Holds b) : a.compareBy number b = compare a.order b.order := by
  unfold Node.compareBy
  obtain hlt | heq | hgt := Nat.lt_trichotomy (number a.anchor) (number b.anchor)
  · rw [Nat.compare_eq_lt.2 hlt, Nat.compare_eq_lt.2 (h.order_lt ha hb hlt)]
    rfl
  · have hanchor := h.eq_of_number_eq ha.anchor_mem hb.anchor_mem heq
    rw [Nat.compare_eq_eq.2 heq, Ordering.eq_then, a.order_eq, b.order_eq, hanchor]
    simp only [Nat.compare_eq_ite_lt]
    congr 1 <;> simp
  · rw [Nat.compare_eq_gt.2 hgt, Nat.compare_eq_gt.2 (h.order_lt hb ha hgt)]
    rfl

/-- To compare as smaller is to come before in document order. -/
theorem Ascends.compareBy_eq_lt (h : document.Ascends number) (ha : document.Holds a)
    (hb : document.Holds b) : a.compareBy number b = .lt ↔ a.order < b.order := by
  rw [h.compareBy_eq ha hb, Nat.compare_eq_lt]

theorem Ascends.compareBy_eq_eq (h : document.Ascends number) (ha : document.Holds a)
    (hb : document.Holds b) : a.compareBy number b = .eq ↔ a = b := by
  rw [h.compareBy_eq ha hb, Nat.compare_eq_eq]
  exact ⟨ha.eq_of_order_eq hb, congrArg Node.order⟩

/-- Nodes of a document that ascend compare as smaller than those after them. -/
theorem Ascends.pairwise_of_ascending (h : document.Ascends number) {nodes : List Node}
    (hnodes : ∀ x ∈ nodes, document.Holds x) (hascending : Node.Ascending nodes) :
    nodes.Pairwise fun a b => a.compareBy number b = .lt :=
  List.Pairwise.imp_of_mem
    (fun ha hb hlt => (h.compareBy_eq_lt (hnodes _ ha) (hnodes _ hb)).2 hlt) hascending

/-! ## Siblings -/

/-- What is below the first of two siblings comes before the second one and all that is below it. -/
theorem Holds.order_lt_of_siblings {p x y : Node} (hx : document.Holds x) (hy : document.Holds y)
    (hpx : x.parent = some p) (hpy : y.parent = some p) (hlt : x.order < y.order)
    (ha : document.Holds a) (hb : document.Holds b) (hax : x ∈ a :: a.ancestors)
    (hby : y ∈ b :: b.ancestors) : a.order < b.order := by
  obtain ⟨-, hlast⟩ := ha.covers_of_mem hax a.covers_order
  have hcovers := hb.covers_of_mem hby b.covers_order
  have hdisjoint : ¬x.Covers b.order := by
    intro hcovers'
    have heq := eq_of_covers hx hy hpx hpy hcovers' hcovers
    exact absurd (heq ▸ hlt) (Nat.lt_irrefl _)
  have hfirst := hcovers.1
  unfold Node.Covers at hdisjoint
  omega

end Document

/-! ## The text below a node -/

namespace Node

/-- The string value of the root or an element joins the text nodes below it. -/
theorem stringValue_eq_join {node : Node} (h : node.MayHaveChildren) :
    node.stringValue = String.join ((textNodes node.descendants).map stringValue) := by
  have hvalue : node.stringValue = String.join (Tree.forestTextsThen [] node.trees) := by
    cases node with
    | root => rfl
    | attr => simp [MayHaveChildren, kind] at h
    | child parent index order tree =>
        cases tree with
        | element => rfl
        | _ => simp [MayHaveChildren, kind, Tree.kind] at h
  have htexts := textNodes_withDescendants node
  rw [withDescendants, textNodes_cons, if_neg h.kind_ne, texts, if_neg h.kind_ne] at htexts
  rw [hvalue, htexts]

theorem attributes_declared (node : Node) :
    node.attributes.map (fun a => (a.name, a.stringValue)) =
      node.held.map fun content => (some content.name, content.value) := by
  refine List.ext_getElem (by simp [attributes]) fun i hi hi' => ?_
  simp [attributes, name, stringValue]

end Node

namespace Document

variable {document : Document} {number : Node → Nat}

/-- **How the nodes of a document compare.**  Let the nodes that are no attributes have numbers in
document order.  Then comparison by anchor and slot is a strict total order in which just the same
nodes are equal, and it is document order.  Whatever is above a node is smaller.  A node comes first,
then its attributes in the order in which they are declared, and then its children, and what is below
one of these comes before the next one and all that is below that.  The attributes and children of a
node have it as their parent, and only the root has none.  The text of the root or an element is that
of the text nodes on its descendant axis, one after the other. -/
theorem nodes_compare (h : document.Ascends number) :
    let before (a b : Node) : Prop := a.compareBy number b = .lt
    (∀ a b, document.Holds a → document.Holds b →
      a.compareBy number b = compare a.order b.order ∧
        b.compareBy number a = (a.compareBy number b).swap ∧
        (a.compareBy number b = .eq ↔ a = b) ∧ (a.sameBy number b = true ↔ a = b) ∧
        (a.same b = true ↔ a = b)) ∧
    (∀ a b c, document.Holds a → document.Holds b → document.Holds c →
      before a b → before b c → before a c) ∧
    (∀ a b, document.Holds b → a ∈ b.ancestors → before a b) ∧
    (∀ n, document.Holds n →
      (n :: (n.attributes ++ n.children)).Pairwise before ∧
        n.attributes.map (fun a => (a.name, a.stringValue)) =
          n.held.map (fun content => (some content.name, content.value)) ∧
        ∀ x ∈ n.attributes ++ n.children, ∀ y ∈ n.attributes ++ n.children, before x y →
          ∀ a b, document.Holds a → document.Holds b → x ∈ a :: a.ancestors →
            y ∈ b :: b.ancestors → before a b) ∧
    (∀ n, document.Holds n →
      (∀ c ∈ n.attributes ++ n.children, document.Holds c ∧ c.parent = some n) ∧
        (n.parent = none ↔ n = document.root)) ∧
    ∀ n, n.kind = .root ∨ n.kind = .element →
      n.stringValue =
        String.join ((Node.textNodes (Axis.descendant.nodes n)).map Node.stringValue) := by
  intro before
  have hbelow {n c : Node} (hn : document.Holds n) (hc : c ∈ n.attributes ++ n.children) :
      document.Holds c ∧ c.parent = some n := by
    obtain hc | hc := List.mem_append.1 hc
    · exact ⟨hn.of_mem_attributes hc, Node.parent_of_mem_attributes hc⟩
    · exact ⟨hn.of_mem_children hc, Node.parent_of_mem_children hc⟩
  refine ⟨fun a b ha hb => ?_, fun a b c ha hb hc hab hbc => ?_, fun a b hb hab => ?_,
    fun n hn => ⟨?_, n.attributes_declared, fun x hx y hy hxy a b ha hb hax hby => ?_⟩,
    fun n hn => ⟨fun c hc => hbelow hn hc, ?_⟩, fun n hn => Node.stringValue_eq_join hn⟩
  · have heq := h.compareBy_eq_eq ha hb
    refine ⟨h.compareBy_eq ha hb, ?_, heq, Node.sameBy_iff.trans heq, ?_⟩
    · rw [h.compareBy_eq ha hb, h.compareBy_eq hb ha, Nat.compare_swap]
    · rw [Node.same, beq_iff_eq]
      exact ⟨ha.eq_of_order_eq hb, congrArg Node.order⟩
  · have hlt := ((h.compareBy_eq_lt ha hb).1 hab).trans ((h.compareBy_eq_lt hb hc).1 hbc)
    exact (h.compareBy_eq_lt ha hc).2 hlt
  · exact (h.compareBy_eq_lt (hb.of_mem_ancestors hab) hb).2 (hb.order_lt_of_mem_ancestors hab)
  · refine h.pairwise_of_ascending (List.forall_mem_cons.2 ⟨hn, fun c hc => (hbelow hn hc).1⟩) ?_
    refine List.pairwise_cons.2 ⟨fun c hc => ?_, n.ascending_below⟩
    exact ((hbelow hn hc).1.extent_le (hbelow hn hc).2).1
  · obtain ⟨hxheld, hpx⟩ := hbelow hn hx
    obtain ⟨hyheld, hpy⟩ := hbelow hn hy
    have hlt := (h.compareBy_eq_lt hxheld hyheld).1 hxy
    exact (h.compareBy_eq_lt ha hb).2
      (hxheld.order_lt_of_siblings hyheld hpx hpy hlt ha hb hax hby)
  · constructor
    · intro hnone
      cases hn with
      | root => rfl
      | child | attr => cases hnone
    · rintro rfl
      rfl

/-- An element with two attributes, an element with a text in it, and another text. -/
def labelled : Tree :=
  .element ⟨none, "a"⟩ [⟨⟨none, "x"⟩, "1"⟩, ⟨⟨none, "y"⟩, "2"⟩]
    [.element ⟨none, "b"⟩ [] [.text "s"], .text "t"]

/-- That element in a document, its second attribute, and what is in it. -/
def labelledNode : Node := .child (.root ⟨[labelled]⟩) 0 1 labelled
def secondLabel : Node := .attr labelledNode 1 ⟨⟨none, "y"⟩, "2"⟩
def firstInLabelled : Node := .child labelledNode 0 4 (.element ⟨none, "b"⟩ [] [.text "s"])
def lastInLabelled : Node := .child labelledNode 1 6 (.text "t")

/-- The second attribute comes before the inner element, and the text in that before the outer text;
the texts make up the text of the element. -/
theorem nodes_compare_labelled :
    let document : Document := ⟨[labelled]⟩
    document.Ascends document.position ∧ document.Holds labelledNode ∧
      secondLabel.compareBy document.position firstInLabelled = .lt ∧
      (Node.child firstInLabelled 0 5 (.text "s")).compareBy document.position lastInLabelled = .lt ∧
      labelledNode.stringValue = String.join ["s", "t"] := by
  intro document
  have helement : document.Holds labelledNode := .child .root rfl
  have hfirst : document.Holds firstInLabelled := .child helement rfl
  have hlast : document.Holds lastInLabelled := .child helement rfl
  have htext : document.Holds (.child firstInLabelled 0 5 (.text "s")) := .child hfirst rfl
  obtain ⟨-, -, -, hfamily, -, hvalue⟩ := nodes_compare (ascends_position document)
  obtain ⟨hpairwise, -, hsiblings⟩ := hfamily labelledNode helement
  -- the element, its two attributes, the inner element and the outer text
  change [labelledNode, .attr labelledNode 0 ⟨⟨none, "x"⟩, "1"⟩, secondLabel, firstInLabelled,
    lastInLabelled].Pairwise _ at hpairwise
  simp only [List.pairwise_cons, List.forall_mem_cons] at hpairwise
  obtain ⟨-, -, ⟨hlabel, -⟩, ⟨hnext, -⟩, -⟩ := hpairwise
  refine ⟨ascends_position document, helement, hlabel, ?_, hvalue labelledNode (.inr rfl)⟩
  have hmem : firstInLabelled ∈ labelledNode.attributes ++ labelledNode.children :=
    List.mem_append_right _ List.mem_cons_self
  have hmem' : lastInLabelled ∈ labelledNode.attributes ++ labelledNode.children :=
    List.mem_append_right _ (List.mem_cons_of_mem _ List.mem_cons_self)
  exact hsiblings _ hmem _ hmem' hnext _ _ htext hlast
    (List.mem_cons_of_mem _ List.mem_cons_self) List.mem_cons_self

end Document

end Restyle
