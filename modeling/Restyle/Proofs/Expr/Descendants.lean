import Mathlib
import Restyle.Proofs.Expr.Ascending
import Restyle.Proofs.Expr.Steps

/-!
# Restyle.Proofs.Expr.Descendants

What the two steps of `//` find, and what a step makes of the list it starts from.

`a//b` is short for two steps, and the first one hands every node below a start to the second, most
of them more than once where starts lie inside each other.  Since each step puts what it finds in
document order, that leaves no trace: the nodes found are those that the descendant axis lists.  For
the same reason a step sees its starts as a set.

* `Node.Ascending.eq_of_mem_iff` — nodes in document order are known by which they are;
* `followStep_of_mem_iff` — a step finds the same from the same nodes;
* `leads_descendant` — one look below a node is a look at the node and all below it, and then at
  children;
* `followSteps_descendant` — the main result.
-/

namespace Restyle

/-- Two lists of nodes in document order with the same members are one list. -/
theorem Node.Ascending.eq_of_mem_iff {as bs : List Node} (ha : Ascending as) (hb : Ascending bs)
    (h : ∀ n, n ∈ as ↔ n ∈ bs) : as = bs := by
  refine List.Perm.eq_of_pairwise (fun a b _ _ hab hba => ?_) ha hb
    ((List.perm_ext_iff_of_nodup ha.nodup hb.nodup).2 h)
  exact absurd hab (Nat.lt_asymm hba)

/-- What is below a node is right below the node or right below something that is below it. -/
theorem Node.exists_mem_children_of_mem_descendants {a n : Node} (h : n ∈ a.descendants) :
    ∃ m ∈ a.withDescendants, n ∈ m.children := by
  refine descendants_induction (P := fun a n => ∃ m ∈ a.withDescendants, n ∈ m.children) ?_ ?_ h
  · intro a c hc
    exact ⟨a, List.mem_cons_self, hc⟩
  · rintro a c n hc ⟨m, hm, hn⟩
    refine ⟨m, List.mem_cons_of_mem a (mem_descendants.2 ⟨c, hc, ?_⟩), hn⟩
    exact List.mem_cons.1 hm

section Steps

variable {ctx : Context} {nodes nodes' : List Node}

/-- A step succeeds if its predicates can be evaluated from each node it starts from. -/
theorem exists_followStep_eq_ok {step : Step} :
    (∃ found, followStep ctx step nodes = .ok found) ↔ ∀ a ∈ nodes,
      ∃ kept, narrow ctx step.predicates (step.axis.candidates step.test a) = .ok kept := by
  obtain ⟨axis, test, predicates⟩ := step
  rw [← exists_mapM_eq_ok, followStep]
  constructor
  · rintro ⟨found, h⟩
    obtain ⟨lists, hlists, -⟩ := bind_eq_ok.1 h
    exact ⟨lists, hlists⟩
  · rintro ⟨lists, hlists⟩
    exact ⟨_, bind_eq_ok.2 ⟨lists, hlists, rfl⟩⟩

/-- Without predicates, a step always succeeds. -/
theorem exists_followStep_bare (ctx : Context) (axis : Axis) (test : NodeTest)
    (nodes : List Node) : ∃ found, followStep ctx ⟨axis, test, []⟩ nodes = .ok found := by
  refine exists_followStep_eq_ok.2 fun a _ => ⟨axis.candidates test a, ?_⟩
  rw [narrow]

/-- One look below a node finds what two looks do: at the node and all below it, and from there at
children. -/
theorem leads_descendant {test : NodeTest} {a n : Node} :
    Leads ctx ⟨.descendant, test, []⟩ a n ↔
      ∃ m, Leads ctx Step.descendantOrSelf a m ∧ Leads ctx ⟨.child, test, []⟩ m n := by
  simp only [leads_descendantOrSelf, leads_bare]
  have htest : test.accepts .descendant n = test.accepts .child n := rfl
  rw [Axis.candidates, List.mem_filter, htest]
  constructor
  · rintro ⟨hmem, haccepts⟩
    obtain ⟨m, hm, hn⟩ := Node.exists_mem_children_of_mem_descendants hmem
    exact ⟨m, hm, List.mem_filter.2 ⟨hn, haccepts⟩⟩
  · rintro ⟨m, hm, hn⟩
    obtain ⟨hn, haccepts⟩ := List.mem_filter.1 hn
    refine ⟨?_, haccepts⟩
    obtain rfl | hm := List.mem_cons.1 hm
    · exact Node.mem_descendants.2 ⟨n, hn, .inl rfl⟩
    · exact Node.mem_descendants_of_mem_children hm hn

variable (hnodes : ∀ a ∈ nodes, ctx.document.Holds a)

include hnodes

/-- A step finds the same from the same nodes, in whatever order and however often they come. -/
theorem followStep_of_mem_iff {step : Step} (hsame : ∀ n, n ∈ nodes ↔ n ∈ nodes') {found : List Node}
    (h : followStep ctx step nodes = .ok found) : followStep ctx step nodes' = .ok found := by
  have hkept := exists_followStep_eq_ok.1 ⟨found, h⟩
  obtain ⟨found', h'⟩ : ∃ found', followStep ctx step nodes' = .ok found' :=
    exists_followStep_eq_ok.2 fun a ha => hkept a ((hsame a).2 ha)
  rw [h']
  refine congrArg Except.ok ((ascending_followStep h').eq_of_mem_iff (ascending_followStep h) ?_)
  intro n
  rw [mem_followStep (fun a ha => hnodes a ((hsame a).2 ha)) h', mem_followStep hnodes h]
  simp only [hsame]

/-- **`//` finds exactly the descendants.**  From any nodes of a document, in any order and however
often they come, the steps that `//` stands for in front of a test find the same list as one step
along the descendant axis: each node that is below one of them and passes the test, once, in document
order.  And what a step finds, if it succeeds, depends on which nodes it starts from and on nothing
else of their list. -/
theorem followSteps_descendant :
    (∀ test : NodeTest, ∃ found,
      followSteps ctx [Step.descendantOrSelf, ⟨.child, test, []⟩] nodes = .ok found ∧
      followSteps ctx [⟨.descendant, test, []⟩] nodes = .ok found ∧
      Node.Ascending found ∧
      ∀ n, n ∈ found ↔ test.accepts .descendant n ∧ ∃ a ∈ nodes, n ∈ a.descendants) ∧
    ∀ (step : Step) (nodes' found : List Node), (∀ n, n ∈ nodes ↔ n ∈ nodes') →
      followStep ctx step nodes = .ok found → followStep ctx step nodes' = .ok found := by
  refine ⟨fun test => ?_, fun step nodes' found hsame h => followStep_of_mem_iff hnodes hsame h⟩
  obtain ⟨below, hbelow⟩ := exists_followStep_bare ctx .descendantOrSelf .node nodes
  obtain ⟨found, hfound⟩ := exists_followStep_bare ctx .child test below
  obtain ⟨found', hfound'⟩ := exists_followStep_bare ctx .descendant test nodes
  have htwo : followSteps ctx [Step.descendantOrSelf, ⟨.child, test, []⟩] nodes = .ok found := by
    simp only [followSteps]
    exact bind_eq_ok.2 ⟨below, hbelow, bind_eq_ok.2 ⟨found, hfound, rfl⟩⟩
  have hone : followSteps ctx [⟨.descendant, test, []⟩] nodes = .ok found' := by
    simp only [followSteps]
    exact bind_eq_ok.2 ⟨found', hfound', rfl⟩
  have hmem (n : Node) : n ∈ found ↔ ∃ a ∈ nodes, Leads ctx ⟨.descendant, test, []⟩ a n := by
    rw [mem_followSteps hnodes htwo]
    simp only [Reaches, exists_eq_right, leads_descendant]
  have hsame : found = found' :=
    (ascending_followStep hfound).eq_of_mem_iff (ascending_followStep hfound') fun n => by
      rw [hmem, mem_followStep hnodes hfound']
  refine ⟨found, htwo, hsame ▸ hone, ascending_followStep hfound, fun n => ?_⟩
  simp only [hmem, leads_bare, Axis.candidates, List.mem_filter]
  constructor
  · rintro ⟨a, ha, hn, htest⟩
    exact ⟨htest, a, ha, hn⟩
  · rintro ⟨htest, a, ha, hn⟩
    exact ⟨a, ha, hn, htest⟩

end Steps

/-- From the last element, the root, the outer element and its attribute, the elements below are three,
however the starts overlap; and the children of the starts that hold something are the same from the
starts in another order, one of them twice. -/
theorem followSteps_descendant_mixed :
    let document : Document := ⟨[Axis.mixed]⟩
    let ctx : Context := ⟨document.root, document, 1, 1, Function.names, fun _ => none⟩
    let attr : Node := .attr Axis.mixedNode 0 ⟨⟨none, "k"⟩, "v"⟩
    let starts := [Axis.lastInMixed, document.root, Axis.mixedNode, attr]
    let others := [Axis.mixedNode, attr, document.root, Axis.lastInMixed, Axis.mixedNode]
    let elements := [Axis.mixedNode, Axis.firstInMixed, Axis.lastInMixed]
    let fullChild : Step := ⟨.child, .any, [.path .context [⟨.child, .node, []⟩]]⟩
    (∀ a ∈ starts, document.Holds a) ∧ (∀ n, n ∈ starts ↔ n ∈ others) ∧
      followSteps ctx [Step.descendantOrSelf, ⟨.child, .any, []⟩] starts = .ok elements ∧
      followSteps ctx [⟨.descendant, .any, []⟩] starts = .ok elements ∧
      followStep ctx fullChild starts = .ok [Axis.mixedNode, Axis.lastInMixed] ∧
      followStep ctx fullChild others = .ok [Axis.mixedNode, Axis.lastInMixed] := by
  intro document ctx attr starts others elements fullChild
  have hmixed : document.Holds Axis.mixedNode := .child .root rfl
  have hheld : ∀ a ∈ starts, ctx.document.Holds a := by
    simp only [starts, List.forall_mem_cons, List.not_mem_nil, false_implies, implies_true, and_true]
    exact ⟨.child hmixed rfl, .root, hmixed, .attr hmixed rfl⟩
  have hsame : ∀ n, n ∈ starts ↔ n ∈ others := by
    intro n
    simp only [starts, others, List.mem_cons, List.not_mem_nil, or_false]
    tauto
  have hchild : followStep ctx fullChild starts =
      .ok [Axis.mixedNode, Axis.lastInMixed] := by cbv
  have helements : followSteps ctx [⟨.descendant, .any, []⟩] starts = .ok elements := by cbv
  obtain ⟨hboth, hset⟩ := followSteps_descendant hheld
  obtain ⟨found, htwo, hone, -⟩ := hboth .any
  obtain rfl := Except.ok.inj (hone.symm.trans helements)
  exact ⟨hheld, hsame, htwo, hone, hchild, hset fullChild others _ hsame hchild⟩

end Restyle
