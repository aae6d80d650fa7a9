import Mathlib
import Restyle.Function
import Restyle.Pattern.Matching

/-!
# Restyle.Proofs.Pattern.EveryNode

Patterns that are for nodes of all kinds.

An alternative of one step without predicates can always tell whether it is for a node, by the kind
and the name of the node alone.  One for all attributes and one for all nodes on the axis of
children leave out nothing but the root.

* `PathPattern.accepts_single` — which nodes an alternative of one step is for;
* `Pattern.belowRoot` — the pattern for all nodes but the root;
* `Pattern.everyNode` — the pattern for all nodes.
-/

namespace Restyle

/-- Which nodes an alternative of one step without predicates is for. -/
theorem PathPattern.accepts_single (ctx : Context) (axis : PatternAxis) (test : NodeTest)
    (node : Node) :
    (⟨false, [⟨axis, test, [], .child⟩]⟩ : PathPattern).accepts ctx node =
      .ok ((⟨axis, test, [], .child⟩ : PatternStep).onAxis node &&
        test.accepts axis.axis node) := by
  change PathPattern.meets ctx false [⟨axis, test, [], .child⟩] node = _
  rw [PathPattern.meets, PatternStep.accepts]
  cases (⟨axis, test, [], .child⟩ : PatternStep).onAxis node && test.accepts axis.axis node <;> rfl

namespace Pattern

/-- The pattern for attributes and for all nodes that are children. -/
def belowRoot : Pattern where
  source := "@*|node()"
  paths := [⟨false, [⟨.attr, .any, [], .child⟩]⟩, ⟨false, [⟨.child, .node, [], .child⟩]⟩]

/-- The pattern for the root, for attributes and for all nodes that are children. -/
def everyNode : Pattern where
  source := "/|@*|node()"
  paths := ⟨true, []⟩ :: belowRoot.paths

theorem parse_everyNode : Pattern.parse Function.names "/|@*|node()" = .ok everyNode := by
  cbv

variable (ctx : Context) (node : Node)

/-- Every alternative can tell whether it is for a node. -/
theorem belowRoot_tells : ∀ path ∈ belowRoot.paths, ∃ b, path.accepts ctx node = .ok b := by
  intro path hpath
  simp only [belowRoot, List.mem_cons, List.not_mem_nil, or_false] at hpath
  obtain rfl | rfl := hpath
  · exact ⟨_, PathPattern.accepts_single ..⟩
  · exact ⟨_, PathPattern.accepts_single ..⟩

theorem belowRoot_accepts (h : node.kind ≠ .root) :
    ∃ path ∈ belowRoot.paths, path.accepts ctx node = .ok true := by
  cases node with
  | root document => exact absurd rfl h
  | attr parent index content => exact ⟨_, List.mem_cons_self, rfl⟩
  | child parent index order tree =>
      refine ⟨_, List.mem_cons_of_mem _ List.mem_cons_self, ?_⟩
      rw [PathPattern.accepts_single]
      cases tree <;> rfl

theorem belowRoot_rejects (document : Document) :
    ∀ path ∈ belowRoot.paths, path.accepts ctx document.root = .ok false := by
  intro path hpath
  simp only [belowRoot, List.mem_cons, List.not_mem_nil, or_false] at hpath
  obtain rfl | rfl := hpath <;> rfl

/-- Every alternative can tell whether it is for a node, and one of them is. -/
theorem everyNode_accepts :
    (∀ path ∈ everyNode.paths, ∃ b, path.accepts ctx node = .ok b) ∧
      ∃ path ∈ everyNode.paths, path.accepts ctx node = .ok true := by
  constructor
  · intro path hpath
    obtain rfl | hpath := List.mem_cons.1 hpath
    · exact ⟨_, rfl⟩
    · exact belowRoot_tells ctx node path hpath
  · by_cases hroot : node.kind = .root
    · exact ⟨_, List.mem_cons_self, by rw [PathPattern.accepts, hroot]; rfl⟩
    · obtain ⟨path, hpath, haccepts⟩ := belowRoot_accepts ctx node hroot
      exact ⟨path, List.mem_cons_of_mem _ hpath, haccepts⟩

end Pattern

end Restyle
