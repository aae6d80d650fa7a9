import Restyle.Proofs.Document.Ascending
import Restyle.Proofs.Expr.Steps

/-!
# Restyle.Proofs.Expr.Ascending

Node-sets come in document order.

Steps and unions put what they find in order, predicates leave the order as it is, and `id` looks
from the root down.  The only other node-sets are those that variables stand for.

* `Value.Ascending` — a value is no node-set, or one whose nodes come in order, each once;
* `Value.Ascending.exists_first` — the first node in document order is the one that counts;
* `Expr.ascending_eval` — the values of expressions.
-/

namespace Restyle

/-- Whether the nodes of a value, if it is a node-set, come in document order, each once. -/
def Value.Ascending : Value → Prop
  | .nodes ns => Node.Ascending ns
  | .string _ | .number _ | .boolean _ => True

namespace Value

/-- A node-set counts as the text and the number of its first node in document order. -/
theorem Ascending.exists_first {nodes : List Node} (h : (Value.nodes nodes).Ascending)
    (hnodes : nodes ≠ []) :
    ∃ first ∈ nodes, (∀ node ∈ nodes, first.order ≤ node.order) ∧
      (Value.nodes nodes).toText = first.stringValue ∧
        (Value.nodes nodes).toNumber = readNumber first.stringValue := by
  cases nodes with
  | nil => exact absurd rfl hnodes
  | cons first others =>
      exact ⟨first, List.mem_cons_self, fun node hnode => Node.Ascending.order_le h hnode, rfl, rfl⟩

theorem ascending_of_expectNodes {role : NodesRole} {value : Value} {nodes : List Node}
    (h : value.Ascending) (hnodes : value.expectNodes role = .ok nodes) :
    Node.Ascending nodes := by
  cases value with
  | nodes others =>
      obtain rfl := Except.ok.inj hnodes
      exact h
  | string | number | boolean => cases hnodes

end Value

/-! ## Functions and operators -/

namespace Function

theorem ascending_elementsById (document : Document) (text : String) :
    Node.Ascending (elementsById document text) :=
  document.root.ascending_descendants.sublist List.filter_sublist

/-- The nodes that a function finds come in order. -/
theorem ascending_apply {ctx : Context} {f : Function} {args : List Value} {value : Value}
    (h : f.apply ctx args = .ok value) : value.Ascending := by
  cases f with
  | id =>
      obtain ⟨arg, -, h⟩ := bind_eq_ok.1 h
      cases arg <;> obtain rfl := Except.ok.inj h <;> exact ascending_elementsById _ _
  | concat | substring | translate | number =>
      unfold apply at h
      dsimp only at h
      split at h <;> cases h <;> trivial
  | _ =>
      obtain ⟨_, -, h⟩ := bind_eq_ok.1 h
      obtain rfl := Except.ok.inj h
      trivial

end Function

theorem Context.ascending_call {ctx : Context} {name : String} {args : List Value} {value : Value}
    (h : ctx.call name args = .ok value) : value.Ascending := by
  unfold Context.call at h
  split at h
  · split at h
    · exact Function.ascending_apply h
    · cases h
  · cases h

theorem BinaryOp.ascending_apply {op : BinaryOp} {left right value : Value}
    (h : op.apply left right = .ok value) : value.Ascending := by
  cases op with
  | union =>
      change left.union right = .ok value at h
      unfold Value.union at h
      split at h
      · obtain rfl := Except.ok.inj h
        exact Node.ascending_inOrder _
      · cases h
  | _ =>
      obtain rfl := Except.ok.inj h
      trivial

/-! ## Steps -/

theorem ascending_followStep {ctx : Context} {step : Step} {nodes reached : List Node}
    (h : followStep ctx step nodes = .ok reached) : Node.Ascending reached := by
  obtain ⟨axis, test, predicates⟩ := step
  rw [followStep] at h
  obtain ⟨found, -, h⟩ := bind_eq_ok.1 h
  obtain rfl := Except.ok.inj h
  exact Node.ascending_inOrder _

/-- Where there are no steps, the nodes are those that the path starts at. -/
theorem ascending_followSteps {ctx : Context} {steps : List Step} {nodes reached : List Node}
    (hnodes : Node.Ascending nodes) (h : followSteps ctx steps nodes = .ok reached) :
    Node.Ascending reached := by
  induction steps generalizing nodes with
  | nil =>
      rw [followSteps] at h
      obtain rfl := Except.ok.inj h
      exact hnodes
  | cons step steps ih =>
      rw [followSteps] at h
      obtain ⟨found, hfound, h⟩ := bind_eq_ok.1 h
      exact ih (ascending_followStep hfound) h

/-! ## Expressions -/

section Eval

variable {ctx : Context}
  (hbound : ∀ name value, ctx.bound name = some value → value.Ascending)

include hbound

set_option linter.unusedSectionVars false

mutual

/-- **Node-sets in document order.**  Where the node-sets that variables stand for come in document
order, each node once, so does the value of every expression. -/
theorem Expr.ascending_eval {value : Value} : (e : Expr) → e.eval ctx = .ok value → value.Ascending
  | .literal text, h => by
      rw [Expr.eval] at h
      obtain rfl := Except.ok.inj h
      trivial
  | .number number, h => by
      rw [Expr.eval] at h
      obtain rfl := Except.ok.inj h
      trivial
  | .variable name, h => by
      rw [Expr.eval] at h
      split at h
      · next value' hvalue =>
        obtain rfl := Except.ok.inj h
        exact hbound name value' hvalue
      · cases h
  | .call name args, h => by
      rw [Expr.eval] at h
      obtain ⟨values, -, h⟩ := bind_eq_ok.1 h
      exact Context.ascending_call h
  | .filter primary predicates, h => by
      rw [Expr.eval] at h
      obtain ⟨first, hfirst, h⟩ := bind_eq_ok.1 h
      obtain ⟨nodes, hnodes, h⟩ := bind_eq_ok.1 h
      obtain ⟨kept, hkept, h⟩ := bind_eq_ok.1 h
      obtain rfl := Except.ok.inj h
      have hfirst := Expr.ascending_eval primary hfirst
      exact (Value.ascending_of_expectNodes hfirst hnodes).sublist (narrow_sublist hkept)
  | .binary op left right, h => by
      cases op with
      | or =>
          rw [Expr.eval] at h
          obtain ⟨first, -, h⟩ := bind_eq_ok.1 h
          split at h
          · obtain rfl := Except.ok.inj h
            trivial
          · obtain ⟨second, -, h⟩ := bind_eq_ok.1 h
            obtain rfl := Except.ok.inj h
            trivial
      | and =>
          rw [Expr.eval] at h
          obtain ⟨first, -, h⟩ := bind_eq_ok.1 h
          split at h
          · obtain ⟨second, -, h⟩ := bind_eq_ok.1 h
            obtain rfl := Except.ok.inj h
            trivial
          · obtain rfl := Except.ok.inj h
            trivial
      | _ =>
          rw [Expr.eval] at h
          · obtain ⟨first, -, h⟩ := bind_eq_ok.1 h
            obtain ⟨second, -, h⟩ := bind_eq_ok.1 h
            exact BinaryOp.ascending_apply h
          all_goals nofun
  | .negate operand, h => by
      rw [Expr.eval] at h
      obtain ⟨first, -, h⟩ := bind_eq_ok.1 h
      obtain rfl := Except.ok.inj h
      trivial
  | .path start steps, h => by
      rw [Expr.eval] at h
      obtain ⟨nodes, hnodes, h⟩ := bind_eq_ok.1 h
      obtain ⟨reached, hreached, h⟩ := bind_eq_ok.1 h
      obtain rfl := Except.ok.inj h
      exact ascending_followSteps (ascending_startNodes start hnodes) hreached

theorem ascending_startNodes {nodes : List Node} :
    (start : StartOf Expr) → startNodes ctx start = .ok nodes → Node.Ascending nodes
  | .context, h => by
      rw [startNodes] at h
      obtain rfl := Except.ok.inj h
      exact Node.ascending_singleton _
  | .root, h => by
      rw [startNodes] at h
      obtain rfl := Except.ok.inj h
      exact Node.ascending_singleton _
  | .value start, h => by
      rw [startNodes] at h
      obtain ⟨value, hvalue, h⟩ := bind_eq_ok.1 h
      exact Value.ascending_of_expectNodes (Expr.ascending_eval start hvalue) h

end

end Eval

end Restyle
