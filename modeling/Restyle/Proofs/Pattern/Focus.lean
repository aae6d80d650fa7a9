import Restyle.Proofs.Pattern.Agreement
import Restyle.Rules

/-!
# Restyle.Proofs.Pattern.Focus

Where matching and absolute paths stand makes no difference to them.

A path that starts at the root never asks for the focus: its predicates are evaluated in a focus of
their own at every step, and what stands in a predicate sees that one.  The same is true of the
predicates of a pattern.  So two circumstances that differ in nothing but their focus give the same
values, or the same errors, and the choice of a rule may be made with the node itself in focus or
with the root.

* `Context.Alike` — circumstances that differ in nothing but their focus;
* `Pattern.accepts_focus`, `Rules.find?_focus` — matching, and the choice of a rule;
* `Expr.eval_root_focus` — absolute paths;
* `Context.Alike.matching_and_paths` — the main result.
-/

namespace Restyle

/-- Two circumstances that differ in nothing but their focus. -/
structure Context.Alike (ctx ctx' : Context) : Prop where
  document : ctx.document = ctx'.document
  functions : ctx.functions = ctx'.functions
  bound : ctx.bound = ctx'.bound

/-- Either of the two is the other one in its own focus. -/
theorem Context.Alike.eq_focus {ctx ctx' : Context} (h : ctx.Alike ctx') :
    ctx' = ctx.focus ctx'.node ctx'.position ctx'.size := by
  obtain ⟨hdocument, hfunctions, hbound⟩ := h
  rw [Context.focus, hdocument, hfunctions, hbound]

section Focus

variable (ctx : Context) (inner : Node) (position size : Nat)

/-! ## Patterns -/

theorem PatternStep.accepts_focus (step : PatternStep) (node : Node) :
    step.accepts (ctx.focus inner position size) node = step.accepts ctx node := by
  unfold PatternStep.accepts
  simp only [narrow_focus]

theorem PathPattern.meets_focus (absolute : Bool) (steps : List PatternStep) (node : Node) :
    meets (ctx.focus inner position size) absolute steps node = meets ctx absolute steps node := by
  induction steps generalizing node with
  | nil => rfl
  | cons last rest ih => rw [meets, meets, last.accepts_focus, funext ih]

theorem PathPattern.accepts_focus (path : PathPattern) (node : Node) :
    path.accepts (ctx.focus inner position size) node = path.accepts ctx node := by
  unfold PathPattern.accepts
  rw [PathPattern.meets_focus]

theorem Pattern.accepts_focus (pattern : Pattern) (node : Node) :
    pattern.accepts (ctx.focus inner position size) node = pattern.accepts ctx node := by
  unfold Pattern.accepts
  simp only [PathPattern.accepts_focus]

/-! ## Rules -/

theorem Rules.firstFor_focus (node : Node) (rules : List Rule) :
    firstFor (ctx.focus inner position size) node rules = firstFor ctx node rules := by
  induction rules with
  | nil => rfl
  | cons rule rules ih => rw [firstFor, firstFor, rule.path.accepts_focus, ih]

theorem Rules.find?_focus (rules : Rules) (mode : Option String) (node : Node) :
    rules.find? (ctx.focus inner position size) mode node = rules.find? ctx mode node :=
  firstFor_focus ctx inner position size node (rules.inMode mode)

/-! ## Absolute paths -/

theorem Expr.eval_root_focus (steps : List Step) :
    (Expr.path .root steps).eval (ctx.focus inner position size) =
      (Expr.path .root steps).eval ctx := by
  rw [Expr.eval, Expr.eval, startNodes, startNodes]
  simp only [followSteps_focus]
  rfl

end Focus

/-! ## Circumstances alike -/

/-- **The focus has no part in matching and in absolute paths.**  In circumstances that differ in
nothing but their focus, a pattern is for the same nodes, an absolute path has the same value, and the
same rule is found for a node, whichever nodes are in focus; where one fails, the other fails the same
way. -/
theorem Context.Alike.matching_and_paths {ctx ctx' : Context} (h : ctx.Alike ctx') :
    (∀ (pattern : Pattern) (node : Node), pattern.accepts ctx node = pattern.accepts ctx' node) ∧
      (∀ steps : List Step, (Expr.path .root steps).eval ctx = (Expr.path .root steps).eval ctx') ∧
      (∀ (rules : Rules) (mode : Option String) (node : Node),
        rules.find? ctx mode node = rules.find? ctx' mode node) ∧
      ∀ (rules : Rules) (mode : Option String) (node : Node) (position size position' size' : Nat),
        rules.find? (ctx.focus node position size) mode node =
          rules.find? (ctx'.focus ctx'.document.root position' size') mode node := by
  rw [h.eq_focus]
  refine ⟨fun pattern node => ?_, fun steps => ?_, fun rules mode node => ?_, ?_⟩
  · rw [Pattern.accepts_focus]
  · rw [Expr.eval_root_focus]
  · rw [Rules.find?_focus]
  · intro rules mode node position size position' size'
    rw [Rules.find?_focus, Rules.find?_focus, Rules.find?_focus]

namespace Pattern

/-- The pattern `a[@x]` is for an element with the attribute, and the path `/a[@x]` leads to it, be it
the root that is in focus or the attribute. -/
theorem matching_and_paths_marked :
    let here : Context := ⟨marked.root, marked, 1, 1, Function.names, fun _ => none⟩
    let there := here.focus (.attr markedElement 0 ⟨⟨none, "x"⟩, "1"⟩) 2 3
    let pattern : Pattern := ⟨"a[@x]", [⟨false, [⟨.child, .name "a", [hasMark], .child⟩]⟩]⟩
    here.Alike there ∧
      pattern.accepts here markedElement = .ok true ∧
      pattern.accepts there markedElement = .ok true ∧
      (Expr.path .root [⟨.child, .name "a", [hasMark]⟩]).eval there = .ok (.nodes [markedElement]) := by
  intro here there pattern
  have halike : here.Alike there := ⟨rfl, rfl, rfl⟩
  have haccepts : pattern.accepts here markedElement = .ok true := by cbv
  have heval : (Expr.path .root [⟨.child, .name "a", [hasMark]⟩]).eval here =
      .ok (.nodes [markedElement]) := by cbv
  obtain ⟨hpattern, hpath, -⟩ := halike.matching_and_paths
  exact ⟨halike, haccepts, (hpattern _ _).symm.trans haccepts, (hpath _).symm.trans heval⟩

end Pattern

end Restyle
