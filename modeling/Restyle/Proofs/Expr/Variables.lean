import Restyle.Rules

/-!
# Restyle.Proofs.Expr.Variables

The variables that expressions and patterns mention.

Evaluation looks up no other names, so bindings that agree on the variables of an expression give it
the same value; and the choice of a rule depends on bindings only through the predicates of the
patterns of its mode.

* `Expr.variables`, `PathPattern.variables` — the variables mentioned;
* `Expr.eval_congr`, `narrow_congr`, … — evaluation depends on nothing else that is bound;
* `PathPattern.accepts_congr`, `Rules.find?_congr` — nor do matching and the choice of a rule.
-/

namespace Restyle

/-! ## Variables mentioned -/

mutual

/-- The variables an expression mentions, wherever they stand. -/
def Expr.variables : Expr → List String
  | .literal _ => []
  | .number _ => []
  | .variable name => [name]
  | .call _ args => variablesAll args
  | .filter primary predicates => primary.variables ++ variablesAll predicates
  | .binary _ left right => left.variables ++ right.variables
  | .negate operand => operand.variables
  | .path start steps => variablesStart start ++ variablesSteps steps

/-- The variables that a list of expressions mentions. -/
def variablesAll : List Expr → List String
  | [] => []
  | e :: es => e.variables ++ variablesAll es

/-- The variables that the start of a path mentions. -/
def variablesStart : StartOf Expr → List String
  | .context => []
  | .root => []
  | .value start => start.variables

/-- The variables that the predicates of steps mention. -/
def variablesSteps : List (StepOf Expr) → List String
  | [] => []
  | step :: steps => variablesStep step ++ variablesSteps steps

/-- The variables that the predicates of a step mention. -/
def variablesStep : StepOf Expr → List String
  | ⟨_, _, predicates⟩ => variablesAll predicates

end

/-- The variables that the predicates of a pattern mention. -/
def PathPattern.variables (path : PathPattern) : List String :=
  path.steps.flatMap fun step => variablesAll step.predicates

/-- The same circumstances with other bindings. -/
def Context.bind (ctx : Context) (bound : String → Option Value) : Context :=
  { ctx with bound := bound }

/-! ## Expressions -/

theorem Function.apply_bind (ctx : Context) (bound : String → Option Value) (f : Function)
    (args : List Value) : f.apply (ctx.bind bound) args = f.apply ctx args := by
  cases f <;> rfl

theorem Context.call_bind (ctx : Context) (bound : String → Option Value) (name : String)
    (args : List Value) : (ctx.bind bound).call name args = ctx.call name args := by
  unfold Context.call
  simp only [Function.apply_bind]
  rfl

section Congr

variable {bound : String → Option Value}

mutual

theorem Expr.eval_congr (ctx : Context) : (e : Expr) →
    (∀ name ∈ e.variables, ctx.bound name = bound name) → e.eval ctx = e.eval (ctx.bind bound)
  | .literal text, _ => by rw [Expr.eval, Expr.eval]
  | .number value, _ => by rw [Expr.eval, Expr.eval]
  | .variable name, h => by
      have hname : ctx.bound name = (ctx.bind bound).bound name := h name (by simp [Expr.variables])
      rw [Expr.eval, Expr.eval, hname]
  | .call name args, h => by
      rw [Expr.eval, Expr.eval, evalAll_congr ctx args h]
      simp only [Context.call_bind]
  | .filter primary predicates, h => by
      rw [Expr.variables, List.forall_mem_append] at h
      rw [Expr.eval, Expr.eval, Expr.eval_congr ctx primary h.1]
      simp only [fun nodes => narrow_congr ctx predicates nodes h.2]
  | .binary op left right, h => by
      rw [Expr.variables, List.forall_mem_append] at h
      have hleft := Expr.eval_congr ctx left h.1
      have hright := Expr.eval_congr ctx right h.2
      cases op with
      | or | and => rw [Expr.eval, Expr.eval, hleft, hright]
      | _ =>
          rw [Expr.eval, Expr.eval, hleft, hright]
          all_goals nofun
  | .negate operand, h => by
      rw [Expr.eval, Expr.eval, Expr.eval_congr ctx operand h]
  | .path start steps, h => by
      rw [Expr.variables, List.forall_mem_append] at h
      rw [Expr.eval, Expr.eval, startNodes_congr ctx start h.1]
      simp only [fun nodes => followSteps_congr ctx steps nodes h.2]

theorem evalAll_congr (ctx : Context) : (es : List Expr) →
    (∀ name ∈ variablesAll es, ctx.bound name = bound name) →
      evalAll ctx es = evalAll (ctx.bind bound) es
  | [], _ => by rw [evalAll, evalAll]
  | e :: es, h => by
      rw [variablesAll, List.forall_mem_append] at h
      rw [evalAll, evalAll, Expr.eval_congr ctx e h.1, evalAll_congr ctx es h.2]

theorem startNodes_congr (ctx : Context) : (start : StartOf Expr) →
    (∀ name ∈ variablesStart start, ctx.bound name = bound name) →
      startNodes ctx start = startNodes (ctx.bind bound) start
  | .context, _ => by rw [startNodes, startNodes]; rfl
  | .root, _ => by rw [startNodes, startNodes]; rfl
  | .value start, h => by
      rw [startNodes, startNodes, Expr.eval_congr ctx start h]

theorem followSteps_congr (ctx : Context) : (steps : List (StepOf Expr)) → (nodes : List Node) →
    (∀ name ∈ variablesSteps steps, ctx.bound name = bound name) →
      followSteps ctx steps nodes = followSteps (ctx.bind bound) steps nodes
  | [], nodes, _ => by rw [followSteps, followSteps]
  | step :: steps, nodes, h => by
      rw [variablesSteps, List.forall_mem_append] at h
      rw [followSteps, followSteps, followStep_congr ctx step nodes h.1]
      simp only [fun nodes => followSteps_congr ctx steps nodes h.2]

theorem followStep_congr (ctx : Context) : (step : StepOf Expr) → (nodes : List Node) →
    (∀ name ∈ variablesStep step, ctx.bound name = bound name) →
      followStep ctx step nodes = followStep (ctx.bind bound) step nodes
  | ⟨axis, test, predicates⟩, nodes, h => by
      rw [variablesStep] at h
      rw [followStep, followStep]
      simp only [fun nodes => narrow_congr ctx predicates nodes h]

theorem narrow_congr (ctx : Context) : (predicates : List Expr) → (nodes : List Node) →
    (∀ name ∈ variablesAll predicates, ctx.bound name = bound name) →
      narrow ctx predicates nodes = narrow (ctx.bind bound) predicates nodes
  | [], nodes, _ => by rw [narrow, narrow]
  | predicate :: predicates, nodes, h => by
      rw [variablesAll, List.forall_mem_append] at h
      have hpredicate (node : Node) (place : Nat) :
          predicate.eval (ctx.focus node place nodes.length) =
            predicate.eval ((ctx.bind bound).focus node place nodes.length) :=
        Expr.eval_congr (ctx.focus node place nodes.length) predicate h.1
      rw [narrow, narrow]
      simp only [hpredicate, fun nodes => narrow_congr ctx predicates nodes h.2]

end

/-! ## Patterns and rules -/

theorem PatternStep.accepts_congr (ctx : Context) (step : PatternStep) (node : Node)
    (h : ∀ name ∈ variablesAll step.predicates, ctx.bound name = bound name) :
    step.accepts ctx node = step.accepts (ctx.bind bound) node := by
  unfold PatternStep.accepts
  simp only [fun nodes => narrow_congr ctx step.predicates nodes h]

theorem PathPattern.meets_congr (ctx : Context) (absolute : Bool) (steps : List PatternStep)
    (node : Node)
    (h : ∀ step ∈ steps, ∀ name ∈ variablesAll step.predicates, ctx.bound name = bound name) :
    meets ctx absolute steps node = meets (ctx.bind bound) absolute steps node := by
  induction steps generalizing node with
  | nil => rfl
  | cons last rest ih =>
      have hlast := last.accepts_congr ctx node (h last List.mem_cons_self)
      have hrest (above : Node) :=
        ih above fun step hstep => h step (List.mem_cons_of_mem last hstep)
      rw [meets, meets, hlast, funext hrest]

theorem PathPattern.accepts_congr (ctx : Context) (path : PathPattern) (node : Node)
    (h : ∀ name ∈ path.variables, ctx.bound name = bound name) :
    path.accepts ctx node = path.accepts (ctx.bind bound) node := by
  have hsteps : ∀ step ∈ path.steps.reverse, ∀ name ∈ variablesAll step.predicates,
      ctx.bound name = bound name := by
    intro step hstep name hname
    exact h name (List.mem_flatMap.2 ⟨step, List.mem_reverse.1 hstep, hname⟩)
  unfold PathPattern.accepts
  rw [PathPattern.meets_congr ctx path.absolute _ node hsteps]

theorem Rules.firstFor_congr (ctx : Context) (node : Node) (rules : List Rule)
    (h : ∀ rule ∈ rules, ∀ name ∈ rule.path.variables, ctx.bound name = bound name) :
    firstFor ctx node rules = firstFor (ctx.bind bound) node rules := by
  induction rules with
  | nil => rfl
  | cons rule rules ih =>
      rw [firstFor, firstFor, rule.path.accepts_congr ctx node (h rule List.mem_cons_self),
        ih fun other hother => h other (List.mem_cons_of_mem rule hother)]

/-- Bindings matter to the choice of a rule only through the variables that the patterns of the mode
mention. -/
theorem Rules.find?_congr (rules : Rules) (ctx : Context) (mode : Option String) (node : Node)
    (h : ∀ rule ∈ rules.inMode mode, ∀ name ∈ rule.path.variables,
      ctx.bound name = bound name) :
    rules.find? ctx mode node = rules.find? (ctx.bind bound) mode node :=
  firstFor_congr ctx node (rules.inMode mode) h

end Congr

end Restyle
