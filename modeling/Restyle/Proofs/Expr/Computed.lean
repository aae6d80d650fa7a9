import Restyle.Proofs.Success
import Restyle.Rules

/-!
# Restyle.Proofs.Expr.Computed

What evaluation can fail with.

Expressions are read before they are evaluated, so the evaluation of one never fails because a text
is no expression; nor does the search for a rule, whose patterns have been read by then.  For want
of a function it fails only if the expression calls that function somewhere.  What may be `Missing`
is a parameter here: anything, or nothing where all calls are of known functions.

* `ExprError.Arises`, `Computed` — the failures of evaluation;
* `Expr.computed_eval`, `computed_narrow`, … — from the parts of an expression to the whole;
* `Rules.computed_find?` — the same for the choice of a rule.
-/

namespace Restyle

/-- A call of a function fails for want of it: it is not known, or there is no such function. -/
def Context.Lacks (ctx : Context) (name : String) : Prop :=
  name ∉ ctx.functions ∨ Function.ofName? name = none

/-- What evaluation may fail with. -/
inductive ExprError.Arises (Missing : String → Prop) : ExprError → Prop
  | unknownFunction {name : String} : Missing name → Arises Missing (.unknownFunction name)
  | noImplementation {name : String} : Missing name → Arises Missing (.noImplementation name)
  | wrongArity (name expected : String) : Arises Missing (.wrongArity name expected)
  | notNodes (role : NodesRole) (value : Value) : Arises Missing (.notNodes role value)
  | notUnion (left right : Value) : Arises Missing (.notUnion left right)
  | unbound (name : String) : Arises Missing (.unbound name)

/-- Whatever comes of a computation, it is no failure but those of evaluation. -/
def Computed (Missing : String → Prop) {α : Type} (x : Except ExprError α) : Prop :=
  ∀ error, x = .error error → error.Arises Missing

variable {Missing : String → Prop}

/-! ## Small computations -/

section Small

variable {α β : Type}

theorem computed_ok (a : α) : Computed Missing (.ok a) := nofun

theorem computed_pure (a : α) : Computed Missing (pure a) := nofun

theorem computed_error {error : ExprError} (h : error.Arises Missing) :
    Computed Missing (.error error : Except ExprError α) := by
  rintro error ⟨⟩
  exact h

theorem Computed.bind {x : Except ExprError α} {f : α → Except ExprError β}
    (hx : Computed Missing x) (hf : ∀ a, Computed Missing (f a)) : Computed Missing (x >>= f) := by
  intro error h
  obtain herror | ⟨a, -, herror⟩ := bind_eq_error.1 h
  · exact hx error herror
  · exact hf a error herror

theorem Computed.map {x : Except ExprError α} (hx : Computed Missing x) (f : α → β) :
    Computed Missing (do return f (← x)) :=
  hx.bind fun a => computed_pure (f a)

theorem computed_mapM {f : α → Except ExprError β} (hf : ∀ a, Computed Missing (f a))
    (as : List α) : Computed Missing (as.mapM f) := by
  induction as with
  | nil => exact computed_pure []
  | cons a as ih =>
      rw [List.mapM_cons]
      exact (hf a).bind fun b => ih.map (b :: ·)

end Small

/-! ## Functions and operators -/

namespace Function

theorem computed_noArg (name : String) (args : List Value) :
    Computed Missing (noArg name args) := by
  unfold noArg
  split
  · exact computed_ok _
  · exact computed_error (.wrongArity _ _)

theorem computed_oneArg (name : String) (args : List Value) :
    Computed Missing (oneArg name args) := by
  unfold oneArg
  split
  · exact computed_ok _
  · exact computed_error (.wrongArity _ _)

theorem computed_twoTexts (name : String) (args : List Value) :
    Computed Missing (twoTexts name args) := by
  unfold twoTexts
  split
  · exact computed_ok _
  · exact computed_error (.wrongArity _ _)

theorem computed_textOrContext (name : String) (ctx : Context) (args : List Value) :
    Computed Missing (textOrContext name ctx args) := by
  unfold textOrContext
  split
  · exact computed_ok _
  · exact computed_ok _
  · exact computed_error (.wrongArity _ _)

theorem computed_nodesArg (name : String) (args : List Value) :
    Computed Missing (nodesArg name args) := by
  refine (computed_oneArg name args).bind fun value => ?_
  cases value with
  | nodes nodes => exact computed_pure _
  | string | number | boolean => exact computed_error (.notNodes _ _)

theorem computed_nodeOrContext (name : String) (ctx : Context) (args : List Value) :
    Computed Missing (nodeOrContext name ctx args) := by
  unfold nodeOrContext
  split
  · exact computed_ok _
  · exact computed_ok _
  · exact computed_error (.notNodes _ _)
  · exact computed_error (.wrongArity _ _)

theorem computed_apply (ctx : Context) (f : Function) (args : List Value) :
    Computed Missing (f.apply ctx args) := by
  cases f with
  | last | position | true | false => exact (computed_noArg _ args).bind fun _ => computed_pure _
  | count | sum => exact (computed_nodesArg _ args).map _
  | id =>
      refine (computed_oneArg _ args).bind fun value => ?_
      cases value with
      | nodes | string | number | boolean => exact computed_pure _
  | localName | name | generateId =>
      exact (computed_nodeOrContext _ ctx args).bind fun _ => computed_pure _
  | string | stringLength | normalizeSpace => exact (computed_textOrContext _ ctx args).map _
  | startsWith | contains | substringBefore | substringAfter =>
      exact (computed_twoTexts _ args).bind fun _ => computed_pure _
  | boolean | not | floor | ceiling | round => exact (computed_oneArg _ args).map _
  | lang => exact (computed_oneArg _ args).bind fun _ => computed_pure _
  | substring | number =>
      unfold apply
      dsimp only
      split
      · exact computed_ok _
      · exact computed_ok _
      · exact computed_error (.wrongArity _ _)
  | concat | translate =>
      unfold apply
      dsimp only
      split
      · exact computed_ok _
      · exact computed_error (.wrongArity _ _)

end Function

/-- A call fails for want of the function just where it is lacking. -/
theorem Context.computed_call (ctx : Context) {name : String}
    (hname : ctx.Lacks name → Missing name) (args : List Value) :
    Computed Missing (ctx.call name args) := by
  unfold Context.call
  split
  · split
    · exact Function.computed_apply ctx _ args
    · next hnone => exact computed_error (.noImplementation (hname (.inr hnone)))
  · next hunknown =>
    exact computed_error (.unknownFunction (hname (.inl (by simpa using hunknown))))

theorem Value.computed_union (left right : Value) : Computed Missing (left.union right) := by
  unfold Value.union
  split
  · exact computed_ok _
  · exact computed_error (.notUnion _ _)

theorem BinaryOp.computed_apply (op : BinaryOp) (left right : Value) :
    Computed Missing (op.apply left right) := by
  cases op with
  | union => exact Value.computed_union left right
  | _ => exact computed_ok _

theorem Value.computed_expectNodes (role : NodesRole) (value : Value) :
    Computed Missing (value.expectNodes role) := by
  cases value with
  | nodes nodes => exact computed_ok _
  | string | number | boolean => exact computed_error (.notNodes _ _)

theorem computed_keepFrom {test : Node → Nat → Except ExprError Bool}
    (htest : ∀ node place, Computed Missing (test node place)) (place : Nat) (nodes : List Node) :
    Computed Missing (keepFrom test place nodes) := by
  induction nodes generalizing place with
  | nil => exact computed_ok []
  | cons node nodes ih =>
      rw [keepFrom]
      exact (htest node place).bind fun keep => (ih (place + 1)).map _

/-! ## Expressions -/

mutual

theorem Expr.computed_eval (ctx : Context) : (e : Expr) →
    (∀ name ∈ e.calls, ctx.Lacks name → Missing name) → Computed Missing (e.eval ctx)
  | .literal text, _ => by
      rw [Expr.eval]
      exact computed_ok _
  | .number value, _ => by
      rw [Expr.eval]
      exact computed_ok _
  | .variable name, _ => by
      rw [Expr.eval]
      split
      · exact computed_ok _
      · exact computed_error (.unbound name)
  | .call name args, h => by
      rw [Expr.calls, List.forall_mem_cons] at h
      rw [Expr.eval]
      exact (computed_evalAll ctx args h.2).bind (ctx.computed_call h.1)
  | .filter primary predicates, h => by
      rw [Expr.calls, List.forall_mem_append] at h
      rw [Expr.eval]
      exact (Expr.computed_eval ctx primary h.1).bind fun value =>
        (value.computed_expectNodes .filter).bind fun nodes =>
          (computed_narrow ctx predicates h.2 nodes).map _
  | .binary op left right, h => by
      rw [Expr.calls, List.forall_mem_append] at h
      have hleft := Expr.computed_eval ctx left h.1
      have hright := Expr.computed_eval ctx right h.2
      cases op with
      | or =>
          rw [Expr.eval]
          refine hleft.bind fun value => ?_
          split
          · exact computed_pure _
          · exact hright.map _
      | and =>
          rw [Expr.eval]
          refine hleft.bind fun value => ?_
          split
          · exact hright.map _
          · exact computed_pure _
      | _ =>
          rw [Expr.eval]
          · exact hleft.bind fun l => hright.bind fun r => BinaryOp.computed_apply _ l r
          all_goals nofun
  | .negate operand, h => by
      rw [Expr.calls] at h
      rw [Expr.eval]
      exact (Expr.computed_eval ctx operand h).map _
  | .path start steps, h => by
      rw [Expr.calls, List.forall_mem_append] at h
      rw [Expr.eval]
      exact (computed_startNodes ctx start h.1).bind fun nodes =>
        (computed_followSteps ctx steps h.2 nodes).map _

theorem computed_evalAll (ctx : Context) : (es : List Expr) →
    (∀ name ∈ callsAll es, ctx.Lacks name → Missing name) → Computed Missing (evalAll ctx es)
  | [], _ => by
      rw [evalAll]
      exact computed_ok _
  | e :: es, h => by
      rw [callsAll, List.forall_mem_append] at h
      rw [evalAll]
      exact (Expr.computed_eval ctx e h.1).bind fun value => (computed_evalAll ctx es h.2).map _

theorem computed_startNodes (ctx : Context) : (start : StartOf Expr) →
    (∀ name ∈ callsStart start, ctx.Lacks name → Missing name) →
      Computed Missing (startNodes ctx start)
  | .context, _ => by
      rw [startNodes]
      exact computed_ok _
  | .root, _ => by
      rw [startNodes]
      exact computed_ok _
  | .value start, h => by
      rw [callsStart] at h
      rw [startNodes]
      exact (Expr.computed_eval ctx start h).bind fun value => value.computed_expectNodes .pathStart

theorem computed_followSteps (ctx : Context) : (steps : List (StepOf Expr)) →
    (∀ name ∈ callsSteps steps, ctx.Lacks name → Missing name) →
      (nodes : List Node) → Computed Missing (followSteps ctx steps nodes)
  | [], _, nodes => by
      rw [followSteps]
      exact computed_ok _
  | step :: steps, h, nodes => by
      rw [callsSteps, List.forall_mem_append] at h
      rw [followSteps]
      exact (computed_followStep ctx step h.1 nodes).bind (computed_followSteps ctx steps h.2)

theorem computed_followStep (ctx : Context) : (step : StepOf Expr) →
    (∀ name ∈ callsStep step, ctx.Lacks name → Missing name) →
      (nodes : List Node) → Computed Missing (followStep ctx step nodes)
  | ⟨axis, test, predicates⟩, h, nodes => by
      rw [callsStep] at h
      rw [followStep]
      exact (computed_mapM (fun node => computed_narrow ctx predicates h _) nodes).map _

theorem computed_narrow (ctx : Context) : (predicates : List Expr) →
    (∀ name ∈ callsAll predicates, ctx.Lacks name → Missing name) →
      (nodes : List Node) → Computed Missing (narrow ctx predicates nodes)
  | [], _, nodes => by
      rw [narrow]
      exact computed_ok _
  | predicate :: predicates, h, nodes => by
      rw [callsAll, List.forall_mem_append] at h
      rw [narrow]
      refine (computed_keepFrom (fun node place => ?_) 1 nodes).bind
        (computed_narrow ctx predicates h.2)
      exact (Expr.computed_eval (ctx.focus node place nodes.length) predicate h.1).map _

end

/-! ## Rules -/

theorem mem_callsAll {es : List Expr} {name : String} :
    name ∈ callsAll es ↔ ∃ e ∈ es, name ∈ e.calls := by
  induction es with
  | nil => simp [callsAll]
  | cons e es ih => simp [callsAll, ih]

theorem computed_firstHolds {α : Type} {test : α → Except ExprError Bool}
    (htest : ∀ a, Computed Missing (test a)) (as : List α) :
    Computed Missing (firstHolds test as) := by
  induction as with
  | nil => exact computed_ok _
  | cons a as ih =>
      rw [firstHolds]
      refine (htest a).bind fun found => ?_
      split
      · exact computed_pure _
      · exact ih

theorem PatternStep.computed_accepts (ctx : Context) (step : PatternStep)
    (hcalls : ∀ e ∈ step.predicates, ∀ name ∈ e.calls, ctx.Lacks name → Missing name)
    (node : Node) : Computed Missing (step.accepts ctx node) := by
  have hnarrow : ∀ name ∈ callsAll step.predicates, ctx.Lacks name → Missing name := by
    intro name hname
    obtain ⟨e, he, hname⟩ := mem_callsAll.1 hname
    exact hcalls e he name hname
  unfold PatternStep.accepts
  split
  · exact computed_ok _
  · split
    · exact computed_ok _
    · split
      · exact computed_ok _
      · exact (computed_narrow ctx step.predicates hnarrow _).map _

namespace PathPattern

/-- The predicates in an alternative of a pattern. -/
def predicates (path : PathPattern) : List Expr := path.steps.flatMap PatternStep.predicates

theorem computed_meets (ctx : Context) (absolute : Bool) (steps : List PatternStep)
    (hcalls : ∀ step ∈ steps, ∀ e ∈ step.predicates, ∀ name ∈ e.calls,
      ctx.Lacks name → Missing name)
    (node : Node) : Computed Missing (meets ctx absolute steps node) := by
  induction steps generalizing node with
  | nil => exact computed_ok _
  | cons last rest ih =>
      obtain ⟨hlast, hrest⟩ := List.forall_mem_cons.1 hcalls
      rw [meets]
      refine (last.computed_accepts ctx hlast node).bind fun accepted => ?_
      split
      · exact computed_pure _
      · split
        · exact computed_pure _
        · split
          · split
            · exact ih hrest _
            · exact computed_pure _
          · exact computed_firstHolds (ih hrest) node.ancestors

theorem computed_accepts (ctx : Context) (path : PathPattern)
    (hcalls : ∀ e ∈ path.predicates, ∀ name ∈ e.calls, ctx.Lacks name → Missing name)
    (node : Node) : Computed Missing (path.accepts ctx node) := by
  unfold PathPattern.accepts
  split
  · exact computed_ok _
  · refine computed_meets ctx path.absolute path.steps.reverse (fun step hstep e he => ?_) node
    exact hcalls e (List.mem_flatMap.2 ⟨step, List.mem_reverse.1 hstep, he⟩)

end PathPattern

namespace Rules

theorem computed_firstFor (ctx : Context) (node : Node) (rules : List Rule)
    (hcalls : ∀ rule ∈ rules, ∀ e ∈ rule.path.predicates, ∀ name ∈ e.calls,
      ctx.Lacks name → Missing name) :
    Computed Missing (firstFor ctx node rules) := by
  induction rules with
  | nil => exact computed_ok _
  | cons rule rules ih =>
      obtain ⟨hrule, hrules⟩ := List.forall_mem_cons.1 hcalls
      rw [firstFor]
      refine (rule.path.computed_accepts ctx hrule node).bind fun accepted => ?_
      split
      · exact computed_pure _
      · exact ih hrules

theorem computed_find? (rules : Rules) (ctx : Context) (mode : Option String) (node : Node)
    (hcalls : ∀ rule ∈ rules.ranked, ∀ e ∈ rule.path.predicates, ∀ name ∈ e.calls,
      ctx.Lacks name → Missing name) :
    Computed Missing (rules.find? ctx mode node) :=
  computed_firstFor ctx node (rules.inMode mode) fun rule hrule =>
    hcalls rule (List.mem_filter.1 hrule).1

end Rules

end Restyle
