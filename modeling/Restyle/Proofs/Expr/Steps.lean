import Restyle.Eval
import Restyle.Proofs.Document.Axes
import Restyle.Proofs.Success

/-!
# Restyle.Proofs.Expr.Steps

Where the steps of a path lead.

Evaluation takes whole lists of nodes from step to step and puts what it finds in order.  Seen from
a single node, a step leads to those nodes along its axis that its predicates keep (`Leads`), and
steps in turn lead from node to node (`Reaches`).  Where evaluation does not fail, both say the same.

* `mem_followSteps` — what steps find is what they lead to;
* `narrow_focus`, `followSteps_focus` — the focus has no part in it.
-/

namespace Restyle

/-! ## From node to node -/

/-- Whether a step leads from a node to another one. -/
def Leads (ctx : Context) (step : Step) (a n : Node) : Prop :=
  ∃ kept, narrow ctx step.predicates (step.axis.candidates step.test a) = .ok kept ∧ n ∈ kept

/-- Whether steps, one after another, lead from a node to another one. -/
def Reaches (ctx : Context) : List Step → Node → Node → Prop
  | [], a, n => a = n
  | step :: steps, a, n => ∃ m, Leads ctx step a m ∧ Reaches ctx steps m n

theorem reaches_append {ctx : Context} {first second : List Step} {a n : Node} :
    Reaches ctx (first ++ second) a n ↔
      ∃ m, Reaches ctx first a m ∧ Reaches ctx second m n := by
  induction first generalizing a with
  | nil =>
      constructor
      · intro h
        exact ⟨a, rfl, h⟩
      · rintro ⟨m, rfl, h⟩
        exact h
  | cons step steps ih =>
      constructor
      · rintro ⟨b, hb, h⟩
        obtain ⟨m, hm, hn⟩ := ih.1 h
        exact ⟨m, ⟨b, hb, hm⟩, hn⟩
      · rintro ⟨m, ⟨b, hb, hm⟩, hn⟩
        exact ⟨b, hb, ih.2 ⟨m, hm, hn⟩⟩

/-- Without predicates, a step leads to all that it looks at and that passes its test. -/
theorem leads_bare {ctx : Context} {axis : Axis} {test : NodeTest} {a n : Node} :
    Leads ctx ⟨axis, test, []⟩ a n ↔ n ∈ axis.candidates test a := by
  have hkept : narrow ctx [] (axis.candidates test a) = .ok (axis.candidates test a) := by
    rw [narrow]
  constructor
  · rintro ⟨kept, hkept', hmem⟩
    rwa [Except.ok.inj (hkept.symm.trans hkept')]
  · intro hmem
    exact ⟨_, hkept, hmem⟩

theorem leads_descendantOrSelf {ctx : Context} {a n : Node} :
    Leads ctx Step.descendantOrSelf a n ↔ n ∈ a.withDescendants := by
  have hall : Axis.candidates .descendantOrSelf .node a = a.withDescendants :=
    List.filter_eq_self.2 fun _ _ => rfl
  rw [Step.descendantOrSelf, leads_bare, hall]

theorem reaches_singleton {ctx : Context} {step : Step} {a n : Node} :
    Reaches ctx [step] a n ↔ Leads ctx step a n := by
  constructor
  · rintro ⟨m, h, rfl⟩
    exact h
  · intro h
    exact ⟨n, h, rfl⟩

/-! ## Predicates -/

theorem keepFrom_sublist {test : Node → Nat → Except ExprError Bool} {place : Nat}
    {nodes kept : List Node} (h : keepFrom test place nodes = .ok kept) : kept.Sublist nodes := by
  induction nodes generalizing place kept with
  | nil =>
      obtain rfl := Except.ok.inj h
      exact .slnil
  | cons node nodes ih =>
      rw [keepFrom] at h
      obtain ⟨keep, -, h⟩ := bind_eq_ok.1 h
      obtain ⟨others, hothers, h⟩ := bind_eq_ok.1 h
      obtain rfl := Except.ok.inj h
      cases keep with
      | false => exact (ih hothers).cons node
      | true => exact (ih hothers).cons_cons node

/-- Predicates leave nodes in the order they are in. -/
theorem narrow_sublist {ctx : Context} {predicates : List Expr} {nodes kept : List Node}
    (h : narrow ctx predicates nodes = .ok kept) : kept.Sublist nodes := by
  induction predicates generalizing nodes with
  | nil =>
      rw [narrow] at h
      obtain rfl := Except.ok.inj h
      exact .refl _
  | cons predicate predicates ih =>
      rw [narrow] at h
      obtain ⟨passed, hpassed, h⟩ := bind_eq_ok.1 h
      exact (ih h).trans (keepFrom_sublist hpassed)

/-- Predicates keep none but the nodes they are given. -/
theorem mem_of_mem_narrow {ctx : Context} {predicates : List Expr} {nodes kept : List Node}
    (h : narrow ctx predicates nodes = .ok kept) {n : Node} (hn : n ∈ kept) : n ∈ nodes :=
  (narrow_sublist h).subset hn

/-- Predicates see the nodes they are about, wherever the path stands. -/
theorem narrow_focus (ctx : Context) (node : Node) (position size : Nat) (predicates : List Expr)
    (nodes : List Node) :
    narrow (ctx.focus node position size) predicates nodes = narrow ctx predicates nodes := by
  induction predicates generalizing nodes with
  | nil => rw [narrow, narrow]
  | cons predicate predicates ih =>
      rw [narrow, narrow]
      simp only [ih]
      rfl

theorem followStep_focus (ctx : Context) (node : Node) (position size : Nat) (step : Step)
    (nodes : List Node) :
    followStep (ctx.focus node position size) step nodes = followStep ctx step nodes := by
  obtain ⟨axis, test, predicates⟩ := step
  rw [followStep, followStep]
  simp only [narrow_focus]

theorem followSteps_focus (ctx : Context) (node : Node) (position size : Nat) (steps : List Step)
    (nodes : List Node) :
    followSteps (ctx.focus node position size) steps nodes = followSteps ctx steps nodes := by
  induction steps generalizing nodes with
  | nil => rw [followSteps, followSteps]
  | cons step steps ih =>
      rw [followSteps, followSteps]
      simp only [ih, followStep_focus]

/-! ## The document -/

theorem Document.Holds.of_mem_candidates {document : Document} {axis : Axis} {test : NodeTest}
    {a n : Node} (h : document.Holds a) (hn : n ∈ axis.candidates test a) : document.Holds n :=
  h.of_mem_nodes (List.mem_filter.1 hn).1

theorem Document.Holds.of_leads {ctx : Context} {step : Step} {a n : Node}
    (h : ctx.document.Holds a) (hn : Leads ctx step a n) : ctx.document.Holds n := by
  obtain ⟨kept, hkept, hmem⟩ := hn
  exact h.of_mem_candidates (mem_of_mem_narrow hkept hmem)

theorem Document.Holds.of_reaches {ctx : Context} {steps : List Step} {a n : Node}
    (h : ctx.document.Holds a) (hn : Reaches ctx steps a n) : ctx.document.Holds n := by
  induction steps generalizing a with
  | nil =>
      obtain rfl := hn
      exact h
  | cons step steps ih =>
      obtain ⟨m, hm, hn⟩ := hn
      exact ih (h.of_leads hm) hn

/-! ## Steps that look down -/

/-- Whether an axis looks down, to the node itself or to what is below it. -/
def Axis.LooksDown : Axis → Prop
  | .child | .attr | .descendantOrSelf => True
  | _ => False

/-- A step that looks down leads to nothing but the node it starts from and what is below it. -/
theorem mem_of_leads {ctx : Context} {step : Step} {a n : Node} (hstep : step.axis.LooksDown)
    (h : Leads ctx step a n) : a ∈ n :: n.ancestors := by
  obtain ⟨kept, hkept, hn⟩ := h
  have hnodes : n ∈ step.axis.nodes a := (List.mem_filter.1 (mem_of_mem_narrow hkept hn)).1
  cases haxis : step.axis with
  | child =>
      rw [haxis] at hnodes
      have hparent : n.parent = some a := Node.parent_of_mem_children hnodes
      exact List.mem_cons_of_mem n (Node.mem_ancestors_of_parent hparent)
  | attr =>
      rw [haxis] at hnodes
      have hparent : n.parent = some a := Node.parent_of_mem_attributes hnodes
      exact List.mem_cons_of_mem n (Node.mem_ancestors_of_parent hparent)
  | descendantOrSelf =>
      rw [haxis] at hnodes
      exact Node.mem_of_mem_withDescendants hnodes
  | _ =>
      rw [haxis] at hstep
      exact hstep.elim

/-- The same is true of any number of steps. -/
theorem mem_of_reaches {ctx : Context} {steps : List Step} {a n : Node}
    (hsteps : ∀ step ∈ steps, step.axis.LooksDown) (h : Reaches ctx steps a n) :
    a ∈ n :: n.ancestors := by
  induction steps generalizing a with
  | nil =>
      obtain rfl := h
      exact List.mem_cons_self
  | cons step steps ih =>
      obtain ⟨hstep, hsteps⟩ := List.forall_mem_cons.1 hsteps
      obtain ⟨m, hm, hn⟩ := h
      exact Node.mem_self_ancestors_trans (mem_of_leads hstep hm) (ih hsteps hn)

section Found

variable {ctx : Context} {nodes found : List Node} {n : Node}
  (hnodes : ∀ a ∈ nodes, ctx.document.Holds a)

include hnodes

/-- What a step finds from nodes of the document is what it leads to. -/
theorem mem_followStep {step : Step} (h : followStep ctx step nodes = .ok found) :
    n ∈ found ↔ ∃ a ∈ nodes, Leads ctx step a n := by
  obtain ⟨axis, test, predicates⟩ := step
  rw [followStep] at h
  obtain ⟨lists, hlists, h⟩ := bind_eq_ok.1 h
  obtain rfl := Except.ok.inj h
  have hflat (x : Node) :
      x ∈ lists.flatten ↔ ∃ a ∈ nodes, Leads ctx ⟨axis, test, predicates⟩ a x := by
    rw [List.mem_flatten]
    constructor
    · rintro ⟨kept, hkept, hx⟩
      obtain ⟨a, ha, hnarrow⟩ := (mem_of_mapM_eq_ok hlists).1 hkept
      exact ⟨a, ha, kept, hnarrow, hx⟩
    · rintro ⟨a, ha, kept, hnarrow, hx⟩
      exact ⟨kept, (mem_of_mapM_eq_ok hlists).2 ⟨a, ha, hnarrow⟩, hx⟩
  have hheld : ∀ x ∈ lists.flatten, ctx.document.Holds x := by
    intro x hx
    obtain ⟨a, ha, hleads⟩ := (hflat x).1 hx
    exact (hnodes a ha).of_leads hleads
  rw [Node.mem_inOrder hheld]
  exact hflat n

/-- What steps find from nodes of the document is what they lead to. -/
theorem mem_followSteps {steps : List Step} (h : followSteps ctx steps nodes = .ok found) :
    n ∈ found ↔ ∃ a ∈ nodes, Reaches ctx steps a n := by
  induction steps generalizing nodes with
  | nil =>
      rw [followSteps] at h
      obtain rfl := Except.ok.inj h
      constructor
      · intro hn
        exact ⟨n, hn, rfl⟩
      · rintro ⟨a, ha, rfl⟩
        exact ha
  | cons step steps ih =>
      rw [followSteps] at h
      obtain ⟨middle, hmiddle, h⟩ := bind_eq_ok.1 h
      have hleads (m : Node) : m ∈ middle ↔ ∃ a ∈ nodes, Leads ctx step a m :=
        mem_followStep hnodes hmiddle
      have hheld : ∀ m ∈ middle, ctx.document.Holds m := by
        intro m hm
        obtain ⟨a, ha, hm⟩ := (hleads m).1 hm
        exact (hnodes a ha).of_leads hm
      rw [ih hheld h]
      constructor
      · rintro ⟨m, hm, hn⟩
        obtain ⟨a, ha, hm⟩ := (hleads m).1 hm
        exact ⟨a, ha, m, hm, hn⟩
      · rintro ⟨a, ha, m, hm, hn⟩
        exact ⟨m, (hleads m).2 ⟨a, ha, hm⟩, hn⟩

end Found

end Restyle
