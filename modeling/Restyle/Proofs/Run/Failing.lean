import Mathlib
import Restyle.Proofs.Expr.Computed
import Restyle.Proofs.Run.Hereditary

/-!
# Restyle.Proofs.Run.Failing

What a run may fail with.

Putting actions together adds no failures to those of the parts.  So a run fails only as its
expressions do, as its instructions do themselves, or because it goes too deep; and of expressions
only those count that the stylesheet has.

* `Action.FailsAs` — every failure of an action is of some sort;
* `Job.composable_failsAs` — from the parts of a run to the whole;
* `Job.enterAt_failsAs`, `Job.main_failsAs` — entries and whole runs;
* `Job.main_mayFail` — the failures of all runs.
-/

namespace Restyle

namespace Action

variable {α β : Type} {P : Failure → Prop}

/-- Wherever an action starts, what it fails with is of some sort. -/
def FailsAs (P : Failure → Prop) (x : Action α) : Prop :=
  ∀ s failure, (x.run s).result = .error failure → P failure

theorem failsAs_pure (a : α) : (pure a : Action α).FailsAs P := fun _ _ h => nomatch h

theorem failsAs_fail {failure : Failure} (h : P failure) :
    (Action.fail failure : Action α).FailsAs P := by
  rintro s failure ⟨⟩
  exact h

theorem failsAs_report (events : List Event) : (Action.report events).FailsAs P :=
  fun _ _ h => nomatch h

theorem failsAs_change (f : Environment → Environment) : (Action.change f).FailsAs P :=
  fun _ _ h => nomatch h

theorem FailsAs.bind {x : Action α} {f : α → Action β} (hx : x.FailsAs P)
    (hf : ∀ a, (f a).FailsAs P) : (x >>= f).FailsAs P := by
  intro s failure h
  obtain hfirst | ⟨a, hsecond⟩ := error_of_bind h
  · exact hx s failure hfirst
  · exact hf a _ failure hsecond

/-- The state that surrounds an action has no part in how it fails. -/
theorem FailsAs.between {x : Action α} (hx : x.FailsAs P)
    (before after : Environment → Environment) : (x.between before after).FailsAs P :=
  fun s => hx (s.update before)

theorem FailsAs.watch {x : Action α} (hx : x.FailsAs P) (routine : Routine) :
    (x.watch routine).FailsAs P := hx

theorem FailsAs.inLevel {x : Action α} (hx : x.FailsAs P) {limit : Nat}
    (hdeep : P (.tooDeep limit)) : (x.inLevel limit).FailsAs P := by
  intro s failure h
  by_cases hdepth : limit ≤ s.depth
  · rw [run_inLevel_of_le x hdepth] at h
    rw [← Except.error.inj h]
    exact hdeep
  · rw [run_inLevel_of_not_le x hdepth] at h
    exact hx s.enter failure h

theorem FailsAs.text {x : Action Unit} (hx : x.FailsAs P) : x.text.FailsAs P :=
  fun s failure h => hx s failure (map_eq_error.1 h)

theorem FailsAs.inElement {x : Action Unit} (hx : x.FailsAs P) (name : String) :
    (x.inElement name).FailsAs P :=
  (failsAs_report _).bind fun _ => hx.bind fun _ => failsAs_report _

end Action

namespace Job

variable (job : Job) {P : Failure → Prop}

/-- What is computed fails as the failures of evaluation turn out in a run. -/
theorem failsAs_ask {α : Type} (Missing : String → Prop) (focus : Focus)
    {f : Context → Except ExprError α}
    (hf : ∀ ctx, ctx.functions = Function.names → Computed Missing (f ctx))
    (herror : ∀ error : ExprError, error.Arises Missing → P (.ofExprError error)) :
    (job.ask focus f).FailsAs P := by
  intro s failure h
  obtain ⟨error, herr, rfl⟩ := mapError_eq_error.1 h
  exact herror error (hf _ rfl error herr)

section Runs

variable (hraise : ∀ failure, job.MayRaise failure → P failure)
  (hrule : ∀ mode focus, (job.ruleFor mode focus).FailsAs P)

include hraise hrule

theorem composable_failsAs (enter : Entry → Action Unit) :
    job.Composable (fun _ : Unit => enter) (fun _ => True) fun _ x => (x ()).FailsAs P where
  pure _ _ _ := Action.failsAs_pure _
  bind hx hf := hx.bind fun a => hf a (Yield.holds_true _ a)
  fail hfailure := Action.failsAs_fail (hraise _ hfailure)
  string _ := trivial
  ruleFor := hrule
  report _ := Action.failsAs_report _
  inElement name hx := hx.inElement name
  bindName _ _ _ := Action.failsAs_change _
  inScope hx := (hx.between _ _).watch _
  text hx := hx.text
  watch routine hx _ _ _ := hx.watch routine

variable {E : Expr → Prop} (heval : ∀ focus e, E e → (job.eval focus e).FailsAs P)
  (hdeep : P (.tooDeep job.settings.maxDepth))
  (htemplates : ∀ template ∈ job.stylesheet.rules.templates, ∀ e ∈ template.exprs, E e)

include heval hdeep htemplates

/-- By induction on the levels that are left: only templates of the stylesheet are entered. -/
theorem enterAt_failsAs (left : Nat) (entry : Entry)
    (hentry : entry.IsAmong job.stylesheet.rules) : (job.enterAt left entry).FailsAs P := by
  induction left generalizing entry with
  | zero => exact Action.failsAs_fail hdeep
  | succ left ih =>
      have h := job.composable_failsAs hraise hrule (job.enterAt left)
      have hpassed (passed : Scope) : passed.All fun _ => True := fun _ _ => trivial
      cases entry with
      | template template focus passed =>
          have hinside := h.inside (fun _ => job.settings.maxDepth) (fun entry _ => ih entry) heval
            template focus (hpassed passed) (htemplates template hentry)
          exact (hinside.between _ _).inLevel hdeep
      | children node mode =>
          exact (h.applyAll (fun _ => job.settings.maxDepth) (fun entry _ => ih entry) mode
            (hpassed []) node.children).inLevel hdeep

theorem main_failsAs (hglobals : ∀ new ∈ job.stylesheet.globals, ∀ e ∈ sourceExprs new.value, E e)
    (params : Scope) : (job.main params).FailsAs P :=
  (job.composable_failsAs hraise hrule job.enter).main (fun _ => job.settings.maxDepth) heval
    (fun entry _ => job.enterAt_failsAs hraise hrule heval hdeep htemplates _ entry)
    (Action.failsAs_change _) (fun hx => hx.between _ _) (fun _ _ _ => Action.failsAs_change _)
    (fun _ _ => trivial) hglobals

end Runs

/-! ## All runs -/

theorem mayFail_of_arises {Missing : String → Prop} {error : ExprError} (h : error.Arises Missing) :
    job.MayFail (.ofExprError error) := by
  cases h with
  | unbound name => exact .unbound name
  | unknownFunction | noImplementation | wrongArity | notNodes | notUnion => exact .evaluation _

theorem main_mayFail (params : Scope) : (job.main params).FailsAs job.MayFail := by
  refine job.main_failsAs (E := fun _ => True) (fun _ => MayRaise.mayFail) (fun mode focus => ?_)
    (fun focus e _ => ?_) .tooDeep (fun _ _ _ _ => trivial) (fun _ _ _ _ => trivial) params
  · exact job.failsAs_ask (fun _ => True) focus
      (fun ctx _ => job.stylesheet.rules.computed_find? ctx mode focus.node
        fun _ _ _ _ _ _ _ => trivial) fun _ => job.mayFail_of_arises
  · exact job.failsAs_ask (fun _ => True) focus
      (fun ctx _ => e.computed_eval ctx fun _ _ _ => trivial) fun _ => job.mayFail_of_arises

end Job

end Restyle
