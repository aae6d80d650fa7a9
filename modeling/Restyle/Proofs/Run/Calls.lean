import Mathlib
import Restyle.Proofs.Run.Ending
import Restyle.Proofs.Stylesheet.Expressions

/-!
# Restyle.Proofs.Run.Calls

No run wants a function.

Every expression of a stylesheet is checked when it is read, and what the check accepts never fails
for want of a function.  Only expressions of the stylesheet are evaluated in a run, so no run fails
in that way.

* `ExprError.WantsFunction`, `Failure.WantsFunction` — failures for want of a function;
* `Expr.not_wantsFunction`, `Rules.not_wantsFunction` — what is known does not want one;
* `Job.main_not_wantsFunction` — from expressions to runs;
* `Stylesheet.calls_checked` — the main result.
-/

namespace Restyle

/-- A failure for want of a function: it is not known, or it is known by name only. -/
def ExprError.WantsFunction (error : ExprError) : Prop :=
  ∃ name, error = .unknownFunction name ∨ error = .noImplementation name

/-- A failure of a run for want of a function. -/
def Failure.WantsFunction (failure : Failure) : Prop :=
  ∃ error : ExprError, failure = .evaluation (.expression error) ∧ error.WantsFunction

/-- Where nothing is missing, no failure is for want of a function. -/
theorem ExprError.Arises.not_wantsFunction {error : ExprError} (h : error.Arises fun _ => False) :
    ¬error.WantsFunction := by
  rintro ⟨name, rfl | rfl⟩
  · cases h with
    | unknownFunction hmissing => exact hmissing
  · cases h with
    | noImplementation hmissing => exact hmissing

theorem ExprError.Arises.not_wantsFunction_ofExprError {error : ExprError}
    (h : error.Arises fun _ => False) : ¬(Failure.ofExprError error).WantsFunction := by
  rintro ⟨other, hfailure, hwants⟩
  cases h with
  | unbound name => cases hfailure
  | unknownFunction hmissing | noImplementation hmissing => exact hmissing
  | wrongArity | notNodes | notUnion =>
      obtain rfl := RunProblem.expression.inj (Failure.evaluation.inj hfailure)
      obtain ⟨name, hname | hname⟩ := hwants <;> cases hname

/-! ## Expressions and rules -/

section Known

variable {ctx : Context} (hfunctions : ctx.functions = Function.names)

include hfunctions

theorem Expr.Known.computed_eval {e : Expr} (h : e.Known) :
    Computed (fun _ => False) (e.eval ctx) :=
  e.computed_eval ctx fun _ hname hlacks => h.not_lacks hfunctions hname hlacks

theorem Rules.computed_find?_of_known {rules : Rules}
    (h : ∀ rule ∈ rules.ranked, ∀ e ∈ rule.path.predicates, e.Known) (mode : Option String)
    (node : Node) : Computed (fun _ => False) (rules.find? ctx mode node) :=
  rules.computed_find? ctx mode node fun rule hrule e he _ hname hlacks =>
    (h rule hrule e he).not_lacks hfunctions hname hlacks

end Known

/-! ## Runs -/

namespace Job

variable (job : Job)

theorem MayRaise.not_wantsFunction {job : Job} {failure : Failure} (h : job.MayRaise failure) :
    ¬failure.WantsFunction := by
  rintro ⟨error, rfl, -⟩
  cases h

/-- Where all expressions of its stylesheet are known, a run never wants a function. -/
theorem main_not_wantsFunction (hknown : ∀ e ∈ job.stylesheet.exprs, e.Known) (params : Scope) :
    (job.main params).FailsAs fun failure => ¬failure.WantsFunction := by
  simp only [Stylesheet.exprs, List.forall_mem_append, List.forall_mem_flatMap] at hknown
  obtain ⟨hglobals, htemplates, hpatterns⟩ := hknown
  refine job.main_failsAs (fun _ h => h.not_wantsFunction) (fun mode focus => ?_)
    (fun focus e he => ?_) ?_ htemplates hglobals params
  · exact job.failsAs_ask (fun _ => False) focus
      (fun ctx hctx => Rules.computed_find?_of_known hctx hpatterns mode focus.node)
      fun error h => h.not_wantsFunction_ofExprError
  · exact job.failsAs_ask (fun _ => False) focus (fun ctx hctx => he.computed_eval hctx)
      fun error h => h.not_wantsFunction_ofExprError
  · rintro ⟨error, hfailure, -⟩
    cases hfailure

end Job

namespace Stylesheet

/-- The run of a stylesheet that was read never wants a function. -/
theorem events_not_wantsFunction {text : String} {stylesheet : Stylesheet}
    (h : ofText text = .ok stylesheet) {settings : Settings} {params : Parameters}
    {source : String} {failure : Failure}
    (hfailed : stylesheet.events settings params source = .error failure) :
    ¬failure.WantsFunction := by
  unfold Stylesheet.events at hfailed
  split at hfailed
  · obtain rfl := Except.error.inj hfailed
    rintro ⟨error, hfailure, -⟩
    cases hfailure
  · next document _ =>
    let job : Job := ⟨stylesheet, document, settings⟩
    have hmain := job.main_not_wantsFunction (known_of_ofText h) params.scope
    exact hmain .initial failure (map_eq_error.1 hfailed)

/-- **Functions are checked once.**  The check refuses an expression for the first function that it
calls, in the order in which calls are visited, among those that are not known.  An expression that
it accepts never fails for want of a function, whatever it is evaluated for, as long as the same
functions are known.  All expressions of a stylesheet that was read have been accepted by the check,
so no run of it fails for want of a function, whatever the document, the settings and the values
from outside. -/
theorem calls_checked :
    (∀ (functions : List String) (e : Expr) (error : ExprError),
      e.checkCalls functions = .error error ↔
        ∃ name before after, e.calls = before ++ name :: after ∧
          (∀ other ∈ before, other ∈ functions) ∧ name ∉ functions ∧
            error = .unknownFunction name) ∧
    (∀ (e : Expr) (ctx : Context), e.checkCalls Function.names = .ok () →
      ctx.functions = Function.names →
        ∀ error, e.eval ctx = .error error → ¬error.WantsFunction) ∧
    ∀ (text : String) (stylesheet : Stylesheet), ofText text = .ok stylesheet →
      (∀ e ∈ stylesheet.exprs, e.checkCalls Function.names = .ok ()) ∧
      ∀ (settings : Settings) (params : Parameters) (source : String) (failure : Failure),
        stylesheet.transform settings params source = .error failure ∨
            stylesheet.events settings params source = .error failure →
          ¬failure.WantsFunction := by
  refine ⟨fun _ _ _ => Expr.checkCalls_eq_error, fun e ctx hcheck hfunctions error h => ?_,
    fun text stylesheet h => ⟨fun e he => Expr.checkCalls_eq_ok.2 (known_of_ofText h e he), ?_⟩⟩
  · have hknown : e.Known := Expr.checkCalls_eq_ok.1 hcheck
    exact (hknown.computed_eval hfunctions error h).not_wantsFunction
  · rintro settings params source failure (hfailed | hfailed)
    · obtain hrun | ⟨events, -, hwritten⟩ := bind_eq_error.1 hfailed
      · exact events_not_wantsFunction h hrun
      · obtain ⟨problem, -, rfl⟩ := mapError_eq_error.1 hwritten
        rintro ⟨error, hfailure, -⟩
        cases hfailure
    · exact events_not_wantsFunction h hfailed

/-- A stylesheet that calls a function with an argument that it does not take. -/
def overfilled : String :=
  "<xsl:stylesheet version='1.0' xmlns:xsl='http://www.w3.org/1999/XSL/Transform'>" ++
    "<xsl:template match='/'><xsl:value-of select='last(1)'/></xsl:template></xsl:stylesheet>"

theorem fails_overfilled : ((ofText overfilled).toOption.any fun stylesheet =>
    (stylesheet.transform .standard [] "<a/>").toOption.isNone) = true := by
  decide +kernel

/-- The run of `overfilled` fails, but not for want of a function; nor does the call in it.  The
check would have refused a call of a function that is not known, even in an argument. -/
theorem calls_checked_overfilled :
    (∃ stylesheet failure, ofText overfilled = .ok stylesheet ∧
      stylesheet.transform .standard [] "<a/>" = .error failure ∧ ¬failure.WantsFunction) ∧
    (∃ error, (Expr.call "last" [.literal "x"]).eval
        ⟨(Document.mk []).root, ⟨[]⟩, 1, 1, Function.names, fun _ => none⟩ = .error error ∧
      ¬error.WantsFunction) ∧
    (Expr.call "concat" [.call "lost" [], .call "gone" []]).checkCalls Function.names =
      .error (.unknownFunction "lost") := by
  obtain ⟨hrefused, hevaluated, hruns⟩ := calls_checked
  refine ⟨?_, ?_, (hrefused _ _ _).2 ⟨"lost", ["concat"], ["gone"], rfl, by decide, by decide, rfl⟩⟩
  · have hfails := fails_overfilled
    cases hread : ofText overfilled with
    | error failure =>
        rw [hread] at hfails
        cases hfails
    | ok stylesheet =>
        rw [hread] at hfails
        cases hrun : stylesheet.transform .standard [] "<a/>" with
        | error failure =>
            exact ⟨stylesheet, failure, rfl, hrun, (hruns overfilled stylesheet hread).2 _ _ _ _
              (.inl hrun)⟩
        | ok text =>
            change (stylesheet.transform .standard [] "<a/>").toOption.isNone = true at hfails
            rw [hrun] at hfails
            cases hfails
  · have hcheck : (Expr.call "last" [.literal "x"]).checkCalls Function.names = .ok () := rfl
    have herror : (Expr.call "last" [.literal "x"]).eval
        ⟨(Document.mk []).root, ⟨[]⟩, 1, 1, Function.names, fun _ => none⟩ =
          .error (.wrongArity "last" "0 arguments") := rfl
    exact ⟨_, herror, hevaluated _ _ hcheck rfl _ herror⟩

end Stylesheet

end Restyle
