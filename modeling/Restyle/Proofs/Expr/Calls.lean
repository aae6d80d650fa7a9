import Mathlib
import Restyle.Proofs.Expr.Computed
import Restyle.Proofs.Pattern.Agreement

/-!
# Restyle.Proofs.Expr.Calls

The functions that expressions call.

An expression is checked before it is used: it is refused for the first call, in the order in which
calls are listed, of a function that is not known.  What has been read has been checked, so all that
it calls is known.

* `Function.exists_ofName?` — every name that may be called is that of a function;
* `Expr.checkCalls_eq_ok`, `Expr.checkCalls_eq_error` — what the check says;
* `Expr.Known`, `Expr.known_of_compile`, `Pattern.known_of_parse` — what has been read is known.
-/

namespace Restyle

/-- Every name that may be called where nothing else is said is that of a function. -/
theorem Function.exists_ofName? {name : String} (h : name ∈ names) : ∃ f, ofName? name = some f :=
  Option.isSome_iff_exists.1 ((by decide : ∀ name ∈ names, (ofName? name).isSome) name h)

namespace Expr

/-! ## The check -/

variable {functions : List String} {e : Expr}

theorem find?_calls_eq_none : (e.calls.find? fun name => !functions.contains name) = none ↔
    ∀ name ∈ e.calls, name ∈ functions := by
  simp

theorem checkCalls_eq_ok : e.checkCalls functions = .ok () ↔
    ∀ name ∈ e.calls, name ∈ functions := by
  rw [← find?_calls_eq_none, checkCalls]
  split
  · next hfound => simp only [hfound, reduceCtorEq]
  · next hnone => simp only [hnone]

/-- The function for which an expression is refused is the first one called that is not known. -/
theorem checkCalls_eq_error {error : ExprError} : e.checkCalls functions = .error error ↔
    ∃ name before after, e.calls = before ++ name :: after ∧
      (∀ other ∈ before, other ∈ functions) ∧ name ∉ functions ∧
        error = .unknownFunction name := by
  have hfirst (name : String) : (e.calls.find? fun name => !functions.contains name) = some name ↔
      ∃ before after, e.calls = before ++ name :: after ∧
        (∀ other ∈ before, other ∈ functions) ∧ name ∉ functions := by
    simp only [List.find?_eq_some_iff_append, Bool.not_eq_true', List.contains_eq_mem,
      decide_eq_false_iff_not, Bool.not_not, decide_eq_true_eq]
    constructor
    · rintro ⟨hname, before, after, hcalls, hbefore⟩
      exact ⟨before, after, hcalls, hbefore, hname⟩
    · rintro ⟨before, after, hcalls, hbefore, hname⟩
      exact ⟨hname, before, after, hcalls, hbefore⟩
  rw [checkCalls]
  split
  · next name hfound =>
    constructor
    · intro h
      obtain ⟨before, after, hcalls, hbefore, hname⟩ := (hfirst name).1 hfound
      exact ⟨name, before, after, hcalls, hbefore, hname, (Except.error.inj h).symm⟩
    · rintro ⟨other, before, after, hcalls, hbefore, hother, rfl⟩
      rw [(hfirst other).2 ⟨before, after, hcalls, hbefore, hother⟩] at hfound
      rw [Option.some.inj hfound]
  · next hnone =>
    refine ⟨nofun, ?_⟩
    rintro ⟨name, before, after, hcalls, hbefore, hname, -⟩
    rw [(hfirst name).2 ⟨before, after, hcalls, hbefore, hname⟩] at hnone
    cases hnone

/-! ## Reading -/

/-- An expression calls only functions that may be called where nothing else is said. -/
def Known (e : Expr) : Prop := ∀ name ∈ e.calls, name ∈ Function.names

theorem checkCalls_of_compile {source : String} (h : Expr.compile functions source = .ok e) :
    e.checkCalls functions = .ok () := by
  unfold compile at h
  split at h
  · cases h
  · split at h
    · cases h
    · next hnone =>
      obtain rfl := Except.ok.inj h
      exact checkCalls_eq_ok.2 (find?_calls_eq_none.1 hnone)

theorem known_of_compile {source : String} (h : Expr.compile Function.names source = .ok e) :
    e.Known :=
  checkCalls_eq_ok.1 (checkCalls_of_compile h)

/-- Where all functions may be called, what is known lacks nothing. -/
theorem Known.not_lacks (h : e.Known) {ctx : Context} (hfunctions : ctx.functions = Function.names)
    {name : String} (hname : name ∈ e.calls) : ¬ctx.Lacks name := by
  have hnames := h name hname
  rintro (hunknown | hnone)
  · exact hunknown (hfunctions ▸ hnames)
  · obtain ⟨f, hf⟩ := Function.exists_ofName? hnames
    rw [hf] at hnone
    cases hnone

theorem calls_of_mem_alternatives {part : Expr} (h : part ∈ Pattern.alternatives e) {name : String}
    (hname : name ∈ part.calls) : name ∈ e.calls := by
  fun_induction Pattern.alternatives e with
  | case1 left right ihleft ihright =>
      rw [calls, List.mem_append]
      exact (List.mem_append.1 h).imp ihleft ihright
  | case2 e =>
      obtain rfl := List.mem_singleton.1 h
      exact hname

end Expr

namespace Pattern

theorem mem_callsSteps {steps : List Step} {name : String} :
    name ∈ callsSteps steps ↔ ∃ step ∈ steps, name ∈ callsAll step.predicates := by
  induction steps with
  | nil => simp [callsSteps]
  | cons step steps ih =>
      obtain ⟨axis, test, predicates⟩ := step
      simp [callsSteps, callsStep, ih]

/-- The predicates in an alternative are those in the steps of the path that it was made from. -/
theorem calls_of_pathOf {e predicate : Expr} {path : PathPattern} (h : pathOf e = .ok path)
    (hpredicate : predicate ∈ path.predicates) {name : String} (hname : name ∈ predicate.calls) :
    name ∈ e.calls := by
  have hsteps {steps : List Step} {linked : List PatternStep} {absolute : Bool}
      (hlinked : linkSteps .child steps = .ok linked)
      (hpredicate : predicate ∈ PathPattern.predicates ⟨absolute, linked⟩) :
      name ∈ callsSteps steps := by
    obtain ⟨step, hstep, hmem⟩ := List.mem_flatMap.1 hpredicate
    have hsteps : linked.flatMap PatternStep.steps = steps := steps_of_linkSteps hlinked
    refine mem_callsSteps.2 ⟨step.step, ?_, mem_callsAll.2 ⟨predicate, hmem, hname⟩⟩
    rw [← hsteps]
    exact List.mem_flatMap.2 ⟨step, hstep, List.mem_append_right _ List.mem_cons_self⟩
  cases e with
  | path start steps =>
      rw [Expr.calls]
      cases start with
      | context | root =>
          obtain ⟨linked, hlinked, hpath⟩ := bind_eq_ok.1 h
          obtain rfl := Except.ok.inj hpath
          exact List.mem_append_right _ (hsteps hlinked hpredicate)
      | value start => cases h
  | _ => cases h

/-- The predicates in a pattern. -/
def predicates (pattern : Pattern) : List Expr := pattern.paths.flatMap PathPattern.predicates

/-- What is read as a pattern is checked as a whole, its predicates included. -/
theorem known_of_parse {text : String} {pattern : Pattern}
    (h : Pattern.parse Function.names text = .ok pattern) : ∀ e ∈ pattern.predicates, e.Known := by
  unfold parse at h
  obtain ⟨whole, -, h⟩ := bind_eq_ok.1 (mapError_eq_ok.1 h)
  split at h
  · cases h
  · next hnone =>
    obtain ⟨paths, hpaths, h⟩ := bind_eq_ok.1 h
    obtain rfl := Except.ok.inj h
    intro e he name hname
    obtain ⟨path, hpath, hpredicate⟩ := List.mem_flatMap.1 he
    obtain ⟨part, hpart, hmade⟩ := (mem_of_mapM_eq_ok hpaths).1 hpath
    have hcalled := Expr.calls_of_mem_alternatives hpart (calls_of_pathOf hmade hpredicate hname)
    exact Expr.find?_calls_eq_none.1 hnone name hcalled

end Pattern

end Restyle
