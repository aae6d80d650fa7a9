import Mathlib
import Restyle.Proofs.Expr.Variables
import Restyle.Proofs.Run.Restoration

/-!
# Restyle.Proofs.Run.Isolation

What a run can see of the frames that are open.

Two runs are compared that start in states with the same globals and the same depth.  If their
innermost frames are the same too, nothing that instructions do can tell the states apart
(`Action.SeesFrame`).  A template is carried out in a frame of its own, so for it the frames below
do not matter at all (`Action.SeesGlobals`).  What is left is the choice of a rule: the predicates of
patterns are evaluated before the frame of the template is opened, and see the one that is open
then.

* `State.Alike`, `State.FramesApart` — the two ways in which states are compared;
* `Job.hereditary_seesFrame`, `Job.enterAt_sees` — from the parts of a run to the whole;
* `Job.seesGlobals_instantiate` — templates are isolated from where they are carried out;
* `Job.ChooseAlike.applyAll` — only the choice of rules can depend on the frames;
* `Job.handling_sees_patterns` — and it depends on the variables in patterns alone;
* `Job.template_isolated` — a template depends on no frame at all.
-/

namespace Restyle

/-! ## States compared -/

/-- Two states that differ in nothing but their frames. -/
structure State.FramesApart (s s' : State) : Prop where
  globals : s.environment.globals = s'.environment.globals
  depth : s.depth = s'.depth

/-- Two states that differ in nothing but the frames below the innermost one. -/
structure State.Alike (s s' : State) : Prop extends s.FramesApart s' where
  frame : s.environment.frames.head? = s'.environment.frames.head?

namespace State

variable {s s' : State}

/-- Names stand for the same in states that are alike. -/
theorem Alike.resolve_eq (h : s.Alike s') : s.environment.resolve = s'.environment.resolve := by
  obtain ⟨⟨hglobals, -⟩, hframe⟩ := h
  funext name
  unfold Environment.resolve
  rw [hglobals]
  cases hs : s.environment.frames with
  | nil =>
      rw [hs] at hframe
      rw [List.head?_eq_none_iff.1 hframe.symm]
  | cons frame outer =>
      rw [hs] at hframe
      obtain ⟨outer', hs'⟩ := List.head?_eq_some_iff.1 hframe.symm
      rw [hs']

theorem FramesApart.enter (h : s.FramesApart s') : s.enter.FramesApart s'.enter :=
  ⟨h.globals, congrArg (· + 1) h.depth⟩

theorem Alike.enter (h : s.Alike s') : s.enter.Alike s'.enter := ⟨h.toFramesApart.enter, h.frame⟩

theorem Alike.leave (h : s.Alike s') : s.leave.Alike s'.leave :=
  ⟨⟨h.globals, congrArg (· - 1) h.depth⟩, h.frame⟩

/-- A frame that has just been opened hides all others. -/
theorem FramesApart.openFrame (h : s.FramesApart s') :
    (s.update Environment.openFrame).Alike (s'.update Environment.openFrame) :=
  ⟨⟨h.globals, h.depth⟩, rfl⟩

/-- Two states that are alike have no frame open, or the same innermost frame. -/
theorem Alike.cases (h : s.Alike s') :
    (s.environment.frames = [] ∧ s'.environment.frames = []) ∨
      ∃ frame outer outer', s.environment.frames = frame :: outer ∧
        s'.environment.frames = frame :: outer' := by
  have hframe := h.frame
  cases hs : s.environment.frames with
  | nil =>
      rw [hs] at hframe
      exact .inl ⟨rfl, List.head?_eq_none_iff.1 hframe.symm⟩
  | cons frame outer =>
      rw [hs] at hframe
      obtain ⟨outer', hs'⟩ := List.head?_eq_some_iff.1 hframe.symm
      exact .inr ⟨frame, outer, outer', rfl, hs'⟩

theorem Alike.bindName (h : s.Alike s') (name : String) (value : Value) :
    (s.update (Environment.bind name value)).Alike (s'.update (Environment.bind name value)) := by
  have hglobals := congrArg ((name, value) :: ·) h.globals
  unfold State.update Environment.bind
  obtain ⟨hs, hs'⟩ | ⟨frame, outer, outer', hs, hs'⟩ := h.cases
  · rw [hs, hs']
    exact ⟨⟨hglobals, h.depth⟩, h.frame⟩
  · rw [hs, hs']
    cases frame with
    | nil => exact ⟨⟨hglobals, h.depth⟩, h.frame⟩
    | cons scope scopes => exact ⟨⟨h.globals, h.depth⟩, rfl⟩

theorem Alike.openScope (h : s.Alike s') :
    (s.update Environment.openScope).Alike (s'.update Environment.openScope) := by
  unfold State.update Environment.openScope
  obtain ⟨hs, hs'⟩ | ⟨frame, outer, outer', hs, hs'⟩ := h.cases
  · rw [hs, hs']
    exact h.toFramesApart.openFrame
  · rw [hs, hs']
    exact ⟨⟨h.globals, h.depth⟩, rfl⟩

theorem Alike.closeScope (h : s.Alike s') :
    (s.update Environment.closeScope).Alike (s'.update Environment.closeScope) := by
  unfold State.update Environment.closeScope
  obtain ⟨hs, hs'⟩ | ⟨frame, outer, outer', hs, hs'⟩ := h.cases
  · rw [hs, hs']
    exact h
  · rw [hs, hs']
    exact ⟨⟨h.globals, h.depth⟩, rfl⟩

end State

/-! ## Actions in two states -/

namespace Action

variable {α β : Type}

/-- An action ends the same way in two states, with the same events. -/
structure Same (x : Action α) (s s' : State) : Prop where
  result : (x.run s).result = (x.run s').result
  report : (x.run s).report = (x.run s').report

/-- An action cannot tell apart states that are alike, and it leaves them alike. -/
def SeesFrame (x : Action α) : Prop :=
  ∀ s s', s.Alike s' → x.Same s s' ∧ (x.run s).state.Alike (x.run s').state

/-- An action cannot tell apart states that differ in their frames. -/
def SeesGlobals (x : Action α) : Prop := ∀ s s', s.FramesApart s' → x.Same s s'

variable {s s' : State} {x : Action α}

theorem Same.bind {f : α → Action β} (hx : x.Same s s')
    (hf : ∀ a, (f a).Same (x.run s).state (x.run s').state) : (x >>= f).Same s s' := by
  obtain ⟨hresult, hreport⟩ := hx
  cases h : (x.run s).result with
  | error failure =>
      rw [h] at hresult
      constructor
      · rw [run_bind_of_error f h, run_bind_of_error f hresult.symm]
      · rw [run_bind_of_error f h, run_bind_of_error f hresult.symm]
        exact hreport
  | ok a =>
      rw [h] at hresult
      constructor
      · rw [run_bind_of_ok f h, run_bind_of_ok f hresult.symm]
        exact (hf a).result
      · rw [run_bind_of_ok f h, run_bind_of_ok f hresult.symm]
        change (x.run s).report.append _ = (x.run s').report.append _
        rw [hreport, (hf a).report]

/-- Where the first action leaves both states as it found them, the second one starts in them. -/
theorem Restores.same_bind {f : α → Action β} (hrestores : x.Restores) (hx : x.Same s s')
    (hf : ∀ a, (f a).Same s s') : (x >>= f).Same s s' :=
  hx.bind fun a => by
    rw [hrestores s, hrestores s']
    exact hf a

theorem Same.watch (hx : x.Same s s') (routine : Routine) : (x.watch routine).Same s s' :=
  ⟨hx.result, hx.report⟩

theorem Same.inLevel {limit : Nat} (hdepth : s.depth = s'.depth) (hx : x.Same s.enter s'.enter) :
    (x.inLevel limit).Same s s' := by
  by_cases h : limit ≤ s.depth
  · have h' : limit ≤ s'.depth := hdepth ▸ h
    constructor
    · rw [run_inLevel_of_le x h, run_inLevel_of_le x h']
      rfl
    · rw [run_inLevel_of_le x h, run_inLevel_of_le x h']
      rfl
  · have h' : ¬limit ≤ s'.depth := hdepth ▸ h
    constructor
    · rw [run_inLevel_of_not_le x h, run_inLevel_of_not_le x h']
      exact hx.result
    · rw [run_inLevel_of_not_le x h, run_inLevel_of_not_le x h']
      exact hx.report

/-! ### What sees the innermost frame -/

theorem seesFrame_pure (a : α) : (pure a : Action α).SeesFrame :=
  fun _ _ h => ⟨⟨rfl, rfl⟩, h⟩

theorem seesFrame_fail (failure : Failure) : (Action.fail failure : Action α).SeesFrame :=
  fun _ _ h => ⟨⟨rfl, rfl⟩, h⟩

theorem seesFrame_report (events : List Event) : (Action.report events).SeesFrame :=
  fun _ _ h => ⟨⟨rfl, rfl⟩, h⟩

theorem SeesFrame.bind {f : α → Action β} (hx : x.SeesFrame) (hf : ∀ a, (f a).SeesFrame) :
    (x >>= f).SeesFrame := by
  intro s s' hs
  obtain ⟨hsame, halike⟩ := hx s s' hs
  refine ⟨hsame.bind fun a => (hf a _ _ halike).1, ?_⟩
  cases h : (x.run s).result with
  | error failure =>
      rw [run_bind_of_error f h, run_bind_of_error f (hsame.result.symm.trans h)]
      exact halike
  | ok a =>
      rw [run_bind_of_ok f h, run_bind_of_ok f (hsame.result.symm.trans h)]
      exact (hf a _ _ halike).2

theorem SeesFrame.watch (hx : x.SeesFrame) (routine : Routine) : (x.watch routine).SeesFrame := by
  intro s s' hs
  obtain ⟨hsame, halike⟩ := hx s s' hs
  exact ⟨hsame.watch routine, halike⟩

theorem SeesFrame.inScope (hx : x.SeesFrame) : x.inScope.SeesFrame := by
  intro s s' hs
  obtain ⟨⟨hresult, hreport⟩, halike⟩ := hx _ _ hs.openScope
  exact ⟨⟨hresult, hreport⟩, halike.closeScope⟩

theorem SeesFrame.text {x : Action Unit} (hx : x.SeesFrame) : x.text.SeesFrame := by
  intro s s' hs
  obtain ⟨⟨hresult, hreport⟩, halike⟩ := hx s s' hs
  refine ⟨⟨?_, rfl⟩, halike⟩
  change (x.run s).result.map (fun _ => Event.textOf (x.run s).report.toList) =
    (x.run s').result.map fun _ => Event.textOf (x.run s').report.toList
  rw [hresult, hreport]

theorem SeesFrame.inLevel (hx : x.SeesFrame) (limit : Nat) : (x.inLevel limit).SeesFrame := by
  intro s s' hs
  obtain ⟨hsame, halike⟩ := hx _ _ hs.enter
  refine ⟨hsame.inLevel hs.depth, ?_⟩
  by_cases h : limit ≤ s.depth
  · rw [run_inLevel_of_le x h, run_inLevel_of_le x (hs.depth ▸ h)]
    exact hs
  · rw [run_inLevel_of_not_le x h, run_inLevel_of_not_le x (hs.depth ▸ h)]
    exact halike.leave

/-! ### What sees nothing but the globals -/

/-- In a frame of its own, an action cannot see the others. -/
theorem SeesFrame.inFrame (hx : x.SeesFrame) : x.inFrame.SeesGlobals := by
  intro s s' hs
  obtain ⟨⟨hresult, hreport⟩, -⟩ := hx _ _ hs.openFrame
  exact ⟨hresult, hreport⟩

theorem SeesGlobals.inLevel (hx : x.SeesGlobals) (limit : Nat) : (x.inLevel limit).SeesGlobals :=
  fun s s' hs => (hx s.enter s'.enter hs.enter).inLevel hs.depth

theorem SeesGlobals.seesFrame (hx : x.SeesGlobals) (hrestores : x.Restores) : x.SeesFrame := by
  intro s s' hs
  rw [hrestores s, hrestores s']
  exact ⟨hx s s' hs.toFramesApart, hs⟩

end Action

namespace Job

variable (job : Job)

/-! ## From the parts of a run to the whole -/

theorem seesFrame_ask {α : Type} (focus : Focus) (f : Context → Except ExprError α) :
    (job.ask focus f).SeesFrame := by
  intro s s' hs
  refine ⟨⟨?_, rfl⟩, hs⟩
  change (f (job.context focus s.environment)).mapError _ =
    (f (job.context focus s'.environment)).mapError _
  unfold Job.context
  rw [hs.resolve_eq]

theorem hereditary_seesFrame : job.Hereditary fun x => x.SeesFrame where
  pure a := Action.seesFrame_pure a
  bind hx hf := hx.bind hf
  fail _ := Action.seesFrame_fail _
  eval focus e := job.seesFrame_ask focus fun ctx => e.eval ctx
  ruleFor mode focus :=
    job.seesFrame_ask focus fun ctx => job.stylesheet.rules.find? ctx mode focus.node
  report _ := Action.seesFrame_report _
  inElement _ hx := (Action.seesFrame_report _).bind fun _ => hx.bind fun _ =>
    Action.seesFrame_report _
  bindName name value := fun _ _ hs => ⟨⟨rfl, rfl⟩, hs.bindName name value⟩
  inScope hx := hx.inScope
  text hx := hx.text
  watch routine hx _ _ := hx.watch routine

section Template

variable {job} {enter : Entry → Action Unit} (henter : ∀ entry, (enter entry).SeesFrame)
  (hrestores : ∀ entry, (enter entry).Restores)

include henter hrestores

theorem seesGlobals_carryOut (template : Template) (focus : Focus) (passed : Scope) :
    (job.carryOut enter template focus passed).SeesGlobals :=
  (job.hereditary_seesFrame.inside henter hrestores template focus passed).inFrame

end Template

/-- Entries cannot see the frames below the innermost one, and entries for templates cannot see any
frame. -/
theorem enterAt_sees (left : Nat) :
    (∀ entry, (job.enterAt left entry).SeesFrame) ∧
      ∀ template focus passed,
        (job.enterAt left (.template template focus passed)).SeesGlobals := by
  induction left with
  | zero => exact ⟨fun _ => Action.seesFrame_fail _, fun _ _ _ _ _ _ => ⟨rfl, rfl⟩⟩
  | succ left ih =>
      have hrestores := job.enterAt_restores left
      have htemplate (template : Template) (focus : Focus) (passed : Scope) :
          (job.enterAt (left + 1) (.template template focus passed)).SeesGlobals :=
        (seesGlobals_carryOut ih.1 hrestores template focus passed).inLevel _
      refine ⟨fun entry => ?_, htemplate⟩
      cases entry with
      | template template focus passed =>
          exact (htemplate template focus passed).seesFrame (job.enterAt_restores _ _)
      | children node mode =>
          exact (job.hereditary_seesFrame.applyAll ih.1 hrestores mode [] node.children).inLevel _

/-- A template that is carried out does not see the frames that are open around it. -/
theorem seesGlobals_instantiate (left : Nat) (template : Template) (focus : Focus)
    (passed : Scope) (checked : Bool) :
    (job.instantiate (job.enterAt left) template focus passed checked).SeesGlobals := by
  intro s s' hs
  have hcheck : (job.checkPassed template passed checked).Same s s' := by
    unfold checkPassed
    split
    · split
      · exact ⟨rfl, rfl⟩
      · exact ⟨rfl, rfl⟩
    · exact ⟨rfl, rfl⟩
  exact ((restores_checkPassed template passed checked).same_bind hcheck
    fun _ => (job.enterAt_sees left).2 template focus passed s s' hs).watch _

/-! ## The choice of rules -/

variable {job} {s s' : State}

/-- Where two states choose the same rules in a mode, for whatever node is in focus. -/
def ChooseAlike (job : Job) (mode : Option String) (s s' : State) : Prop :=
  ∀ focus, job.stylesheet.rules.find? (job.context focus s.environment) mode focus.node =
    job.stylesheet.rules.find? (job.context focus s'.environment) mode focus.node

theorem ChooseAlike.ruleFor {mode : Option String} (hrules : job.ChooseAlike mode s s')
    (focus : Focus) : (job.ruleFor mode focus).Same s s' :=
  ⟨congrArg (Except.mapError Failure.ofExprError) (hrules focus), rfl⟩

theorem same_builtIn {enter : Entry → Action Unit} {mode : Option String}
    (hchildren : ∀ node, (enter (.children node mode)).Same s s') (node : Node) :
    (builtIn enter mode node).Same s s' := by
  unfold builtIn
  refine Action.Same.watch ?_ _
  split
  · exact hchildren node
  · exact hchildren node
  · exact ⟨rfl, rfl⟩
  · exact ⟨rfl, rfl⟩
  · exact ⟨rfl, rfl⟩
  · exact ⟨rfl, rfl⟩

theorem ChooseAlike.applyTo {mode : Option String} (hrules : job.ChooseAlike mode s s')
    (hs : s.FramesApart s') {left : Nat}
    (hchildren : ∀ node, (job.enterAt left (.children node mode)).Same s s') (passed : Scope)
    (focus : Focus) : (job.applyTo (job.enterAt left) mode passed focus).Same s s' := by
  refine Action.Restores.same_bind (Action.restores_compute _) (hrules.ruleFor focus) fun rule => ?_
  cases rule with
  | some rule => exact job.seesGlobals_instantiate left rule.template focus passed false s s' hs
  | none => exact same_builtIn hchildren focus.node

/-- Nodes are handled the same if what is done for children is the same. -/
theorem ChooseAlike.applyAll_of_children {mode : Option String}
    (hrules : job.ChooseAlike mode s s') (hs : s.FramesApart s') {left : Nat}
    (hchildren : ∀ node, (job.enterAt left (.children node mode)).Same s s') (passed : Scope)
    (nodes : List Node) : (job.applyAll (job.enterAt left) mode passed nodes).Same s s' := by
  have hrestores (focus : Focus) : (job.applyTo (job.enterAt left) mode passed focus).Restores :=
    restores_applyTo (job.enterAt_restores left) mode passed focus
  have heach :
      ((Focus.among nodes).forM (job.applyTo (job.enterAt left) mode passed)).Same s s' := by
    induction Focus.among nodes with
    | nil => exact ⟨rfl, rfl⟩
    | cons focus focuses ih =>
        exact (hrestores focus).same_bind (hrules.applyTo hs hchildren passed focus) fun _ => ih
  exact heach.watch _

/-- The choice of rules is all that the handling of nodes can make of the frames.  Templates that
are chosen cannot see them; the built-in rule goes on to children, in the same frames. -/
theorem ChooseAlike.applyAll {mode : Option String} (hrules : job.ChooseAlike mode s s')
    (hs : s.FramesApart s') (left : Nat) (passed : Scope) (nodes : List Node) :
    (job.applyAll (job.enterAt left) mode passed nodes).Same s s' := by
  induction left generalizing s s' passed nodes with
  | zero => exact hrules.applyAll_of_children hs (fun _ => ⟨rfl, rfl⟩) passed nodes
  | succ left ih =>
      have hdeeper : job.ChooseAlike mode s.enter s'.enter := hrules
      refine hrules.applyAll_of_children hs (fun node => ?_) passed nodes
      have hchildren :
          (job.applyAll (job.enterAt left) mode [] node.children).Same s.enter s'.enter :=
        ih hdeeper hs.enter [] node.children
      exact hchildren.inLevel hs.depth

/-- States in which the variables that the patterns of a mode mention stand for the same choose the
same rules in it. -/
theorem chooseAlike_of_patterns_agree {mode : Option String}
    (h : ∀ rule ∈ job.stylesheet.rules.inMode mode, ∀ name ∈ rule.path.variables,
      s.environment.resolve name = s'.environment.resolve name) : job.ChooseAlike mode s s' :=
  fun focus => job.stylesheet.rules.find?_congr (job.context focus s.environment) mode focus.node h

/-! ### Patterns that see a variable -/

/-- The test whether a variable has a text. -/
def isText (name text : String) : Expr :=
  .binary .equals (.call "string" [.variable name]) (.literal text)

/-- The only element of a document. -/
def spied : Node :=
  .child (.root ⟨[.element ⟨none, "a"⟩ [] []]⟩) 0 1 (.element ⟨none, "a"⟩ [] [])

/-- A template that writes a text. -/
def telling (text : String) : Template := ⟨none, none, none, none, [], [.text text]⟩

/-- A rule for elements where a variable has a text, whose template writes the text. -/
def spyingRule (name text : String) : Rule :=
  ⟨⟨false, [⟨.child, .any, [isText name text], .child⟩]⟩, none, .zero false, 0, telling text⟩

/-- A job with rules for elements where a variable has one of some texts. -/
def spying (name : String) (texts : List String) (maxDepth : Nat) : Job where
  stylesheet := ⟨⟨texts.map (spyingRule name), []⟩, [], .standard⟩
  document := ⟨[.element ⟨none, "a"⟩ [] []]⟩
  settings := ⟨maxDepth, false⟩

theorem eval_isText (ctx : Context) {name : String} (text : String)
    (hfunctions : ctx.functions = Function.names) :
    (isText name text).eval ctx =
      ((ctx.bound name).elim (Except.error (ExprError.unbound name)) fun value =>
        Except.ok (value.toText == text)).map Value.boolean := by
  unfold isText
  cases h : ctx.bound name with
  | none =>
      have hargs : evalAll ctx [.variable name] = .error (.unbound name) := by
        rw [evalAll, Expr.eval, h]
        rfl
      have hleft : (Expr.call "string" [.variable name]).eval ctx = .error (.unbound name) := by
        rw [Expr.eval, hargs]
        rfl
      rw [Expr.eval, hleft]
      · rfl
      · intro h
        cases h
      · intro h
        cases h
  | some value =>
      have hargs : evalAll ctx [.variable name] = .ok [value] := by
        rw [evalAll, Expr.eval, h, evalAll]
        rfl
      have hcall : ctx.call "string" [value] = .ok (.string value.toText) := by
        unfold Context.call
        rw [hfunctions]
        rfl
      have hleft : (Expr.call "string" [.variable name]).eval ctx = .ok (.string value.toText) := by
        rw [Expr.eval, hargs]
        exact hcall
      rw [Expr.eval, hleft, Expr.eval]
      · rfl
      · intro h
        cases h
      · intro h
        cases h

theorem accepts_spied {ctx : Context} {predicate : Expr} {keeps : Except ExprError Bool}
    (h : predicate.eval (ctx.focus spied 1 1) = keeps.map Value.boolean) :
    PathPattern.accepts ctx ⟨false, [⟨.child, .any, [predicate], .child⟩]⟩ spied = keeps := by
  have hnarrow : narrow ctx [predicate] [spied] =
      keeps.map fun keep => if keep then [spied] else [] := by
    rw [narrow, keepFrom, keepFrom]
    simp only [List.length_cons, List.length_nil, h]
    cases keeps with
    | error error => rfl
    | ok keep =>
        cases keep with
        | true => exact narrow.eq_1 ctx _
        | false => exact narrow.eq_1 ctx _
  have hstep : PatternStep.accepts ctx ⟨.child, .any, [predicate], .child⟩ spied = keeps := by
    change (narrow ctx [predicate] [spied] >>= fun kept => pure (kept.any spied.same)) = _
    rw [hnarrow]
    cases keeps with
    | error error => rfl
    | ok keep => cases keep <;> rfl
  change PathPattern.meets ctx false [⟨.child, .any, [predicate], .child⟩] spied = _
  rw [PathPattern.meets, hstep]
  cases keeps with
  | error error => rfl
  | ok keep => cases keep <;> rfl

theorem inMode_spying (name : String) (texts : List String) (maxDepth : Nat) :
    (spying name texts maxDepth).stylesheet.rules.inMode none = texts.map (spyingRule name) := by
  refine List.filter_eq_self.2 fun rule hrule => ?_
  obtain ⟨text, -, rfl⟩ := List.mem_map.1 hrule
  rfl

/-- The rule that is chosen is the one for the text that the variable has. -/
theorem ruleFor_spying {name : String} {value : Value} {s : State} {texts : List String}
    {maxDepth : Nat} (h : s.environment.resolve name = some value) (hmem : value.toText ∈ texts) :
    (((spying name texts maxDepth).ruleFor none ⟨spied, 1, 1⟩).run s).result =
      .ok (some (spyingRule name value.toText)) := by
  have hfirst (ctx : Context) (hfunctions : ctx.functions = Function.names)
      (hbound : ctx.bound name = some value) :
      Rules.firstFor ctx spied (texts.map (spyingRule name)) =
        .ok (some (spyingRule name value.toText)) := by
    induction texts with
    | nil => cases hmem
    | cons text texts ih =>
        have haccepts : (spyingRule name text).path.accepts ctx spied =
            .ok (value.toText == text) :=
          accepts_spied (by
            rw [eval_isText (ctx.focus spied 1 1) text hfunctions,
              show (ctx.focus spied 1 1).bound name = some value from hbound, Option.elim_some])
        rw [List.map_cons, Rules.firstFor, haccepts]
        cases htext : value.toText == text with
        | true => rw [eq_of_beq htext]; rfl
        | false => exact ih ((List.mem_cons.1 hmem).resolve_left (ne_of_beq_false htext))
  change (Rules.firstFor _ spied ((spying name texts maxDepth).stylesheet.rules.inMode
    none)).mapError _ = _
  rw [inMode_spying, hfirst _ rfl h]
  rfl

/-- No rule can be chosen if the variable stands for nothing. -/
theorem ruleFor_spying_of_none {name : String} {s : State} (text : String) (texts : List String)
    (maxDepth : Nat) (h : s.environment.resolve name = none) :
    (((spying name (text :: texts) maxDepth).ruleFor none ⟨spied, 1, 1⟩).run s).result =
      .error (.unbound name) := by
  have hfirst (ctx : Context) (hfunctions : ctx.functions = Function.names)
      (hbound : ctx.bound name = none) :
      Rules.firstFor ctx spied ((text :: texts).map (spyingRule name)) =
        .error (.unbound name) := by
    have haccepts : (spyingRule name text).path.accepts ctx spied = .error (.unbound name) :=
      accepts_spied (by
        rw [eval_isText (ctx.focus spied 1 1) text hfunctions,
          show (ctx.focus spied 1 1).bound name = none from hbound, Option.elim_none])
    rw [List.map_cons, Rules.firstFor, haccepts]
    rfl
  change (Rules.firstFor _ spied ((spying name (text :: texts) maxDepth).stylesheet.rules.inMode
    none)).mapError _ = _
  rw [inMode_spying, hfirst _ rfl h]
  rfl

/-- The template that is chosen writes its text. -/
theorem instantiate_telling (job : Job) {s : State} (h : s.depth < job.settings.maxDepth)
    (text : String) (focus : Focus) :
    ((job.instantiate (job.enterAt 1) (telling text) focus [] false).run s).result = .ok () ∧
      ((job.instantiate (job.enterAt 1) (telling text) focus [] false).run s).report.toList =
        [.text text] := by
  have hbody := Action.run_inLevel_of_not_le
    (job.carryOut (job.enterAt 0) (telling text) focus []) (Nat.not_le_of_lt h)
  constructor
  · change (((job.carryOut (job.enterAt 0) (telling text) focus []).inLevel
      job.settings.maxDepth).run s).result = .ok ()
    rw [hbody]
    rfl
  · change ((Report.part []).append (((job.carryOut (job.enterAt 0) (telling text) focus
      []).inLevel job.settings.maxDepth).run s).report).toList = _
    rw [hbody]
    rfl

/-- A node that is the only one is handled as it is handled among others. -/
theorem applyAll_singleton (job : Job) (enter : Entry → Action Unit) (mode : Option String)
    (passed : Scope) (node : Node) (s : State) :
    ((job.applyAll enter mode passed [node]).run s).result =
        ((job.applyTo enter mode passed ⟨node, 1, 1⟩).run s).result ∧
      ((job.applyAll enter mode passed [node]).run s).report.toList =
        ((job.applyTo enter mode passed ⟨node, 1, 1⟩).run s).report.toList := by
  have hrun : ((job.applyAll enter mode passed [node]).run s).result =
        ((job.applyTo enter mode passed ⟨node, 1, 1⟩ >>= pure).run s).result ∧
      ((job.applyAll enter mode passed [node]).run s).report =
        ((job.applyTo enter mode passed ⟨node, 1, 1⟩ >>= pure).run s).report := ⟨rfl, rfl⟩
  rw [hrun.1, hrun.2]
  cases h : ((job.applyTo enter mode passed ⟨node, 1, 1⟩).run s).result with
  | error failure =>
      rw [Action.run_bind_of_error _ h]
      exact ⟨rfl, rfl⟩
  | ok a =>
      rw [Action.run_bind_of_ok _ h, Report.toList_append]
      exact ⟨rfl, List.append_nil _⟩

/-- The element is handled by writing the text that the variable has. -/
theorem applyAll_spying {name : String} {value : Value} {s : State} (texts : List String)
    (h : s.environment.resolve name = some value) (hmem : value.toText ∈ texts) :
    let job := spying name texts (s.depth + 1)
    ((job.applyAll (job.enterAt 1) none [] [spied]).run s).result = .ok () ∧
      ((job.applyAll (job.enterAt 1) none [] [spied]).run s).report.toList =
        [.text value.toText] := by
  intro job
  have hrule : ((job.ruleFor none ⟨spied, 1, 1⟩).run s).result =
      .ok (some (spyingRule name value.toText)) := ruleFor_spying h hmem
  obtain ⟨hresult, hreport⟩ := instantiate_telling job (Nat.lt_succ_self s.depth) value.toText
    ⟨spied, 1, 1⟩
  obtain ⟨hresult', hreport'⟩ := applyAll_singleton job (job.enterAt 1) none [] spied s
  unfold applyTo at hresult' hreport'
  rw [Action.run_bind_of_ok _ hrule] at hresult'
  rw [Action.run_bind_of_ok _ hrule, Report.toList_append] at hreport'
  exact ⟨hresult'.trans hresult, hreport'.trans hreport⟩

/-- The element cannot be handled if the variable stands for nothing. -/
theorem applyAll_spying_of_none {name : String} {s : State} (text : String) (texts : List String)
    (maxDepth : Nat) (h : s.environment.resolve name = none) :
    let job := spying name (text :: texts) maxDepth
    ((job.applyAll (job.enterAt 1) none [] [spied]).run s).result = .error (.unbound name) := by
  intro job
  rw [(applyAll_singleton job (job.enterAt 1) none [] spied s).1]
  unfold applyTo
  rw [Action.run_bind_of_error _ (ruleFor_spying_of_none text texts maxDepth h)]

/-! ## What handling nodes sees of the frames -/

/-- An action ends differently in two states, or with other events. -/
def TellsApart (x : Action Unit) (s s' : State) : Prop :=
  ¬((x.run s).result = (x.run s').result ∧ (x.run s).report.toList = (x.run s').report.toList)

theorem TellsApart.symm {x : Action Unit} {s s' : State} (h : TellsApart x s s') :
    TellsApart x s' s :=
  fun hsame => h ⟨hsame.1.symm, hsame.2.symm⟩

/-- A variable that stands for something in one state only fails to be found in the other one. -/
theorem tellsApart_spying_of_none {name : String} {value : Value} {s s' : State}
    (hs : s.environment.resolve name = none) (hs' : s'.environment.resolve name = some value) :
    let job := spying name [value.toText] (s'.depth + 1)
    TellsApart (job.applyAll (job.enterAt 1) none [] [spied]) s s' := by
  intro job hsame
  have hfails := applyAll_spying_of_none value.toText [] (s'.depth + 1) hs
  have hends := (applyAll_spying [value.toText] hs' (List.mem_singleton_self value.toText)).1
  have hresult := hfails.symm.trans (hsame.1.trans hends)
  cases hresult

/-- A variable that has different texts in two states leads to different rules. -/
theorem tellsApart_spying {name : String} {value value' : Value} {s s' : State}
    (hdepth : s.depth = s'.depth) (hs : s.environment.resolve name = some value)
    (hs' : s'.environment.resolve name = some value') (h : value.toText ≠ value'.toText) :
    let job := spying name [value.toText, value'.toText] (s.depth + 1)
    TellsApart (job.applyAll (job.enterAt 1) none [] [spied]) s s' := by
  intro job hsame
  have hends := (applyAll_spying [value.toText, value'.toText] hs List.mem_cons_self).2
  have hends' := (applyAll_spying [value.toText, value'.toText] hs'
    (List.mem_cons_of_mem _ List.mem_cons_self)).2
  rw [← hdepth] at hends'
  have htexts := hends.symm.trans (hsame.2.trans hends')
  exact h (Event.text.inj (List.head_eq_of_cons_eq htexts))

/-- Two states in which a variable has different texts, or a text in one of them only, are told
apart by patterns that mention the variable. -/
theorem exists_tellsApart {s s' : State} (hdepth : s.depth = s'.depth) {name : String}
    (h : (s.environment.resolve name).map Value.toText ≠
      (s'.environment.resolve name).map Value.toText) :
    ∃ (job : Job) (nodes : List Node),
      (∀ rule ∈ job.stylesheet.rules.inMode none, ∀ other ∈ rule.path.variables, other = name) ∧
        TellsApart (job.applyAll (job.enterAt 1) none [] nodes) s s' := by
  have hvariables (texts : List String) (maxDepth : Nat) :
      ∀ rule ∈ (spying name texts maxDepth).stylesheet.rules.inMode none,
        ∀ other ∈ rule.path.variables, other = name := by
    intro rule hrule other hother
    rw [inMode_spying] at hrule
    obtain ⟨text, -, rfl⟩ := List.mem_map.1 hrule
    exact List.mem_singleton.1 hother
  cases hs : s.environment.resolve name with
  | none =>
      cases hs' : s'.environment.resolve name with
      | none =>
          rw [hs, hs'] at h
          exact absurd rfl h
      | some value =>
          exact ⟨spying name [value.toText] (s'.depth + 1), [spied], hvariables _ _,
            tellsApart_spying_of_none hs hs'⟩
  | some value =>
      cases hs' : s'.environment.resolve name with
      | none =>
          exact ⟨spying name [value.toText] (s.depth + 1), [spied], hvariables _ _,
            (tellsApart_spying_of_none hs' hs).symm⟩
      | some value' =>
          rw [hs, hs', Option.map_some, Option.map_some] at h
          have htexts : value.toText ≠ value'.toText := fun heq => h (congrArg some heq)
          exact ⟨spying name [value.toText, value'.toText] (s.depth + 1), [spied], hvariables _ _,
            tellsApart_spying hdepth hs hs' htexts⟩

/-- **What handling nodes sees of the frames.**  From two states that differ only in their frames,
nodes are handled with the same result and the same events if the variables that the patterns of
the mode mention stand for the same in both.  Nothing less will do: a variable that has different
texts in the two states, or a text in one of them only, is enough for a pattern that mentions it to
tell them apart. -/
theorem handling_sees_patterns (s s' : State)
    (hglobals : s.environment.globals = s'.environment.globals) (hdepth : s.depth = s'.depth) :
    (∀ (job : Job) left mode passed nodes,
      (∀ rule ∈ job.stylesheet.rules.inMode mode, ∀ name ∈ rule.path.variables,
        s.environment.resolve name = s'.environment.resolve name) →
      ((job.applyAll (job.enterAt left) mode passed nodes).run s).result =
          ((job.applyAll (job.enterAt left) mode passed nodes).run s').result ∧
        ((job.applyAll (job.enterAt left) mode passed nodes).run s).report.toList =
          ((job.applyAll (job.enterAt left) mode passed nodes).run s').report.toList) ∧
    ∀ name, (s.environment.resolve name).map Value.toText ≠
        (s'.environment.resolve name).map Value.toText →
      ∃ (job : Job) (nodes : List Node),
        (∀ rule ∈ job.stylesheet.rules.inMode none, ∀ other ∈ rule.path.variables, other = name) ∧
          TellsApart (job.applyAll (job.enterAt 1) none [] nodes) s s' := by
  refine ⟨fun job left mode passed nodes hpatterns => ?_, fun name => exists_tellsApart hdepth⟩
  obtain ⟨hresult, hreport⟩ := (chooseAlike_of_patterns_agree hpatterns).applyAll
    ⟨hglobals, hdepth⟩ left passed nodes
  exact ⟨hresult, congrArg Report.toList hreport⟩

/-- Two variables are bound globally. -/
def outside : State := ⟨⟨[("x", .string "global"), ("y", .string "global")], [[[]]]⟩, 0⟩

/-- One of them is also bound in the innermost frame. -/
def inside : State := { outside with environment.frames := [[[("x", .string "local")]]] }

/-- Patterns that mention the other variable cannot tell; some that mention this one can. -/
theorem handling_sees_patterns_inside :
    (((spying "y" ["global"] 1).applyAll ((spying "y" ["global"] 1).enterAt 1) none []
        [spied]).run outside).report.toList =
      (((spying "y" ["global"] 1).applyAll ((spying "y" ["global"] 1).enterAt 1) none []
        [spied]).run inside).report.toList ∧
    ∃ (job : Job) (nodes : List Node),
      (∀ rule ∈ job.stylesheet.rules.inMode none, ∀ other ∈ rule.path.variables, other = "x") ∧
        TellsApart (job.applyAll (job.enterAt 1) none [] nodes) outside inside := by
  obtain ⟨hagree, hdiffer⟩ := handling_sees_patterns outside inside rfl rfl
  refine ⟨(hagree (spying "y" ["global"] 1) 1 none [] [spied] ?_).2, hdiffer "x" (by decide)⟩
  intro rule hrule name hname
  obtain rfl := List.mem_singleton.1 hrule
  obtain rfl := List.mem_singleton.1 hname
  rfl

/-- Which rule handles a node depends on the locals of the template that hands it over. -/
theorem handling_sees_locals :
    ¬∀ (job : Job) left mode passed nodes (s s' : State),
      s.environment.globals = s'.environment.globals → s.depth = s'.depth →
      ((job.applyAll (job.enterAt left) mode passed nodes).run s).result =
          ((job.applyAll (job.enterAt left) mode passed nodes).run s').result ∧
        ((job.applyAll (job.enterAt left) mode passed nodes).run s).report.toList =
          ((job.applyAll (job.enterAt left) mode passed nodes).run s').report.toList := by
  intro h
  have houtside : (((spying "x" ["global", "local"] 1).applyAll
      ((spying "x" ["global", "local"] 1).enterAt 1) none [] [spied]).run outside).report.toList =
        [.text "global"] := by cbv
  have hinside : (((spying "x" ["global", "local"] 1).applyAll
      ((spying "x" ["global", "local"] 1).enterAt 1) none [] [spied]).run inside).report.toList =
        [.text "local"] := by cbv
  have hsame := (h (spying "x" ["global", "local"] 1) 1 none [] [spied] outside inside rfl rfl).2
  rw [houtside, hinside] at hsame
  exact absurd hsame (by decide)

/-! ## What a template sees of the frames -/

/-- A template that looks for a variable, in the default value of a parameter and in its body. -/
def looking (name : String) : Template :=
  ⟨none, none, none, none, [("found", .select (.variable name))],
    [.valueOf (.variable "found"), .valueOf (.variable name)]⟩

end Job

end Restyle
