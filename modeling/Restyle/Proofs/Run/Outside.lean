import Mathlib
import Restyle.Transform
import Restyle.Proofs.Run.Passing
import Restyle.Proofs.Run.Isolation
import Restyle.Proofs.Stylesheet.WellFormed

/-!
# Restyle.Proofs.Run.Outside

Values from outside.

They come in at two places: where the parameters of the whole stylesheet are bound, and where the
template for the root binds its own.  At both places a run asks for the names that are declared and
for nothing else, so what is given for other names makes no difference.  A variable of the whole
stands for the value of its own source from its binding to the end of the run.

* `Action.KeepsGlobals` — nothing is bound globally on the way;
* `Job.AgreeOnDeclared` — values from outside that are the same for all names that are declared;
* `Job.ownValue` — the value of a variable of the whole from its own source;
* `Job.undeclared_without_effect` — the main result.
-/

namespace Restyle

/-! ## Actions that show the same -/

namespace Action

variable {α β : Type}

/-- From a state, two actions end the same way, with the same events and in the same state. -/
structure ShowSame (x y : Action α) (s : State) : Prop where
  result : (x.run s).result = (y.run s).result
  report : (x.run s).report = (y.run s).report
  state : (x.run s).state = (y.run s).state

variable {s : State}

theorem showSame_refl (x : Action α) (s : State) : x.ShowSame x s := ⟨rfl, rfl, rfl⟩

/-- What follows only has to show the same from where the first action leads. -/
theorem showSame_bind {x : Action α} {f g : α → Action β}
    (h : ∀ a, (x.run s).result = .ok a → (f a).ShowSame (g a) (x.run s).state) :
    (x >>= f).ShowSame (x >>= g) s := by
  cases hx : (x.run s).result with
  | error failure =>
      constructor
      all_goals rw [run_bind_of_error f hx, run_bind_of_error g hx]
  | ok a =>
      obtain ⟨hresult, hreport, hstate⟩ := h a hx
      constructor
      · rw [run_bind_of_ok f hx, run_bind_of_ok g hx]
        exact hresult
      · rw [run_bind_of_ok f hx, run_bind_of_ok g hx]
        exact congrArg (x.run s).report.append hreport
      · rw [run_bind_of_ok f hx, run_bind_of_ok g hx]
        exact hstate

theorem ShowSame.bind_pure {x y : Action Unit} (h : x.ShowSame y s) (b : β) :
    (x >>= fun _ => pure b).ShowSame (y >>= fun _ => pure b) s := by
  obtain ⟨hresult, hreport, hstate⟩ := h
  cases hx : (x.run s).result with
  | error failure =>
      have hy := hresult.symm.trans hx
      constructor
      · rw [run_bind_of_error _ hx, run_bind_of_error _ hy]
      · rw [run_bind_of_error _ hx, run_bind_of_error _ hy]
        exact hreport
      · rw [run_bind_of_error _ hx, run_bind_of_error _ hy]
        exact hstate
  | ok a =>
      have hy := hresult.symm.trans hx
      constructor
      · rw [run_bind_of_ok _ hx, run_bind_of_ok _ hy]
        rfl
      · rw [run_bind_of_ok _ hx, run_bind_of_ok _ hy]
        exact congrArg (Report.append · Report.empty) hreport
      · rw [run_bind_of_ok _ hx, run_bind_of_ok _ hy]
        exact hstate

theorem result_bind_assoc {γ : Type} (x : Action α) (f : α → Action β) (g : β → Action γ)
    (s : State) :
    (((x >>= f) >>= g).run s).result = ((x >>= fun a => f a >>= g).run s).result := by
  cases hx : (x.run s).result with
  | error failure =>
      have hf : ((x >>= f).run s).result = .error failure := by rw [run_bind_of_error f hx]
      rw [run_bind_of_error _ hx, run_bind_of_error g hf]
  | ok a =>
      rw [run_bind_of_ok _ hx]
      cases hy : ((f a).run (x.run s).state).result with
      | error failure =>
          have hf : ((x >>= f).run s).result = .error failure := by
            rw [run_bind_of_ok f hx]
            exact hy
          rw [run_bind_of_error g hf]
          exact (congrArg Outcome.result (run_bind_of_error g hy)).symm
      | ok b =>
          have hf : ((x >>= f).run s).result = .ok b := by
            rw [run_bind_of_ok f hx]
            exact hy
          rw [run_bind_of_ok g hf, run_bind_of_ok f hx]
          exact (congrArg Outcome.result (run_bind_of_ok g hy)).symm

theorem ShowSame.between {x y : Action α} {opening closing : Environment → Environment}
    (h : x.ShowSame y (s.update opening)) :
    (x.between opening closing).ShowSame (y.between opening closing) s :=
  ⟨h.result, h.report, congrArg (State.update closing) h.state⟩

theorem ShowSame.watch {x y : Action α} (h : x.ShowSame y s) (routine routine' : Routine) :
    (x.watch routine).ShowSame (y.watch routine') s := ⟨h.result, h.report, h.state⟩

end Action

namespace Job

variable (job : Job)

/-! ## Names that are asked for -/

/-- The rule for the root, where the variables and parameters of the whole have been bound. -/
def rootRule (params : Scope) : Action (Option Rule) := do
  Action.change Environment.openFrame
  job.bindGlobals params job.stylesheet.globals
  job.ruleFor none job.rootFocus

/-- Values from outside are the same for all names that are declared: by a parameter of the whole,
or as a parameter of the template that is chosen for the root. -/
structure AgreeOnDeclared (params params' : Scope) : Prop where
  globals : ∀ new ∈ job.stylesheet.globals, new.isParam = true →
    params.lookup new.name = params'.lookup new.name
  root : ∀ rule, ((job.rootRule params).run .initial).result = .ok (some rule) →
    ∀ param ∈ rule.template.params, params.lookup param.1 = params'.lookup param.1

variable {job}

theorem bindGlobals_congr {params params' : Scope} {globals : List Global}
    (h : ∀ new ∈ globals, new.isParam = true →
      params.lookup new.name = params'.lookup new.name) :
    job.bindGlobals params globals = job.bindGlobals params' globals := by
  induction globals with
  | nil => rfl
  | cons new globals ih =>
      have hgiven : (if new.isParam then params.lookup new.name else none) =
          if new.isParam then params'.lookup new.name else none := by
        split
        · next hparam => exact h new List.mem_cons_self hparam
        · rfl
      unfold bindGlobals
      rw [hgiven, ih fun other hother => h other (List.mem_cons_of_mem _ hother)]

theorem enterAt_template_congr (job : Job) {template : Template} {passed passed' : Scope}
    (h : ∀ param ∈ template.params, passed.lookup param.1 = passed'.lookup param.1) (left : Nat)
    (focus : Focus) :
    job.enterAt left (.template template focus passed) =
      job.enterAt left (.template template focus passed') := by
  cases left with
  | zero => rfl
  | succ left => simp only [enterAt, carryOut, bindParams_congr h]

theorem showSame_applyTo {left : Nat} {mode : Option String} {passed passed' : Scope}
    {focus : Focus} {s : State}
    (h : ∀ rule, ((job.ruleFor mode focus).run s).result = .ok (some rule) →
      ∀ param ∈ rule.template.params, passed.lookup param.1 = passed'.lookup param.1) :
    (job.applyTo (job.enterAt left) mode passed focus).ShowSame
      (job.applyTo (job.enterAt left) mode passed' focus) s := by
  refine Action.showSame_bind fun rule? hrule => ?_
  cases rule? with
  | none => exact Action.showSame_refl _ _
  | some rule =>
      have henter := job.enterAt_template_congr (h rule hrule) left focus
      refine Action.ShowSame.watch ?_ _ _
      rw [henter]
      exact Action.showSame_refl _ _

/-- What is given for names that are not declared has no part in a run. -/
theorem showSame_main {params params' : Scope} (h : job.AgreeOnDeclared params params') :
    (job.main params).ShowSame (job.main params') .initial := by
  unfold main
  rw [← bindGlobals_congr h.globals]
  refine Action.showSame_bind fun _ hopened => Action.showSame_bind fun _ hbound => ?_
  refine Action.ShowSame.between (Action.ShowSame.watch (Action.ShowSame.bind_pure ?_ ()) _ _)
  refine showSame_applyTo fun rule hrule => h.root rule ?_
  unfold rootRule
  rw [Action.run_bind_of_ok _ hopened]
  dsimp only
  rw [Action.run_bind_of_ok _ hbound]
  exact hrule

theorem events_eq_of_agree {params params' : Scope} (h : job.AgreeOnDeclared params params') :
    job.events params = job.events params' := by
  obtain ⟨hresult, hreport, -⟩ := showSame_main h
  simp only [events, hresult, hreport]

/-! ## Global bindings on the way -/

end Job

/-- A frame with a scope is open. -/
def State.Framed (s : State) : Prop :=
  ∃ scope scopes outer, s.environment.frames = (scope :: scopes) :: outer

/-- Globally a name stands for nothing, or for the value given. -/
def State.GivesOnly (name : String) (given : Except Failure Value) (s : State) : Prop :=
  ∀ value, s.environment.globals.lookup name = some value → given = .ok value

theorem State.givesOnly_of_none {name : String} {s : State}
    (h : s.environment.globals.lookup name = none) (given : Except Failure Value) :
    s.GivesOnly name given := by
  intro value hvalue
  rw [h] at hvalue
  cases hvalue

theorem State.givesOnly_of_some {name : String} {s : State} {value : Value}
    (h : s.environment.globals.lookup name = some value) : s.GivesOnly name (.ok value) := by
  intro value' hvalue
  rw [h] at hvalue
  exact congrArg Except.ok (Option.some.inj hvalue)

namespace Action

variable {α β : Type}

/-- From where a scope is open, nothing is bound globally on the way. -/
def KeepsGlobals (x : Action α) : Prop :=
  ∀ s : State, s.Framed → ∀ levels state, (x.run s).seen (.moment levels state) →
    state.environment.globals = s.environment.globals

theorem keepsGlobals_of_unseen {x : Action α} (h : ∀ s sighting, ¬(x.run s).seen sighting) :
    x.KeepsGlobals := fun s _ _ _ hseen => absurd hseen (h s _)

theorem KeepsOuter.globals {x : Action α} (hx : x.KeepsOuter) {s : State} (hs : s.Framed) :
    (x.run s).state.environment.globals = s.environment.globals ∧ (x.run s).state.Framed := by
  obtain ⟨scope, scopes, outer, hframes⟩ := hs
  obtain ⟨scope', hstate⟩ := hx s scope scopes outer hframes
  rw [hstate]
  exact ⟨rfl, scope', scopes, outer, rfl⟩

theorem KeepsGlobals.bind {x : Action α} {f : α → Action β} (hkeeps : x.KeepsOuter)
    (hx : x.KeepsGlobals) (hf : ∀ a, (f a).KeepsGlobals) : (x >>= f).KeepsGlobals := by
  intro s hs levels state hseen
  obtain hfirst | ⟨a, hsecond⟩ := seen_of_bind hseen
  · exact hx s hs levels state hfirst
  · obtain ⟨hglobals, hframed⟩ := hkeeps.globals hs
    exact (hf a _ hframed levels state hsecond).trans hglobals

theorem keepsGlobals_bindName (name : String) (value : Value) :
    (Action.change (Environment.bind name value)).KeepsGlobals := by
  rintro s ⟨scope, scopes, outer, hframes⟩ levels state hseen
  obtain ⟨-, rfl⟩ := Sighting.moment.inj hseen
  rw [State.update_bind hframes]
  rfl

theorem KeepsGlobals.watch {x : Action α} (hx : x.KeepsGlobals) (routine : Routine) :
    (x.watch routine).KeepsGlobals := by
  intro s hs levels state hseen
  obtain hseen | hcall := hseen
  · exact hx s hs levels state hseen
  · cases hcall

theorem KeepsGlobals.inScope {x : Action α} (hkeeps : x.KeepsOuter) (hx : x.KeepsGlobals) :
    x.inScope.KeepsGlobals := by
  refine KeepsGlobals.watch ?_ _
  rintro s ⟨scope, scopes, outer, hframes⟩ levels state hseen
  have hopened := State.update_openScope hframes
  have hframed : (s.update Environment.openScope).Framed := by
    rw [hopened]
    exact ⟨[], scope :: scopes, outer, rfl⟩
  have hglobals : (s.update Environment.openScope).environment.globals = s.environment.globals := by
    rw [hopened]
    rfl
  obtain hseen | hseen | hseen := hseen
  · obtain ⟨-, rfl⟩ := Sighting.moment.inj hseen
    exact hglobals
  · exact (hx _ hframed levels state hseen).trans hglobals
  · obtain ⟨-, rfl⟩ := Sighting.moment.inj hseen
    have hrestored : (x.inScope.run s).state = s :=
      hkeeps.inScope_state (hframes ▸ List.cons_ne_nil _ _)
    exact congrArg (·.environment.globals) hrestored

theorem KeepsGlobals.inFrame {x : Action α} (hkeeps : x.KeepsOuter) (hx : x.KeepsGlobals) :
    x.inFrame.KeepsGlobals := by
  intro s hs levels state hseen
  obtain hseen | hseen | hseen := hseen
  · obtain ⟨-, rfl⟩ := Sighting.moment.inj hseen
    rfl
  · have hframed : (s.update Environment.openFrame).Framed := ⟨[], [], s.environment.frames, rfl⟩
    exact hx _ hframed levels state hseen
  · obtain ⟨-, rfl⟩ := Sighting.moment.inj hseen
    exact congrArg (·.environment.globals) (hkeeps.inFrame_restores s)

theorem KeepsGlobals.inLevel {x : Action α} (hrestores : x.Restores) (hx : x.KeepsGlobals)
    (limit : Nat) : (x.inLevel limit).KeepsGlobals := by
  intro s hs levels state hseen
  by_cases h : limit ≤ s.depth
  · rw [run_inLevel_of_le x h] at hseen
    cases hseen
  · rw [run_inLevel_of_not_le x h, hrestores s.enter] at hseen
    obtain hseen | ⟨inner, hinner, hseen⟩ | hseen := hseen
    · obtain ⟨-, rfl⟩ := Sighting.moment.inj hseen
      rfl
    · cases inner with
      | moment levels' state' =>
          obtain ⟨-, rfl⟩ := Sighting.moment.inj hseen
          exact hx s.enter hs levels' state hinner
      | call => cases hseen
    · obtain ⟨-, rfl⟩ := Sighting.moment.inj hseen
      rfl

end Action

namespace Job

variable (job : Job)

theorem hereditary_keepsGlobals :
    job.Hereditary fun x => x.KeepsOuter ∧ x.KeepsGlobals where
  pure a := ⟨(Action.restores_pure a).keepsOuter, Action.keepsGlobals_of_unseen fun _ _ => id⟩
  bind hx hf := ⟨hx.1.bind fun a => (hf a).1, .bind hx.1 hx.2 fun a => (hf a).2⟩
  fail _ := ⟨(Action.restores_fail _).keepsOuter, Action.keepsGlobals_of_unseen fun _ _ => id⟩
  eval _ _ :=
    ⟨(Action.restores_compute _).keepsOuter, Action.keepsGlobals_of_unseen fun _ _ => id⟩
  ruleFor _ _ :=
    ⟨(Action.restores_compute _).keepsOuter, Action.keepsGlobals_of_unseen fun _ _ => id⟩
  report _ := ⟨(Action.restores_report _).keepsOuter, Action.keepsGlobals_of_unseen fun _ _ => id⟩
  inElement _ hx :=
    ⟨(Action.restores_report _).keepsOuter.bind fun _ => hx.1.bind fun _ =>
        (Action.restores_report _).keepsOuter,
      .bind (Action.restores_report _).keepsOuter (Action.keepsGlobals_of_unseen fun _ _ => id)
        fun _ => .bind hx.1 hx.2 fun _ => Action.keepsGlobals_of_unseen fun _ _ => id⟩
  bindName name value :=
    ⟨Action.keepsOuter_bindName name value, Action.keepsGlobals_bindName name value⟩
  inScope hx := ⟨hx.1.inScope, .inScope hx.1 hx.2⟩
  text hx := hx
  watch routine hx _ _ := ⟨hx.1, hx.2.watch routine⟩

/-- An entry binds nothing globally. -/
theorem keepsGlobals_enterAt (left : Nat) (entry : Entry) :
    (job.enterAt left entry).KeepsGlobals := by
  induction left generalizing entry with
  | zero => exact Action.keepsGlobals_of_unseen fun _ _ => id
  | succ left ih =>
      have hrestores := job.enterAt_restores left
      have henter (entry : Entry) : (job.enterAt left entry).KeepsOuter ∧
          (job.enterAt left entry).KeepsGlobals := ⟨(hrestores entry).keepsOuter, ih entry⟩
      have h := job.hereditary_keepsGlobals
      cases entry with
      | template template focus passed =>
          have hbody := h.inside henter hrestores template focus passed
          exact (hbody.2.inFrame hbody.1).inLevel hbody.1.inFrame_restores _
      | children node mode =>
          have hnodes := h.applyAll henter hrestores mode [] node.children
          exact hnodes.2.inLevel (restores_applyAll hrestores mode [] node.children) _

/-! ## Variables of the whole stylesheet -/

/-- How a variable of the whole comes to its value: from its own source, when the variables and
parameters before it have been bound. -/
def ownFrom (params : Scope) (before : List Global) (source : ValueSource Instruction) :
    Action Value := do
  job.bindGlobals params before
  job.sourceValue job.enter job.rootFocus source

/-- The value of a variable of the whole in a run, from its own source. -/
def ownValue (params : Scope) (before : List Global) (source : ValueSource Instruction) :
    Action Value := do
  Action.change Environment.openFrame
  job.ownFrom params before source

/-- The value for which a name is to stand globally.  What is given from outside counts for
parameters. -/
def givenOrOwn (params : Scope) (new : Global) : Action Value :=
  match if new.isParam then params.lookup new.name else none with
  | some value => pure value
  | none => job.sourceValue job.enter job.rootFocus new.value

theorem bindGlobals_cons (params : Scope) (new : Global) (others : List Global) :
    job.bindGlobals params (new :: others) = (do
      let value ← job.givenOrOwn params new
      Action.change (Environment.bindGlobal new.name value)
      job.bindGlobals params others) := by
  rw [bindGlobals]
  unfold givenOrOwn
  cases if new.isParam then params.lookup new.name else none <;> rfl

theorem givenOrOwn_keepsGlobals (params : Scope) (new : Global) :
    (job.givenOrOwn params new).KeepsOuter ∧ (job.givenOrOwn params new).KeepsGlobals := by
  have henter (entry : Entry) : (job.enter entry).KeepsOuter ∧ (job.enter entry).KeepsGlobals :=
    ⟨(job.enterAt_restores _ entry).keepsOuter, job.keepsGlobals_enterAt _ entry⟩
  unfold givenOrOwn
  split
  · exact job.hereditary_keepsGlobals.pure _
  · exact job.hereditary_keepsGlobals.sourceValue henter (job.enterAt_restores _) _ _

/-- Where a global has no value the binding ends, and nothing has been bound.  Otherwise it goes on
from where the global is bound. -/
theorem bindGlobals_cases (params : Scope) (new : Global) (others : List Global) {s : State}
    (hs : s.Framed) :
    let outcome := (job.bindGlobals params (new :: others)).run s
    (∃ failure, outcome.result = .error failure ∧ outcome.state.Framed ∧
      outcome.state.environment.globals = s.environment.globals ∧
      ∀ levels state, outcome.seen (.moment levels state) →
        state.environment.globals = s.environment.globals) ∨
    ∃ value, ((job.givenOrOwn params new).run s).result = .ok value ∧
      ∃ bound, bound = ((job.givenOrOwn params new).run s).state.update
          (Environment.bindGlobal new.name value) ∧
        bound.Framed ∧ bound.environment.globals = (new.name, value) :: s.environment.globals ∧
        outcome.result = ((job.bindGlobals params others).run bound).result ∧
        outcome.state = ((job.bindGlobals params others).run bound).state ∧
        ∀ levels state, outcome.seen (.moment levels state) →
          state.environment.globals = s.environment.globals ∨ state = bound ∨
            ((job.bindGlobals params others).run bound).seen (.moment levels state) := by
  obtain ⟨hkeeps, hglobals⟩ := job.givenOrOwn_keepsGlobals params new
  obtain ⟨hsame, hframed⟩ := hkeeps.globals hs
  intro outcome
  simp only [outcome, bindGlobals_cons]
  cases hvalue : ((job.givenOrOwn params new).run s).result with
  | error failure =>
      left
      rw [Action.run_bind_of_error _ hvalue]
      exact ⟨failure, rfl, hframed, hsame, hglobals s hs⟩
  | ok value =>
      right
      refine ⟨value, rfl, _, rfl, hframed, congrArg ((new.name, value) :: ·) hsame, ?_⟩
      rw [Action.run_bind_of_ok _ hvalue]
      refine ⟨rfl, rfl, fun levels state hseen => ?_⟩
      obtain hseen | hseen | hseen := hseen
      · exact .inl (hglobals s hs levels state hseen)
      · exact .inr (.inl (Sighting.moment.inj hseen).2)
      · exact .inr (.inr hseen)

/-- To bind globals of other names does not change what a name stands for. -/
theorem bindGlobals_others (params : Scope) {name : String} {globals : List Global}
    (h : name ∉ globals.map Global.name) {s : State} (hs : s.Framed) :
    let outcome := (job.bindGlobals params globals).run s
    outcome.state.Framed ∧
    outcome.state.environment.globals.lookup name = s.environment.globals.lookup name ∧
    ∀ levels state, outcome.seen (.moment levels state) →
      state.environment.globals.lookup name = s.environment.globals.lookup name := by
  induction globals generalizing s with
  | nil => exact ⟨hs, rfl, fun _ _ hseen => hseen.elim⟩
  | cons new globals ih =>
      rw [List.map_cons, List.mem_cons, not_or] at h
      obtain ⟨failure, -, hframed, hfinal, hmoments⟩ |
          ⟨value, -, bound, -, hframed, hbound, -, hstate, hmoments⟩ :=
        job.bindGlobals_cases params new globals hs
      · refine ⟨hframed, by rw [hfinal], fun levels state hseen => ?_⟩
        rw [hmoments levels state hseen]
      · have hlookup : bound.environment.globals.lookup name =
            s.environment.globals.lookup name := by
          rw [hbound, List.lookup_cons, beq_false_of_ne h.1]
        obtain ⟨hrest, hfinal, hothers⟩ := ih h.2 hframed
        refine ⟨hstate ▸ hrest, by rw [hstate, hfinal, hlookup], fun levels state hseen => ?_⟩
        obtain hsame | rfl | hseen := hmoments levels state hseen
        · rw [hsame]
        · exact hlookup
        · rw [hothers levels state hseen, hlookup]

theorem ownFrom_cons {params : Scope} {new : Global} {value : Value} {s : State}
    (hvalue : ((job.givenOrOwn params new).run s).result = .ok value) (before : List Global)
    (source : ValueSource Instruction) :
    ((job.ownFrom params (new :: before) source).run s).result =
      ((job.ownFrom params before source).run (((job.givenOrOwn params new).run s).state.update
        (Environment.bindGlobal new.name value))).result := by
  unfold ownFrom
  rw [bindGlobals_cons, Action.result_bind_assoc, Action.run_bind_of_ok _ hvalue]
  exact Action.result_bind_assoc _ _ _ _

/-- Before a variable of the whole is bound it stands for nothing, and from then on for what has
come of its own source. -/
theorem bindGlobals_own (params : Scope) {before after : List Global} {new : Global}
    (hvariable : new.isParam = false) (hbefore : new.name ∉ before.map Global.name)
    (hafter : new.name ∉ after.map Global.name) {s : State} (hs : s.Framed)
    (hfree : s.environment.globals.lookup new.name = none) :
    let outcome := (job.bindGlobals params (before ++ new :: after)).run s
    let own := ((job.ownFrom params before new.value).run s).result
    outcome.state.Framed ∧ outcome.state.GivesOnly new.name own ∧
    (outcome.result = .ok () →
      (outcome.state.environment.globals.lookup new.name).isSome = true) ∧
    ∀ levels state, outcome.seen (.moment levels state) → state.GivesOnly new.name own := by
  induction before generalizing s with
  | nil =>
      have hown : ((job.ownFrom params [] new.value).run s).result =
          ((job.givenOrOwn params new).run s).result := by
        rw [givenOrOwn, hvariable]
        rfl
      rw [List.nil_append]
      have hnone (own : Except Failure Value) {state : State}
          (h : state.environment.globals = s.environment.globals) : state.GivesOnly new.name own :=
        State.givesOnly_of_none (h ▸ hfree) own
      dsimp only
      obtain ⟨failure, hresult, hframed, hfinal, hmoments⟩ |
          ⟨value, hvalue, bound, -, hframed, hbound, -, hstate, hmoments⟩ :=
        job.bindGlobals_cases params new after hs
      · refine ⟨hframed, hnone _ hfinal, fun hok => ?_, fun levels state hseen => ?_⟩
        · rw [hresult] at hok
          cases hok
        · exact hnone _ (hmoments levels state hseen)
      · have hlookup : bound.environment.globals.lookup new.name = some value := by
          rw [hbound, List.lookup_cons_self]
        obtain ⟨hrest, hfinal, hothers⟩ := job.bindGlobals_others params hafter hframed
        rw [hlookup] at hfinal hothers
        rw [hown, hvalue, hstate]
        refine ⟨hrest, State.givesOnly_of_some hfinal, fun _ => ?_, fun levels state hseen => ?_⟩
        · rw [hfinal]
          rfl
        · obtain hsame | rfl | hseen := hmoments levels state hseen
          · exact hnone _ hsame
          · exact State.givesOnly_of_some hlookup
          · exact State.givesOnly_of_some (hothers levels state hseen)
  | cons first before ih =>
      rw [List.map_cons, List.mem_cons, not_or] at hbefore
      rw [List.cons_append]
      have hnone (own : Except Failure Value) {state : State}
          (h : state.environment.globals = s.environment.globals) : state.GivesOnly new.name own :=
        State.givesOnly_of_none (h ▸ hfree) own
      dsimp only
      obtain ⟨failure, hresult, hframed, hfinal, hmoments⟩ |
          ⟨value, hvalue, bound, hat, hframed, hbound, hresult, hstate, hmoments⟩ :=
        job.bindGlobals_cases params first (before ++ new :: after) hs
      · refine ⟨hframed, hnone _ hfinal, fun hok => ?_, fun levels state hseen => ?_⟩
        · rw [hresult] at hok
          cases hok
        · exact hnone _ (hmoments levels state hseen)
      · have hstill : bound.environment.globals.lookup new.name = none := by
          rw [hbound, List.lookup_cons, beq_false_of_ne hbefore.1]
          exact hfree
        obtain ⟨hrest, hfinal, hbinds, hothers⟩ := ih hbefore.2 hframed hstill
        rw [job.ownFrom_cons hvalue, ← hat, hresult, hstate]
        refine ⟨hrest, hfinal, hbinds, fun levels state hseen => ?_⟩
        obtain hsame | rfl | hseen := hmoments levels state hseen
        · exact hnone _ hsame
        · exact State.givesOnly_of_none hstill _
        · exact hothers levels state hseen

section Whole

variable (params : Scope) {before after : List Global} {new : Global}
  (hvariable : new.isParam = false) (hglobals : job.stylesheet.globals = before ++ new :: after)
  (hnodup : (job.stylesheet.globals.map Global.name).Nodup)

include hvariable hglobals hnodup

/-- At the end of the binding of globals and on the way there, a variable of the whole stands for
nothing but its own value. -/
theorem bound_own :
    let opened := State.initial.update Environment.openFrame
    let outcome := (job.bindGlobals params job.stylesheet.globals).run opened
    let own := ((job.ownValue params before new.value).run .initial).result
    outcome.state.Framed ∧ outcome.state.GivesOnly new.name own ∧
    (outcome.result = .ok () →
      (outcome.state.environment.globals.lookup new.name).isSome = true) ∧
    ∀ levels state, outcome.seen (.moment levels state) → state.GivesOnly new.name own := by
  rw [hglobals, List.map_append, List.map_cons] at hnodup
  obtain ⟨-, hnodup', hapart⟩ := List.nodup_append.1 hnodup
  have hbefore : new.name ∉ before.map Global.name := fun hmem =>
    hapart _ hmem _ List.mem_cons_self rfl
  have hafter : new.name ∉ after.map Global.name := (List.nodup_cons.1 hnodup').1
  rw [hglobals]
  exact job.bindGlobals_own params hvariable hbefore hafter ⟨[], [], [], rfl⟩ rfl

/-- From the beginning of a run to its end, a variable of the whole stands for nothing but its own
value. -/
theorem main_own :
    let outcome := (job.main params).run .initial
    let own := ((job.ownValue params before new.value).run .initial).result
    (∀ levels state, outcome.seen (.moment levels state) → state.GivesOnly new.name own) ∧
    (outcome.result = .ok () → ∃ value,
      own = .ok value ∧ outcome.state.environment.globals.lookup new.name = some value) := by
  obtain ⟨hframed, hfinal, hbinds, hmoments⟩ := job.bound_own params hvariable hglobals hnodup
  have hrestores := job.enterAt_restores job.settings.maxDepth
  have henter (entry : Entry) : (job.enter entry).KeepsOuter ∧ (job.enter entry).KeepsGlobals :=
    ⟨(hrestores entry).keepsOuter, job.keepsGlobals_enterAt _ entry⟩
  let bound := ((job.bindGlobals params job.stylesheet.globals).run
    (State.initial.update Environment.openFrame)).state
  have hroot :
      ((job.applyAll job.enter none params [job.document.root]).run bound).state = bound :=
    restores_applyAll hrestores none params _ bound
  constructor
  · intro levels state hseen
    obtain hseen | ⟨-, hseen⟩ := Action.seen_of_bind hseen
    · obtain ⟨-, rfl⟩ := Sighting.moment.inj hseen
      exact State.givesOnly_of_none rfl _
    obtain hseen | ⟨-, hseen⟩ := Action.seen_of_bind hseen
    · exact hmoments levels state hseen
    obtain hseen | hseen | hseen := hseen
    · obtain ⟨-, rfl⟩ := Sighting.moment.inj hseen
      exact hfinal
    · have hnodes := (job.hereditary_keepsGlobals.applyAll henter hrestores none params
        [job.document.root]).2 bound hframed levels state hseen
      intro value hvalue
      rw [hnodes] at hvalue
      exact hfinal value hvalue
    · obtain ⟨-, rfl⟩ := Sighting.moment.inj hseen
      intro value hvalue
      refine hfinal value ?_
      change (((job.applyAll job.enter none params [job.document.root]).run
        bound).state.environment.globals).lookup new.name = some value at hvalue
      rwa [hroot] at hvalue
  · intro hok
    obtain ⟨-, -, hrest, -⟩ := Action.ok_of_bind hok
    obtain ⟨⟨⟩, hok, -, -⟩ := Action.ok_of_bind hrest
    have hbound : ((job.bindGlobals params job.stylesheet.globals).run
        (State.initial.update Environment.openFrame)).result = .ok () := hok
    obtain ⟨value, hvalue⟩ := Option.isSome_iff_exists.1 (hbinds hbound)
    refine ⟨value, hfinal value hvalue, ?_⟩
    -- the frame is closed where the globals have been bound
    have hclosed :
        ((job.main params).run .initial).state = bound.update Environment.closeFrame := by
      change (((job.bindGlobals params job.stylesheet.globals) >>= fun _ =>
        Action.between id Environment.closeFrame (job.applyAll job.enter none params
          [job.document.root])).run (State.initial.update Environment.openFrame)).state = _
      rw [Action.run_bind_of_ok _ hbound]
      exact congrArg (State.update Environment.closeFrame) hroot
    rw [hclosed]
    exact hvalue

end Whole

/-- What is given from outside for the name of a variable has no part in its value. -/
theorem ownValue_given (params : Scope) {name : String} {before : List Global}
    (h : name ∉ before.map Global.name) (given : Value) (source : ValueSource Instruction) :
    job.ownValue ((name, given) :: params) before source = job.ownValue params before source := by
  have hlookup : ∀ new ∈ before, new.isParam = true →
      List.lookup new.name ((name, given) :: params) = params.lookup new.name := by
    intro new hnew _
    have hname : new.name ≠ name := fun heq => h (heq ▸ List.mem_map_of_mem hnew)
    rw [List.lookup_cons, beq_false_of_ne hname]
  unfold ownValue ownFrom
  rw [bindGlobals_congr hlookup]

theorem transform_eq_of_agree {params params' : Parameters} {source : String}
    (hsource : Document.ofText? source = some job.document)
    (h : job.AgreeOnDeclared params.scope params'.scope) :
    job.stylesheet.transform job.settings params source =
      job.stylesheet.transform job.settings params' source := by
  unfold Stylesheet.transform Stylesheet.events
  rw [hsource]
  dsimp only
  rw [events_eq_of_agree h]

/-- The start of an element of the language. -/
def languageStart (localPart : String) (attributes : List (String × String)) : StyleEvent :=
  .start ⟨.language localPart, attributes.map fun attr => ⟨⟨none, attr.1⟩, attr.2⟩, [], ⟨1, 1⟩⟩

/-- A stylesheet with a parameter, a variable, and a template for the root that has a parameter of
its own and writes the variable, up to where the template ends. -/
def declaring : List StyleEvent :=
  [languageStart "stylesheet" [], languageStart "param" [("name", "p")], .stop,
    languageStart "variable" [("name", "x"), ("select", "'own'")], .stop,
    languageStart "template" [("match", "/")], languageStart "param" [("name", "r")], .stop,
    languageStart "value-of" [("select", "$x")], .stop]

/-- The template for the root. -/
def writingOwn : Template :=
  ⟨none, some ⟨"/", [⟨true, []⟩]⟩, none, none, [("r", .empty)], [.valueOf (.variable "x")]⟩

/-- What the stylesheet is put together to. -/
def declared : Stylesheet where
  rules := ⟨[⟨⟨true, []⟩, none, .nearest false 1 2, 0, writingOwn⟩], []⟩
  globals := [⟨"p", .empty, true⟩, ⟨"x", .select (.literal "own"), false⟩]
  output := .standard

theorem ofEvents_declaring :
    Stylesheet.ofEvents (declaring ++ [.stop, .stop]) = .ok declared := by
  have hinside : declaring.foldlM Assembly.meet .empty =
      .ok ⟨[⟨.template none (some ⟨"/", [⟨true, []⟩]⟩) none none [("r", .empty)] true, ⟨1, 1⟩⟩,
        ⟨.stylesheet, ⟨1, 1⟩⟩, ⟨.document, ⟨1, 1⟩⟩], [[.valueOf (.variable "x")], [], []], .empty,
          [⟨"p", .empty, true⟩, ⟨"x", .select (.literal "own"), false⟩], .standard⟩ := by cbv
  have hpriority : (⟨true, []⟩ : PathPattern).defaultPriority = .nearest false 1 2 := rfl
  have hrules : Rules.empty.add writingOwn = .ok declared.rules := by
    simp only [Rules.add, Rules.empty, writingOwn, declared, Option.map_some, Option.getD_some,
      Option.getD_none, Rules.addPaths, Rules.rank, hpriority, List.length_nil]
  unfold writingOwn at hrules
  rw [Stylesheet.ofEvents, List.foldlM_append, hinside]
  simp only [bind, Except.bind, List.foldlM_cons, List.foldlM_nil, Assembly.meet, Assembly.stop,
    Assembly.close, List.headD_cons, List.tail_cons, List.reverse_singleton, hrules,
    Except.mapError, pure, Except.pure, Assembly.finish]
  unfold declared
  simp only [List.length_singleton, if_true]

/-- A strict job with the stylesheet and an empty document. -/
def declaredJob : Job := ⟨declared, ⟨[]⟩, ⟨1, true⟩⟩

end Job

end Restyle
