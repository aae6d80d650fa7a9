import Mathlib
import Restyle.Proofs.Run.Restoration

/-!
# Restyle.Proofs.Run.Passing

Values passed to templates, and whether the templates declare them.

Where a strict run calls a template by its name, every name passed must be declared.  A value that
is not is refused before anything of the template is done, and since nothing goes on after a
failure, the refusal is the end of the run.  Where a template is chosen by a rule nothing is
refused, strict run or not: what the template does not declare is ignored.

* `Job.main_heedsRefusals` — what is refused anywhere in a run fails the run;
* `Job.carryOut_declared` — what a template does not declare has no part in carrying it out;
* `Job.strict_calls_declare` — strict runs, calls by name and templates chosen by rules.
-/

namespace Restyle

/-- What a template declares of the values passed to it. -/
def Template.declared (template : Template) (passed : Scope) : Scope :=
  passed.filter fun value => template.declares value.1

namespace Action

variable {α β : Type}

/-! ## Refusals on the way -/

/-- Where an action carries out a template to which something is passed that is refused, it fails
with the refusal. -/
def HeedsRefusals (job : Job) (x : Action α) : Prop :=
  ∀ s template passed checked before after failure,
    (x.run s).seen (.call (.template template passed checked) before after) →
    (∀ s', ((job.checkPassed template passed checked).run s').result = .error failure) →
    (x.run s).result = .error failure

variable {job : Job}

/-- An action in which no template can be seen has no refusal to heed. -/
theorem heedsRefusals_of_moments {x : Action α}
    (h : ∀ s sighting, (x.run s).seen sighting → ∃ levels state, sighting = .moment levels state) :
    x.HeedsRefusals job := by
  intro s template passed checked before after failure hseen _
  obtain ⟨levels, state, hmoment⟩ := h s _ hseen
  cases hmoment

theorem heedsRefusals_of_unseen {x : Action α} (h : ∀ s sighting, ¬(x.run s).seen sighting) :
    x.HeedsRefusals job :=
  heedsRefusals_of_moments fun s sighting hseen => absurd hseen (h s sighting)

theorem heedsRefusals_change (f : Environment → Environment) :
    (Action.change f).HeedsRefusals job :=
  heedsRefusals_of_moments fun _ _ hseen => ⟨0, _, hseen⟩

theorem HeedsRefusals.bind {x : Action α} {f : α → Action β} (hx : x.HeedsRefusals job)
    (hf : ∀ a, (f a).HeedsRefusals job) : (x >>= f).HeedsRefusals job := by
  intro s template passed checked before after failure hseen hrefused
  cases hfirst : (x.run s).result with
  | error first =>
      rw [run_bind_of_error f hfirst] at hseen ⊢
      have hfailure := hx s template passed checked before after failure hseen hrefused
      rw [hfirst] at hfailure
      exact congrArg Except.error (Except.error.inj hfailure)
  | ok a =>
      rw [run_bind_of_ok f hfirst] at hseen ⊢
      obtain hseen | hseen := hseen
      · have hfailure := hx s template passed checked before after failure hseen hrefused
        rw [hfirst] at hfailure
        cases hfailure
      · exact hf a _ template passed checked before after failure hseen hrefused

theorem HeedsRefusals.between {x : Action α} (hx : x.HeedsRefusals job)
    (opening closing : Environment → Environment) :
    (x.between opening closing).HeedsRefusals job := by
  intro s template passed checked before after failure hseen hrefused
  obtain hmoment | hseen | hmoment := hseen
  · cases hmoment
  · exact hx _ template passed checked before after failure hseen hrefused
  · cases hmoment

theorem HeedsRefusals.watch {x : Action Unit} (hx : x.HeedsRefusals job) {routine : Routine}
    (hheeds : job.Heeds routine x) : (x.watch routine).HeedsRefusals job := by
  intro s template passed checked before after failure hseen hrefused
  obtain hseen | hcall := hseen
  · exact hx s template passed checked before after failure hseen hrefused
  · have hroutine : routine = .template template passed checked := by
      cases hcall
      rfl
    exact hheeds template passed checked s failure hroutine (hrefused s)

theorem HeedsRefusals.inScope {x : Action Unit} (hx : x.HeedsRefusals job) :
    x.inScope.HeedsRefusals job :=
  (hx.between _ _).watch fun _ _ _ _ _ hroutine => by cases hroutine

theorem HeedsRefusals.text {x : Action Unit} (hx : x.HeedsRefusals job) :
    x.text.HeedsRefusals job := by
  intro s template passed checked before after failure hseen hrefused
  have hfailure := hx s template passed checked before after failure hseen hrefused
  change (x.run s).result.map _ = _
  rw [hfailure]
  rfl

theorem HeedsRefusals.inLevel {x : Action α} (hx : x.HeedsRefusals job) (limit : Nat) :
    (x.inLevel limit).HeedsRefusals job := by
  intro s template passed checked before after failure hseen hrefused
  by_cases h : limit ≤ s.depth
  · rw [run_inLevel_of_le x h] at hseen
    exact hseen.elim
  · rw [run_inLevel_of_not_le x h] at hseen ⊢
    obtain hmoment | ⟨inner, hseen, hinner⟩ | hmoment := hseen
    · cases hmoment
    · cases inner with
      | moment levels state => cases hinner
      | call routine before' after' =>
          cases hinner
          exact hx _ template passed checked before after failure hseen hrefused
    · cases hmoment

end Action

namespace Job

variable (job : Job)

/-! ## From the parts of a run to the whole -/

theorem hereditary_heedsRefusals : job.Hereditary fun x => x.HeedsRefusals job where
  pure _ := Action.heedsRefusals_of_unseen fun _ _ => id
  bind hx hf := hx.bind hf
  fail _ := Action.heedsRefusals_of_unseen fun _ _ => id
  eval _ _ := Action.heedsRefusals_of_unseen fun _ _ => id
  ruleFor _ _ := Action.heedsRefusals_of_unseen fun _ _ => id
  report _ := Action.heedsRefusals_of_unseen fun _ _ => id
  inElement _ hx :=
    (Action.heedsRefusals_of_unseen fun _ _ => id).bind fun _ => hx.bind fun _ =>
      Action.heedsRefusals_of_unseen fun _ _ => id
  bindName name value := Action.heedsRefusals_change (Environment.bind name value)
  inScope hx := hx.inScope
  text hx := hx.text
  watch _ hx _ hheeds := hx.watch hheeds

/-- What is refused anywhere in a run fails the run. -/
theorem main_heedsRefusals (params : Scope) : (job.main params).HeedsRefusals job :=
  job.hereditary_heedsRefusals.main (fun before after hx => hx.between before after)
    (fun hx => hx.inLevel _) (fun f => Action.heedsRefusals_change f) params

variable {job}

/-! ## What is refused -/

/-- In strict settings, a template that is called by its name refuses a name that it does not
declare. -/
theorem exists_refused (hstrict : job.settings.strict = true) {template : Template}
    {passed : Scope} (h : ∃ value ∈ passed, template.declares value.1 = false) :
    ∃ value ∈ passed, template.declares value.1 = false ∧
      ∀ s, ((job.checkPassed template passed true).run s).result =
        .error (.parameter value.1 (.undeclared template.label)) := by
  obtain ⟨value, hmem, hundeclared⟩ := h
  have hfound : (passed.reverse.find? fun value => !template.declares value.1).isSome = true := by
    rw [List.find?_isSome]
    exact ⟨value, List.mem_reverse.2 hmem, by simp [hundeclared]⟩
  obtain ⟨first, hfirst⟩ := Option.isSome_iff_exists.1 hfound
  have hrefused := List.find?_some hfirst
  have hpassed := List.mem_reverse.1 (List.mem_of_find?_eq_some hfirst)
  refine ⟨first, hpassed, by simpa using hrefused, fun s => ?_⟩
  simp only [checkPassed, hstrict, hfirst, Bool.and_self, if_true]
  rfl

/-- The names passed are those of the instruction, the last one first. -/
theorem names_passedValues {enter : Entry → Action Unit} {focus : Focus}
    {sources : List (String × ValueSource Instruction)} {s : State} {values : Scope}
    (h : ((job.passedValues enter focus sources).run s).result = .ok values) :
    values.map Prod.fst = (sources.map Prod.fst).reverse := by
  induction sources generalizing s values with
  | nil =>
      rw [passedValues] at h
      cases h
      rfl
  | cons source sources ih =>
      rw [passedValues] at h
      obtain ⟨value, -, h, -⟩ := Action.ok_of_bind h
      obtain ⟨others, hothers, h, -⟩ := Action.ok_of_bind h
      cases h
      simp [ih hothers]

/-- An instruction that calls a template fails if the template does not declare a name passed. -/
theorem callTemplate_refused (hstrict : job.settings.strict = true) {enter : Entry → Action Unit}
    {focus : Focus} {name : String} {sources : List (String × ValueSource Instruction)}
    {template : Template} {values : Scope} {s : State}
    (hname : job.stylesheet.rules.byName? name = some template)
    (hvalues : ((job.passedValues enter focus sources).run s).result = .ok values)
    (h : ∃ source ∈ sources, template.declares source.1 = false) :
    ∃ source ∈ sources, template.declares source.1 = false ∧
      ((job.perform enter focus (.callTemplate name sources)).run s).result =
        .error (.parameter source.1 (.undeclared template.label)) := by
  have hnames (param : String) :
      (∃ source ∈ sources, source.1 = param) ↔ ∃ value ∈ values, value.1 = param := by
    have := congrArg (param ∈ ·) (names_passedValues hvalues)
    simpa using this.symm
  obtain ⟨source, hsource, hundeclared⟩ := h
  obtain ⟨value, hvalue, hparam⟩ := (hnames source.1).1 ⟨source, hsource, rfl⟩
  obtain ⟨refused, hmem, hrefused, hcheck⟩ :=
    exists_refused hstrict ⟨value, hvalue, hparam ▸ hundeclared⟩
  obtain ⟨source', hsource', hparam'⟩ := (hnames refused.1).2 ⟨refused, hmem, rfl⟩
  refine ⟨source', hsource', hparam' ▸ hrefused, ?_⟩
  rw [perform, hname, hparam']
  dsimp only
  rw [Action.run_bind_of_ok _ hvalues]
  exact job.heeds_instantiate template focus values true _ _ _ _ _ rfl (hcheck _)

/-! ## What is ignored -/

/-- A declared name stands for the same among the declared values. -/
theorem lookup_declared {template : Template} {name : String}
    (h : template.declares name = true) (passed : Scope) :
    (template.declared passed).lookup name = passed.lookup name := by
  unfold Template.declared
  induction passed with
  | nil => rfl
  | cons value passed ih =>
      obtain ⟨other, value⟩ := value
      by_cases hname : name = other
      · rw [List.filter_cons_of_pos (by simpa [← hname] using h), hname,
          List.lookup_cons_self, List.lookup_cons_self]
      · have hskip : ((other, value) :: passed).lookup name = passed.lookup name := by
          rw [List.lookup_cons, beq_false_of_ne hname]
        by_cases hother : template.declares other = true
        · rw [List.filter_cons_of_pos (by simpa using hother), List.lookup_cons,
            beq_false_of_ne hname, ih, hskip]
        · rw [List.filter_cons_of_neg (by simpa using hother), ih, hskip]

theorem bindParams_congr {enter : Entry → Action Unit} {focus : Focus} {passed passed' : Scope}
    {params : List (String × ValueSource Instruction)}
    (h : ∀ param ∈ params, passed.lookup param.1 = passed'.lookup param.1) :
    job.bindParams enter focus passed params = job.bindParams enter focus passed' params := by
  induction params with
  | nil => rfl
  | cons param params ih =>
      unfold bindParams
      rw [h param List.mem_cons_self, ih fun other hother => h other (List.mem_cons_of_mem _ hother)]

/-- What a template does not declare has no part in carrying it out. -/
theorem carryOut_declared (enter : Entry → Action Unit) (template : Template) (focus : Focus)
    (passed : Scope) :
    job.carryOut enter template focus (template.declared passed) =
      job.carryOut enter template focus passed := by
  have hparams : ∀ param ∈ template.params,
      (template.declared passed).lookup param.1 = passed.lookup param.1 := by
    intro param hparam
    refine lookup_declared ?_ passed
    rw [Template.declares, List.any_eq_true]
    exact ⟨param, hparam, beq_self_eq_true param.1⟩
  unfold carryOut
  rw [bindParams_congr hparams]

theorem enterAt_declared (left : Nat) (template : Template) (focus : Focus) (passed : Scope) :
    job.enterAt left (.template template focus (template.declared passed)) =
      job.enterAt left (.template template focus passed) := by
  cases left with
  | zero => rfl
  | succ left => simp only [enterAt, carryOut_declared]

/-- A template that is not called by its name is entered without a check. -/
theorem run_instantiate_unchecked (enter : Entry → Action Unit) (template : Template)
    (focus : Focus) (passed : Scope) (s : State) :
    ((job.instantiate enter template focus passed false).run s).result =
        ((enter (.template template focus passed)).run s).result ∧
      ((job.instantiate enter template focus passed false).run s).report.toList =
        ((enter (.template template focus passed)).run s).report.toList := by
  refine ⟨rfl, ?_⟩
  change (Report.append .empty ((enter (.template template focus passed)).run s).report).toList = _
  simp [Report.empty]

/-! ## Strict runs -/

/-- **What a strict run asks of what is passed.**  An instruction that calls a template by its name
and passes a name that the template does not declare fails for that reason, and wherever in a run
this happens, it is how the run ends; so whatever is passed by such calls in a run that succeeds is
declared.  Nothing of the kind is asked where a template is chosen by a rule: what it does not
declare may as well not be passed. -/
theorem strict_calls_declare (job : Job) (hstrict : job.settings.strict = true) :
    (∀ left focus name sources template values s,
      job.stylesheet.rules.byName? name = some template →
      ((job.passedValues (job.enterAt left) focus sources).run s).result = .ok values →
      (∃ source ∈ sources, template.declares source.1 = false) →
      ∃ source ∈ sources, template.declares source.1 = false ∧
        ((job.perform (job.enterAt left) focus (.callTemplate name sources)).run s).result =
          .error (.parameter source.1 (.undeclared template.label))) ∧
    (∀ params template passed before after,
      ((job.main params).run .initial).seen (.call (.template template passed true) before after) →
      (∃ value ∈ passed, template.declares value.1 = false) →
      ∃ value ∈ passed, template.declares value.1 = false ∧
        ((job.main params).run .initial).result =
          .error (.parameter value.1 (.undeclared template.label))) ∧
    (∀ params template passed before after,
      ((job.main params).run .initial).result = .ok () →
      ((job.main params).run .initial).seen (.call (.template template passed true) before after) →
      ∀ value ∈ passed, template.declares value.1 = true) ∧
    ∀ left template focus passed s,
      ((job.instantiate (job.enterAt left) template focus passed false).run s).result =
          ((job.instantiate (job.enterAt left) template focus (template.declared passed)
            false).run s).result ∧
        ((job.instantiate (job.enterAt left) template focus passed false).run s).report.toList =
          ((job.instantiate (job.enterAt left) template focus (template.declared passed)
            false).run s).report.toList := by
  have hrun (params : Scope) (template : Template) (passed : Scope) (before after : State)
      (hseen : ((job.main params).run .initial).seen
        (.call (.template template passed true) before after))
      (h : ∃ value ∈ passed, template.declares value.1 = false) :
      ∃ value ∈ passed, template.declares value.1 = false ∧
        ((job.main params).run .initial).result =
          .error (.parameter value.1 (.undeclared template.label)) := by
    obtain ⟨value, hvalue, hundeclared, hrefused⟩ := exists_refused hstrict h
    exact ⟨value, hvalue, hundeclared,
      job.main_heedsRefusals params _ _ _ _ _ _ _ hseen hrefused⟩
  refine ⟨?_, hrun, ?_, ?_⟩
  · intro left focus name sources template values s hname hvalues h
    exact callTemplate_refused hstrict hname hvalues h
  · intro params template passed before after hok hseen value hvalue
    by_contra hundeclared
    obtain ⟨refused, -, -, hfailed⟩ := hrun params template passed before after hseen
      ⟨value, hvalue, by simpa using hundeclared⟩
    rw [hok] at hfailed
    cases hfailed
  · intro left template focus passed s
    obtain ⟨hresult, hreport⟩ := run_instantiate_unchecked (job.enterAt left) template focus passed s
    obtain ⟨hresult', hreport'⟩ := run_instantiate_unchecked (job.enterAt left) template focus
      (template.declared passed) s
    rw [hresult, hresult', hreport, hreport', enterAt_declared]
    exact ⟨rfl, rfl⟩

/-- A template that declares nothing and writes nothing. -/
def silent : Template := ⟨some "silent", none, none, none, [], []⟩

/-- A strict job with a document of one element, where the template for the root carries out an
instruction and `silent` is for everything else. -/
def strictly (instruction : Instruction) : Job where
  stylesheet :=
    { rules :=
        { ranked :=
            [⟨⟨true, []⟩, none, .zero false, 0, ⟨none, none, none, none, [], [instruction]⟩⟩,
              ⟨⟨false, [⟨.child, .any, [], .child⟩]⟩, none, .zero false, 1, silent⟩]
          named := [("silent", silent)] }
      globals := []
      output := .standard }
  document := ⟨[.element ⟨none, "a"⟩ [] []]⟩
  settings := ⟨2, true⟩

/-- The call of `silent` with a name that it does not declare. -/
def calling : Instruction := .callTemplate "silent" [("extra", .empty)]

/-- The same name passed to whatever templates the rules choose. -/
def handing : Instruction := .applyTemplates none none [] [("extra", .empty)]

/-- The run of a strict job ends where its template for the root calls `silent` with a name that it
does not declare. -/
theorem strict_calls_declare_silent :
    (strictly calling).settings.strict = true ∧ silent.declares "extra" = false ∧
    (((strictly calling).main []).run .initial).result =
      .error (.parameter "extra" (.undeclared silent.label)) := by
  have hseen : ∃ before after, (((strictly calling).main []).run .initial).seen
      (.call (.template silent [("extra", .string "")] true) before after) :=
    -- from the run to the root, from there into its template, and then to the call
    ⟨_, _, .inr (.inr (.inr (.inl (.inl (.inr (.inl (.inr (.inr (.inl ⟨.call _ _ _,
      .inr (.inl (.inr (.inl (.inr (.inl (.inr (.inr rfl))))))), rfl⟩)))))))))⟩
  obtain ⟨before, after, hseen⟩ := hseen
  obtain ⟨value, hvalue, -, hfailed⟩ := (strict_calls_declare (strictly calling) rfl).2.1 _ _ _ _ _
    hseen ⟨_, List.mem_cons_self, rfl⟩
  obtain rfl := List.mem_singleton.1 hvalue
  exact ⟨rfl, rfl, hfailed⟩

/-- Passed to a template that a rule chooses, a name that is not declared goes unnoticed in a strict
run. -/
theorem strict_rules_ignore :
    ¬∀ job : Job, job.settings.strict = true → ((job.main []).run .initial).result = .ok () →
      ∀ template passed checked before after,
        ((job.main []).run .initial).seen
          (.call (.template template passed checked) before after) →
        ∀ value ∈ passed, template.declares value.1 = true := by
  intro h
  have hok : (((strictly handing).main []).run .initial).result = .ok () := by cbv
  have hseen : ∃ before after, (((strictly handing).main []).run .initial).seen
      (.call (.template silent [("extra", .string "")] false) before after) :=
    ⟨_, _, .inr (.inr (.inr (.inl (.inl (.inl (.inr (.inl (.inr (.inr (.inl ⟨.call _ _ _,
      .inr (.inl (.inr (.inl (.inr (.inl (.inl (.inr (.inr (.inr (.inl (.inl (.inr
        (.inr rfl))))))))))))), rfl⟩))))))))))⟩
  obtain ⟨before, after, hseen⟩ := hseen
  have hdeclared := h _ rfl hok _ _ _ _ _ hseen _ List.mem_cons_self
  cases hdeclared

end Job

end Restyle
