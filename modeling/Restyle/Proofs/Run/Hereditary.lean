import Restyle.Proofs.Rules
import Restyle.Proofs.Run.Unfolding
import Restyle.Proofs.Run.Expressions
import Restyle.Proofs.Result.Nesting

/-!
# Restyle.Proofs.Run.Hereditary

Properties that pass from the parts of a run to the whole.

Instructions nest, and so do the functions that carry them out.  The induction over all of them is
done once, for everything that is `Compositional`: the smallest actions have it, and each way to put
actions together hands it on.  It may be a relation between the actions of several runs, and a
`Hereditary` property of actions is the case of one run.  What an entry does is a premise here; a
proof about whole runs adds an induction on the levels that are left.

* `Action.ok_of_bind`, `Action.error_of_bind`, `Action.seen_of_bind` — one action after another;
* `Action.Restores` — an action leaves the state as it found it, whether it fails or not;
* `Job.MayFail`, `Job.MayRaise` — the failures that a run may end with, and those that instructions
  end with themselves;
* `Job.Compositional.performAll`, `Job.Compositional.applyAll`, … — what relates the actions of
  several runs passes to bodies, to nodes handled by their rules, and to everything else that
  instructions are carried out with;
* `Job.Hereditary.performAll`, `Job.Hereditary.applyAll`, … — the same for a property of one run.
-/

namespace Restyle

namespace Action

variable {α β : Type}

/-! ## One thing after another -/

theorem run_bind_of_error {x : Action α} (f : α → Action β) {s : State} {failure : Failure}
    (h : (x.run s).result = .error failure) :
    (x >>= f).run s = ⟨.error failure, (x.run s).report, (x.run s).state, (x.run s).seen⟩ := by
  change Action.bind x f s = _
  unfold Action.bind
  dsimp only
  rw [show (x s).result = .error failure from h]
  rfl

theorem run_bind_of_ok {x : Action α} (f : α → Action β) {s : State} {a : α}
    (h : (x.run s).result = .ok a) :
    (x >>= f).run s =
      let second := (f a).run (x.run s).state
      ⟨second.result, (x.run s).report.append second.report, second.state,
        fun sighting => (x.run s).seen sighting ∨ second.seen sighting⟩ := by
  change Action.bind x f s = _
  unfold Action.bind
  dsimp only
  rw [show (x s).result = .ok a from h]
  rfl

/-- One thing after another ends with a value if both do, and then both report. -/
theorem ok_of_bind {x : Action α} {f : α → Action β} {s : State} {b : β}
    (h : ((x >>= f).run s).result = .ok b) :
    ∃ a, (x.run s).result = .ok a ∧ ((f a).run (x.run s).state).result = .ok b ∧
      ((x >>= f).run s).report = (x.run s).report.append ((f a).run (x.run s).state).report := by
  cases hfirst : (x.run s).result with
  | error failure =>
      rw [run_bind_of_error f hfirst] at h
      cases h
  | ok a =>
      rw [run_bind_of_ok f hfirst] at h ⊢
      exact ⟨a, rfl, h, rfl⟩

/-- One thing after another fails if the first one does, or the second one after it. -/
theorem error_of_bind {x : Action α} {f : α → Action β} {s : State} {failure : Failure}
    (h : ((x >>= f).run s).result = .error failure) :
    (x.run s).result = .error failure ∨
      ∃ a, ((f a).run (x.run s).state).result = .error failure := by
  cases hfirst : (x.run s).result with
  | error first =>
      rw [run_bind_of_error f hfirst] at h
      rw [Except.error.inj h]
      exact .inl rfl
  | ok a =>
      rw [run_bind_of_ok f hfirst] at h
      exact .inr ⟨a, h⟩

/-- What is seen of one thing after another is seen of the first one, or of the second one after
it. -/
theorem seen_of_bind {x : Action α} {f : α → Action β} {s : State} {sighting : Sighting}
    (h : ((x >>= f).run s).seen sighting) :
    (x.run s).seen sighting ∨ ∃ a, ((f a).run (x.run s).state).seen sighting := by
  cases hfirst : (x.run s).result with
  | error failure =>
      rw [run_bind_of_error f hfirst] at h
      exact .inl h
  | ok a =>
      rw [run_bind_of_ok f hfirst] at h
      exact h.imp_right fun hsecond => ⟨a, hsecond⟩

/-! ## One level deeper -/

theorem run_inLevel_of_le (x : Action α) {limit : Nat} {s : State} (h : limit ≤ s.depth) :
    (x.inLevel limit).run s = (Action.fail (.tooDeep limit) : Action α).run s := if_pos h

theorem run_inLevel_of_not_le (x : Action α) {limit : Nat} {s : State} (h : ¬limit ≤ s.depth) :
    (x.inLevel limit).run s =
      ⟨(x.run s.enter).result, (x.run s.enter).report, (x.run s.enter).state.leave, fun sighting =>
        sighting = .moment 1 s.enter ∨
          (∃ seen, (x.run s.enter).seen seen ∧ sighting = seen.inLevel) ∨
            sighting = .moment 0 (x.run s.enter).state.leave⟩ := if_neg h

/-! ## Actions that leave the state as they find it -/

/-- Whether it fails or not, an action leaves the state as it found it. -/
def Restores (x : Action α) : Prop := ∀ s, (x.run s).state = s

theorem restores_pure (a : α) : (pure a : Action α).Restores := fun _ => rfl

theorem restores_fail (failure : Failure) : (Action.fail failure : Action α).Restores :=
  fun _ => rfl

theorem restores_report (events : List Event) : (Action.report events).Restores := fun _ => rfl

theorem restores_compute (f : Environment → Except Failure α) : (Action.compute f).Restores :=
  fun _ => rfl

theorem Restores.bind {x : Action α} {f : α → Action β} (hx : x.Restores)
    (hf : ∀ a, (f a).Restores) : (x >>= f).Restores := by
  intro s
  cases h : (x.run s).result with
  | error failure => rw [run_bind_of_error f h]; exact hx s
  | ok a => rw [run_bind_of_ok f h]; exact (hf a _).trans (hx s)

theorem Restores.watch {x : Action α} (hx : x.Restores) (routine : Routine) :
    (x.watch routine).Restores := hx

theorem Restores.forM {f : α → Action Unit} (hf : ∀ a, (f a).Restores) (as : List α) :
    (as.forM f).Restores := by
  induction as with
  | nil => exact restores_pure _
  | cons a as ih => exact (hf a).bind fun _ => ih

end Action

/-- Whether all values of a scope are good. -/
def Scope.All (Good : Value → Prop) (scope : Scope) : Prop := ∀ value ∈ scope, Good value.2

theorem Scope.All.of_lookup {Good : Value → Prop} {scope : Scope} (h : scope.All Good)
    {name : String} {value : Value} (hvalue : scope.lookup name = some value) : Good value := by
  obtain ⟨before, after, rfl, -⟩ := List.lookup_eq_some_iff.1 hvalue
  exact h (name, value) (List.mem_append_right _ List.mem_cons_self)

/-- What may be known of the value that an action ends with. -/
inductive Yield : Type → Type 1 where
  /-- Nothing. -/
  | any {α : Type} : Yield α
  /-- It is good. -/
  | value : Yield Value
  /-- It is a scope in which all values are good. -/
  | scope : Yield Scope

/-- Whether what is known of a value holds of it. -/
def Yield.Holds (Good : Value → Prop) : {α : Type} → Yield α → α → Prop
  | _, .any, _ => True
  | _, .value, a => Good a
  | _, .scope, a => Scope.All Good a

theorem Yield.holds_true {α : Type} (y : Yield α) (a : α) : y.Holds (fun _ => True) a := by
  cases y with
  | any | value => trivial
  | scope => exact fun _ _ => trivial

/-- Whether the values that a routine passes to a template are good. -/
def Routine.Passes (Good : Value → Prop) : Routine → Prop
  | .template _ passed _ => passed.All Good
  | .body | .nodes | .builtIn => True

/-- Whether the values that an entry passes to a template are good. -/
def Entry.Passes (Good : Value → Prop) : Entry → Prop
  | .template _ _ passed => passed.All Good
  | .children .. => True

/-- Whether the template that an entry leads to, if any, is one of the given ones. -/
def Entry.IsAmong (rules : Rules) : Entry → Prop
  | .template entered .. => entered ∈ rules.templates
  | .children .. => True

namespace Job

variable (job : Job)

/-! ## Routines that leave the state as they find it -/

section Restores

variable {job} {enter : Entry → Action Unit} (henter : ∀ entry, (enter entry).Restores)

theorem restores_checkPassed (template : Template) (passed : Scope) (checked : Bool) :
    (job.checkPassed template passed checked).Restores := by
  unfold checkPassed
  split
  · split
    · exact Action.restores_fail _
    · exact Action.restores_pure _
  · exact Action.restores_pure _

include henter

theorem restores_instantiate (template : Template) (focus : Focus) (passed : Scope)
    (checked : Bool) : (job.instantiate enter template focus passed checked).Restores :=
  ((restores_checkPassed template passed checked).bind fun _ => henter _).watch _

theorem restores_builtIn (mode : Option String) (node : Node) :
    (builtIn enter mode node).Restores := by
  unfold builtIn
  refine Action.Restores.watch ?_ _
  split
  · exact henter _
  · exact henter _
  · exact Action.restores_report _
  · exact Action.restores_report _
  · exact Action.restores_pure _
  · exact Action.restores_pure _

theorem restores_applyTo (mode : Option String) (passed : Scope) (focus : Focus) :
    (job.applyTo enter mode passed focus).Restores := by
  refine (Action.restores_compute _).bind fun rule => ?_
  cases rule with
  | some rule => exact restores_instantiate henter rule.template focus passed false
  | none => exact restores_builtIn henter mode focus.node

theorem restores_applyAll (mode : Option String) (passed : Scope) (nodes : List Node) :
    (job.applyAll enter mode passed nodes).Restores :=
  (Action.Restores.forM (restores_applyTo henter mode passed) _).watch _

end Restores

/-! ## The failures of a run -/

/-- The failures that a run may end with. -/
inductive MayFail : Failure → Prop where
  | unbound (name : String) : MayFail (.unbound name)
  | noTemplate (name : String) : MayFail (.noTemplate name)
  | tooDeep : MayFail (.tooDeep job.settings.maxDepth)
  | parameter (name : String) (problem : ParamProblem) (h : job.settings.strict = true) :
    MayFail (.parameter name problem)
  | evaluation (problem : RunProblem) : MayFail (.evaluation problem)
  | terminated (text : String) : MayFail (.terminated text)

/-- The failures that instructions end with themselves, which is neither for a level that may not be
opened nor for an expression that has no value. -/
inductive MayRaise : Failure → Prop where
  | noTemplate (name : String) : MayRaise (.noTemplate name)
  | parameter (name : String) (problem : ParamProblem) (h : job.settings.strict = true) :
    MayRaise (.parameter name problem)
  | notNodes (instruction found : String) : MayRaise (.evaluation (.notNodes instruction found))
  | badName (name : String) : MayRaise (.evaluation (.badName name))
  | terminated (text : String) : MayRaise (.terminated text)

variable {job} in
theorem MayRaise.mayFail {failure : Failure} (h : job.MayRaise failure) : job.MayFail failure := by
  cases h with
  | noTemplate name => exact .noTemplate name
  | parameter name problem hstrict => exact .parameter name problem hstrict
  | notNodes | badName => exact .evaluation _
  | terminated text => exact .terminated text

/-! ## What passes from the parts to the whole -/

/-- What follows the choice of a rule matters for the rules that there are. -/
theorem ruleFor_bind_congr (mode : Option String) (focus : Focus) {α : Type}
    {f g : Option Rule → Action α} (hnone : f none = g none)
    (hsome : ∀ rule ∈ job.stylesheet.rules.ranked, f (some rule) = g (some rule)) :
    job.ruleFor mode focus >>= f = job.ruleFor mode focus >>= g := by
  funext s
  change (job.ruleFor mode focus >>= f).run s = (job.ruleFor mode focus >>= g).run s
  cases hrule : ((job.ruleFor mode focus).run s).result with
  | error failure => rw [Action.run_bind_of_error f hrule, Action.run_bind_of_error g hrule]
  | ok found =>
      have hfound : f found = g found := by
        cases found with
        | none => exact hnone
        | some rule =>
            have hfirst := Rules.mem_of_firstFor (mapError_eq_ok.1 hrule)
            exact hsome rule (List.mem_filter.1 hfirst).1
      rw [Action.run_bind_of_ok f hrule, Action.run_bind_of_ok g hrule, hfound]

/-- An action is marked as the carrying out of a template only if it refuses what the check of the
values passed refuses. -/
def Heeds (routine : Routine) (x : Action Unit) : Prop :=
  ∀ template passed checked s failure, routine = .template template passed checked →
    ((job.checkPassed template passed checked).run s).result = .error failure →
    (x.run s).result = .error failure

theorem heeds_instantiate {enter : Entry → Action Unit} (template : Template) (focus : Focus)
    (passed : Scope) (checked : Bool) :
    job.Heeds (.template template passed checked) (do
      job.checkPassed template passed checked
      enter (.template template focus passed)) := by
  rintro template passed checked s failure ⟨rfl, rfl, rfl⟩ hrefused
  rw [Action.run_bind_of_error _ hrefused]

/-- The same job with another limit. -/
def limited (limit : Nat) : Job :=
  { job with settings := { job.settings with maxDepth := limit } }

/-- What relates the actions of a family: one action for each of several runs, which carry out
entries in different ways.  Together with the actions goes what is known of the values that they end
with; every value that is bound to a name or passed on must be good.  The smallest actions of a run
are the same in all runs and are related, and every way to put actions together hands it on.  A
routine only has to be marked where it leaves the state as entries do, and heeds the check of what
is passed.  Of expressions nothing is said here. -/
structure Composable {ι : Type} (enter : ι → Entry → Action Unit) (Good : Value → Prop)
    (R : {α : Type} → Yield α → (ι → Action α) → Prop) : Prop where
  pure {α : Type} (y : Yield α) {a : α} : y.Holds Good a → R y fun _ => pure a
  bind {α β : Type} {y : Yield α} {y' : Yield β} {x : ι → Action α} {f : ι → α → Action β} :
    R y x → (∀ a, y.Holds Good a → R y' fun i => f i a) → R y' fun i => x i >>= f i
  fail {α : Type} {y : Yield α} {failure : Failure} :
    job.MayRaise failure → R y fun _ => Action.fail failure
  string (text : String) : Good (.string text)
  ruleFor (mode : Option String) (focus : Focus) :
    R .any fun _ => job.ruleFor mode focus
  report {events : List Event} :
    Event.Balanced events → R .any fun _ => Action.report events
  inElement {x : ι → Action Unit} (name : String) :
    R .any x → R .any fun i => (x i).inElement name
  bindName (name : String) {value : Value} :
    Good value → R .any fun _ => Action.change (Environment.bind name value)
  inScope {x : ι → Action Unit} : R .any x → R .any fun i => (x i).inScope
  text {x : ι → Action Unit} : R .any x → R .any fun i => (x i).text
  watch {x : ι → Action Unit} (routine : Routine) :
    R .any x → routine.Passes Good →
    ((∀ i entry, (enter i entry).Restores) → ∀ i, (x i).Restores) →
    (∀ i, job.Heeds routine (x i)) → R .any fun i => (x i).watch routine

/-- The same, where it goes for the values of all expressions. -/
structure Compositional {ι : Type} (enter : ι → Entry → Action Unit) (Good : Value → Prop)
    (R : {α : Type} → Yield α → (ι → Action α) → Prop) : Prop
    extends job.Composable enter Good R where
  eval (focus : Focus) (e : Expr) : R .value fun _ => job.eval focus e

namespace Composable

variable {job} {ι : Type} {enter : ι → Entry → Action Unit} {Good : Value → Prop}
  {R : {α : Type} → Yield α → (ι → Action α) → Prop} (h : job.Composable enter Good R)
  (limit : ι → Nat)

include h

theorem forM {α : Type} {f : ι → α → Action Unit} (hf : ∀ a, R .any fun i => f i a)
    (as : List α) : R .any fun i => as.forM (f i) := by
  induction as with
  | nil => exact h.pure _ trivial
  | cons a as ih => exact h.bind (hf a) fun _ _ => ih

/-! ### Evaluation

What is said of the values of expressions is said of those that occur. -/

section Evaluation

variable {E : Expr → Prop} (heval : ∀ focus e, E e → R .value fun _ => job.eval focus e)

include heval

theorem selected (focus : Focus) (instruction : String) {e : Expr} (he : E e) :
    R .any fun i => (job.limited (limit i)).selected focus instruction e := by
  refine h.bind (heval focus e he) fun value _ => ?_
  cases value with
  | nodes nodes => exact h.pure _ trivial
  | string | number | boolean => exact h.fail (.notNodes _ _)

theorem expand (focus : Focus) (template : TextTemplate) (hexprs : ∀ e ∈ template.exprs, E e) :
    R .any fun i => (job.limited (limit i)).expand focus template := by
  induction template with
  | nil => exact h.pure _ trivial
  | cons part parts ih =>
      cases part with
      | text content => exact h.bind (ih hexprs) fun _ _ => h.pure _ trivial
      | value e =>
          obtain ⟨he, hparts⟩ := List.forall_mem_cons.1 hexprs
          exact h.bind (heval focus e he) fun _ _ =>
            h.bind (ih hparts) fun _ _ => h.pure _ trivial

theorem expandName (focus : Focus) (template : TextTemplate)
    (hexprs : ∀ e ∈ template.exprs, E e) :
    R .any fun i => (job.limited (limit i)).expandName focus template := by
  refine h.bind (h.expand limit heval focus template hexprs) fun text _ => ?_
  dsimp only
  split
  · exact h.pure _ trivial
  · exact h.fail (.badName _)

theorem sortValues (focus : Focus) (keys : List SortKey)
    (hexprs : ∀ e ∈ keys.map SortKey.select, E e) :
    R .any fun i => (job.limited (limit i)).sortValues focus keys := by
  induction keys with
  | nil => exact h.pure _ trivial
  | cons key keys ih =>
      obtain ⟨hkey, hkeys⟩ := List.forall_mem_cons.1 hexprs
      exact h.bind (heval focus key.select hkey) fun _ _ =>
        h.bind (ih hkeys) fun _ _ => h.pure _ trivial

theorem withSortValues (keys : List SortKey) (hexprs : ∀ e ∈ keys.map SortKey.select, E e)
    (focuses : List Focus) :
    R .any fun i => (job.limited (limit i)).withSortValues keys focuses := by
  induction focuses with
  | nil => exact h.pure _ trivial
  | cons focus focuses ih =>
      exact h.bind (h.sortValues limit heval focus keys hexprs) fun _ _ =>
        h.bind ih fun _ _ => h.pure _ trivial

theorem sorted (keys : List SortKey) (hexprs : ∀ e ∈ keys.map SortKey.select, E e)
    (nodes : List Node) :
    R .any fun i => (job.limited (limit i)).sorted keys nodes := by
  unfold Job.sorted
  split
  · exact h.pure _ trivial
  · exact h.bind (h.withSortValues limit heval keys hexprs _) fun _ _ => h.pure _ trivial

theorem writeAttributes (focus : Focus) (attrs : List (QName × TextTemplate))
    (hexprs : ∀ e ∈ attrs.flatMap fun attr => attr.2.exprs, E e) :
    R .any fun i => (job.limited (limit i)).writeAttributes focus attrs := by
  induction attrs with
  | nil => exact h.pure _ trivial
  | cons attr attrs ih =>
      rw [List.flatMap_cons, List.forall_mem_append] at hexprs
      exact h.bind (h.expand limit heval focus attr.2 hexprs.1) fun _ _ =>
        h.bind (h.report rfl) fun _ _ => ih hexprs.2

end Evaluation

theorem checkAttributeName (name : String) :
    R .any fun _ => Job.checkAttributeName name := by
  unfold Job.checkAttributeName
  split
  · exact h.fail (.badName _)
  · exact h.pure _ trivial

theorem checkPassed (template : Template) (passed : Scope) (checked : Bool) :
    R .any fun _ => job.checkPassed template passed checked := by
  unfold Job.checkPassed
  split
  · next hstrict =>
    rw [Bool.and_eq_true] at hstrict
    split
    · exact h.fail (.parameter _ _ hstrict.2)
    · exact h.pure _ trivial
  · exact h.pure _ trivial

/-! ### Entries

Only templates of the stylesheet are entered: those of its rules, and those that its names stand
for. -/

variable (henter : ∀ entry, entry.Passes Good → entry.IsAmong job.stylesheet.rules →
  R .any fun i => enter i entry)

include henter

theorem instantiate {template : Template} (htemplate : template ∈ job.stylesheet.rules.templates)
    (focus : Focus) {passed : Scope} (checked : Bool) (hpassed : passed.All Good) :
    R .any fun i =>
      (job.limited (limit i)).instantiate (enter i) template focus passed checked :=
  h.watch _ (h.bind (h.checkPassed template passed checked) fun _ _ => henter _ hpassed htemplate)
    hpassed
    (fun hrestores i => (restores_checkPassed template passed checked).bind fun _ => hrestores i _)
    fun _ => job.heeds_instantiate template focus passed checked

theorem builtIn (mode : Option String) (node : Node) :
    R .any fun i => Job.builtIn (enter i) mode node := by
  refine h.watch _ ?_ trivial (fun hrestores i => restores_builtIn (hrestores i) mode node)
    fun _ _ _ _ _ _ hroutine => by cases hroutine
  cases node.kind with
  | root | element => exact henter (.children node mode) trivial trivial
  | text | attr => exact h.report rfl
  | comment | instruction => exact h.pure _ trivial

theorem applyTo (mode : Option String) {passed : Scope} (hpassed : passed.All Good)
    (focus : Focus) :
    R .any fun i => (job.limited (limit i)).applyTo (enter i) mode passed focus := by
  classical
  -- what is done for rules that are not there is no matter
  let guarded (i : ι) (found : Option Rule) : Action Unit :=
    if ∀ rule ∈ found, rule ∈ job.stylesheet.rules.ranked then
      found.elim (Job.builtIn (enter i) mode focus.node) fun rule =>
        (job.limited (limit i)).instantiate (enter i) rule.template focus passed false
    else return ()
  have hguarded (i : ι) : (job.limited (limit i)).applyTo (enter i) mode passed focus =
      job.ruleFor mode focus >>= guarded i := by
    unfold Job.applyTo
    refine job.ruleFor_bind_congr mode focus ?_ fun rule hrule => ?_
    · simp [guarded]
    · simp [guarded, hrule]
  simp only [hguarded]
  refine h.bind (h.ruleFor mode focus) fun found _ => ?_
  by_cases hfound : ∀ rule ∈ found, rule ∈ job.stylesheet.rules.ranked
  · simp only [guarded, if_pos hfound]
    cases found with
    | some rule =>
        exact h.instantiate limit henter (Rules.mem_templates_of_mem_ranked (hfound rule rfl)) focus
          false hpassed
    | none => exact h.builtIn henter mode focus.node
  · simp only [guarded, if_neg hfound]
    exact h.pure _ trivial

theorem applyAll (mode : Option String) {passed : Scope} (hpassed : passed.All Good)
    (nodes : List Node) :
    R .any fun i => (job.limited (limit i)).applyAll (enter i) mode passed nodes :=
  h.watch _ (h.forM (h.applyTo limit henter mode hpassed) _) trivial
    (fun hrestores i => restores_applyAll (hrestores i) mode passed nodes)
    fun _ _ _ _ _ _ hroutine => by cases hroutine

section Bodies

/-! ### Instructions

The bodies inside an instruction are smaller than it is. -/

variable {E : Expr → Prop} (heval : ∀ focus e, E e → R .value fun _ => job.eval focus e)
  (within : ι → Focus → List Instruction → Action Unit) {size : Nat}
  (hwithin : ∀ focus body, sizeOf body < size → (∀ e ∈ bodyExprs body, E e) →
    R .any fun i => within i focus body)

include heval hwithin

omit henter in
theorem sourceValueBy (focus : Focus) (source : ValueSource Instruction)
    (hsize : sizeOf source ≤ size) (hexprs : ∀ e ∈ sourceExprs source, E e) :
    R .value fun i => (job.limited (limit i)).sourceValueBy (within i) focus source := by
  cases source with
  | empty => exact h.pure .value (h.string "")
  | select e => exact heval focus e (List.forall_mem_singleton.1 hexprs)
  | content body =>
      have hbody := hwithin focus body (by simp at hsize; omega) hexprs
      exact h.bind (h.text (h.inScope hbody)) fun text _ => h.pure .value (h.string text)

omit henter in
theorem passedValuesBy (focus : Focus) (passed : List (String × ValueSource Instruction))
    (hsize : sizeOf passed ≤ size) (hexprs : ∀ e ∈ passedExprs passed, E e) :
    R .scope fun i => (job.limited (limit i)).passedValuesBy (within i) focus passed := by
  induction passed with
  | nil => exact h.pure .scope (List.forall_mem_nil _)
  | cons value others ih =>
      obtain ⟨name, source⟩ := value
      simp only [List.cons.sizeOf_spec, Prod.mk.sizeOf_spec] at hsize
      rw [passedExprs, List.forall_mem_append] at hexprs
      have hfirst := h.sourceValueBy limit heval within hwithin focus source (by omega) hexprs.1
      refine h.bind hfirst fun value hvalue =>
        h.bind (ih (by omega) hexprs.2) fun values hvalues => h.pure .scope ?_
      exact List.forall_mem_append.2 ⟨hvalues, List.forall_mem_singleton.2 hvalue⟩

omit henter in
theorem performFirstBy (focus : Focus) {last : ι → Action Unit} (hlast : R .any last)
    (whens : List (Expr × List Instruction)) (hsize : sizeOf whens ≤ size)
    (hexprs : ∀ e ∈ whenExprs whens, E e) :
    R .any fun i =>
      (job.limited (limit i)).performFirstBy (within i) focus (last i) whens := by
  induction whens with
  | nil => exact hlast
  | cons when others ih =>
      obtain ⟨test, body⟩ := when
      simp only [List.cons.sizeOf_spec, Prod.mk.sizeOf_spec] at hsize
      rw [whenExprs, List.forall_mem_cons, List.forall_mem_append] at hexprs
      obtain ⟨htest, hbody, hothers⟩ := hexprs
      refine h.bind (heval focus test htest) fun value _ => ?_
      cases value.toBool with
      | true => exact h.inScope (hwithin focus body (by omega) hbody)
      | false => exact ih (by omega) hothers

theorem performBy (focus : Focus) (instruction : Instruction) (hsize : sizeOf instruction ≤ size)
    (hexprs : ∀ e ∈ instruction.exprs, E e) :
    R .any fun i =>
      (job.limited (limit i)).performBy (enter i) (within i) focus instruction := by
  cases instruction with
  | text content => exact h.report rfl
  | literal name namespaces attributes body =>
      rw [Instruction.exprs, List.forall_mem_append] at hexprs
      have hbody := hwithin focus body (by simp at hsize; omega) hexprs.2
      refine h.inElement _ (h.bind (h.report ?_) fun _ _ =>
        h.bind (h.writeAttributes limit heval focus attributes hexprs.1) fun _ _ =>
          h.inScope hbody)
      rw [← List.flatMap_singleton' (namespaces.map _), List.flatMap_map]
      exact Event.balanced_flatMap fun ns _ => rfl
  | valueOf select =>
      have hselect := heval focus select (List.forall_mem_singleton.1 hexprs)
      exact h.bind hselect fun _ _ => h.report rfl
  | copyOf select =>
      have hselect := heval focus select (List.forall_mem_singleton.1 hexprs)
      refine h.bind hselect fun value _ => ?_
      cases value with
      | nodes nodes =>
          exact h.report (Event.balanced_flatMap fun node _ => node.balanced_events)
      | string | number | boolean => exact h.report rfl
  | applyTemplates select mode sorts passed =>
      rw [Instruction.exprs, List.forall_mem_append, List.forall_mem_append] at hexprs
      obtain ⟨hselect, hsorts, hvalues⟩ := hexprs
      have hpassed :=
        h.passedValuesBy limit heval within hwithin focus passed (by simp at hsize; omega) hvalues
      have htail (nodes : List Node) : R .any fun i => (do
          let nodes ← (job.limited (limit i)).sorted sorts nodes
          let values ← (job.limited (limit i)).passedValuesBy (within i) focus passed
          (job.limited (limit i)).applyAll (enter i) mode values nodes) :=
        h.bind (h.sorted limit heval sorts hsorts nodes) fun nodes _ =>
          h.bind hpassed fun values hvalues => h.applyAll limit henter mode hvalues nodes
      cases select with
      | some e =>
          have he : E e := List.forall_mem_singleton.1 hselect
          exact h.bind (h.selected limit heval focus _ he) fun nodes _ => htail nodes
      | none => exact h.bind (h.pure .any trivial) fun nodes _ => htail nodes
  | callTemplate name passed =>
      have hpassed :=
        h.passedValuesBy limit heval within hwithin focus passed (by simp at hsize; omega) hexprs
      unfold Job.performBy
      cases htemplate : job.stylesheet.rules.byName? name with
      | none =>
          simp only [limited, htemplate]
          exact h.fail (.noTemplate name)
      | some template =>
          simp only [limited, htemplate]
          exact h.bind hpassed fun values hvalues =>
            h.instantiate limit henter (Rules.mem_templates_of_byName? htemplate) focus true hvalues
  | forEach select sorts body =>
      rw [Instruction.exprs, List.forall_mem_cons, List.forall_mem_append] at hexprs
      obtain ⟨hselect, hsorts, hinside⟩ := hexprs
      have hbody (inner : Focus) := hwithin inner body (by simp at hsize; omega) hinside
      exact h.bind (h.selected limit heval focus _ hselect) fun nodes _ =>
        h.bind (h.sorted limit heval sorts hsorts nodes) fun nodes _ =>
          h.forM (fun inner => h.inScope (hbody inner)) _
  | ifThen test body =>
      obtain ⟨htest, hinside⟩ := List.forall_mem_cons.1 hexprs
      have hbody := hwithin focus body (by simp at hsize; omega) hinside
      refine h.bind (heval focus test htest) fun value _ => ?_
      cases value.toBool with
      | true => exact h.inScope hbody
      | false => exact h.pure _ trivial
  | choose whens otherwise =>
      have hwhens : sizeOf whens ≤ size := by simp at hsize; omega
      cases otherwise with
      | some body =>
          rw [Instruction.exprs, List.forall_mem_append] at hexprs
          have hbody := hwithin focus body (by simp at hsize; omega) hexprs.2
          exact h.performFirstBy limit heval within hwithin focus (h.inScope hbody) whens hwhens
            hexprs.1
      | none =>
          exact h.performFirstBy limit heval within hwithin focus (h.pure .any trivial) whens
            hwhens hexprs
  | «variable» name source =>
      have hsource :=
        h.sourceValueBy limit heval within hwithin focus source (by simp at hsize; omega) hexprs
      exact h.bind hsource fun value hvalue => h.bindName name hvalue
  | element name body =>
      rw [Instruction.exprs, List.forall_mem_append] at hexprs
      have hbody := hwithin focus body (by simp at hsize; omega) hexprs.2
      exact h.bind (h.expandName limit heval focus name hexprs.1) fun name _ =>
        h.inElement name (h.inScope hbody)
  | attr name body =>
      rw [Instruction.exprs, List.forall_mem_append] at hexprs
      have hbody := hwithin focus body (by simp at hsize; omega) hexprs.2
      exact h.bind (h.expandName limit heval focus name hexprs.1) fun name _ =>
        h.bind (h.checkAttributeName name) fun _ _ =>
          h.bind (h.text (h.inScope hbody)) fun _ _ => h.report rfl
  | copy body =>
      have hbody := hwithin focus body (by simp at hsize; omega) hexprs
      unfold Job.performBy
      cases focus.node.kind with
      | element => exact h.inElement _ (h.inScope hbody)
      | root => exact h.inScope hbody
      | text | attr | comment | instruction => exact h.report focus.node.balanced_events
  | comment body =>
      have hbody := hwithin focus body (by simp at hsize; omega) hexprs
      exact h.bind (h.text (h.inScope hbody)) fun _ _ => h.report rfl
  | message terminate body =>
      have hbody := hwithin focus body (by simp at hsize; omega) hexprs
      refine h.bind (h.text (h.inScope hbody)) fun content _ => ?_
      cases terminate with
      | true => exact h.fail (.terminated content)
      | false => exact h.pure _ trivial

theorem bodyBy (focus : Focus) (body : List Instruction) (hsize : sizeOf body ≤ size)
    (hexprs : ∀ e ∈ bodyExprs body, E e) :
    R .any fun i =>
      body.forM ((job.limited (limit i)).performBy (enter i) (within i) focus) := by
  induction body with
  | nil => exact h.pure _ trivial
  | cons instruction others ih =>
      simp only [List.cons.sizeOf_spec] at hsize
      rw [bodyExprs, List.forall_mem_append] at hexprs
      have hfirst :=
        h.performBy limit henter heval within hwithin focus instruction (by omega) hexprs.1
      exact h.bind hfirst fun _ _ => ih (by omega) hexprs.2

/-! ### Frames -/

omit henter in
theorem bindParamsBy (focus : Focus) {passed : Scope} (hpassed : passed.All Good)
    (params : List (String × ValueSource Instruction)) (hsize : sizeOf params ≤ size)
    (hexprs : ∀ e ∈ passedExprs params, E e) :
    R .any fun i =>
      (job.limited (limit i)).bindParamsBy (within i) focus passed params := by
  induction params with
  | nil => exact h.pure _ trivial
  | cons param params ih =>
      obtain ⟨name, source⟩ := param
      simp only [List.cons.sizeOf_spec, Prod.mk.sizeOf_spec] at hsize
      rw [passedExprs, List.forall_mem_append] at hexprs
      have htail (value : Value) (hvalue : Good value) : R .any fun i => (do
          Action.change (Environment.bind name value)
          (job.limited (limit i)).bindParamsBy (within i) focus passed params) :=
        h.bind (h.bindName name hvalue) fun _ _ => ih (by omega) hexprs.2
      unfold Job.bindParamsBy
      cases hvalue : passed.lookup name with
      | some value => exact h.bind (h.pure .value (hpassed.of_lookup hvalue)) htail
      | none =>
          have hsource :=
            h.sourceValueBy limit heval within hwithin focus source (by omega) hexprs.1
          exact h.bind hsource htail

omit henter in
theorem insideBy (template : Template) (focus : Focus) {passed : Scope}
    (hpassed : passed.All Good) (hparams : sizeOf template.params ≤ size)
    (hbody : sizeOf template.body < size) (hexprs : ∀ e ∈ template.exprs, E e) :
    R .any fun i => (job.limited (limit i)).insideBy (within i) focus template passed := by
  rw [Template.exprs, List.forall_mem_append] at hexprs
  have hbound := h.bindParamsBy limit heval within hwithin focus hpassed template.params hparams
    hexprs.1
  exact h.bind hbound fun _ _ => h.inScope (hwithin focus template.body hbody hexprs.2)

omit henter in
/-- Binding global names is not among the instructions, so what is said of it is a premise. -/
theorem bindGlobalsBy
    (hbind : ∀ name value, Good value →
      R .any fun _ => Action.change (Environment.bindGlobal name value))
    {params : Scope} (hparams : params.All Good) (globals : List Global)
    (hsize : sizeOf globals ≤ size)
    (hexprs : ∀ new ∈ globals, ∀ e ∈ sourceExprs new.value, E e) :
    R .any fun i => (job.limited (limit i)).bindGlobalsBy (within i) params globals := by
  induction globals with
  | nil => exact h.pure _ trivial
  | cons new others ih =>
      obtain ⟨name, source, isParam⟩ := new
      simp only [List.cons.sizeOf_spec, Global.mk.sizeOf_spec] at hsize
      obtain ⟨hnew, hothers⟩ := List.forall_mem_cons.1 hexprs
      have htail (value : Value) (hvalue : Good value) : R .any fun i => (do
          Action.change (Environment.bindGlobal name value)
          (job.limited (limit i)).bindGlobalsBy (within i) params others) :=
        h.bind (hbind name value hvalue) fun _ _ => ih (by omega) hothers
      unfold Job.bindGlobalsBy
      cases hvalue : if isParam then params.lookup name else none with
      | none =>
          have hsource :=
            h.sourceValueBy limit heval within hwithin job.rootFocus source (by omega) hnew
          exact h.bind hsource htail
      | some value =>
          have hgood : Good value := by
            split at hvalue
            · exact hparams.of_lookup hvalue
            · cases hvalue
          exact h.bind (h.pure .value hgood) htail

/-- The same goes for the frame of the whole run. -/
theorem mainBy (hopen : R .any fun _ => Action.change Environment.openFrame)
    (hclose : ∀ {x : ι → Action Unit}, R .any x →
      R .any fun i => (x i).between id Environment.closeFrame)
    (hbind : ∀ name value, Good value →
      R .any fun _ => Action.change (Environment.bindGlobal name value))
    {params : Scope} (hparams : params.All Good)
    (hsize : sizeOf job.stylesheet.globals ≤ size)
    (hexprs : ∀ new ∈ job.stylesheet.globals, ∀ e ∈ sourceExprs new.value, E e) :
    R .any fun i => (job.limited (limit i)).mainBy (enter i) (within i) params :=
  h.bind hopen fun _ _ =>
    h.bind (h.bindGlobalsBy limit heval within hwithin hbind hparams _ hsize hexprs) fun _ _ =>
      hclose (h.applyAll limit henter none hparams [job.document.root])

end Bodies

section Expressions

variable {E : Expr → Prop} (heval : ∀ focus e, E e → R .value fun _ => job.eval focus e)

include heval

/-- What is handed on reaches bodies, if it goes for the expressions in them. -/
theorem performAll (focus : Focus) (body : List Instruction) (hexprs : ∀ e ∈ bodyExprs body, E e) :
    R .any fun i => (job.limited (limit i)).performAll (enter i) focus body := by
  induction hsize : sizeOf body using Nat.strongRecOn generalizing focus body with
  | ind size ih =>
      simp only [performAll_eq]
      exact h.bodyBy limit henter heval (fun i => (job.limited (limit i)).performAll (enter i))
        (fun focus inner hinner hexprs => ih _ hinner focus inner hexprs rfl) focus body
        (Nat.le_of_eq hsize) hexprs

/-- It reaches what is done in the frame of a template. -/
theorem inside (template : Template) (focus : Focus) {passed : Scope} (hpassed : passed.All Good)
    (hexprs : ∀ e ∈ template.exprs, E e) : R .any fun i => (do
      (job.limited (limit i)).bindParams (enter i) focus passed template.params
      ((job.limited (limit i)).performAll (enter i) focus template.body).inScope) := by
  simp only [bindParams_eq]
  exact h.insideBy limit heval _
    (fun focus inner _ => h.performAll limit henter heval focus inner) template focus hpassed
    (Nat.le_add_right _ _) (Nat.lt_add_left _ (Nat.lt_succ_self _)) hexprs

omit h henter in
/-- A whole run is put together from its parts, where entries are carried out as the run does. -/
theorem main (h : job.Composable (fun i => (job.limited (limit i)).enter) Good R)
    (henter : ∀ entry : Entry, entry.Passes Good → entry.IsAmong job.stylesheet.rules →
      R .any fun i => (job.limited (limit i)).enter entry)
    (hopen : R .any fun _ => Action.change Environment.openFrame)
    (hclose : ∀ {x : ι → Action Unit}, R .any x →
      R .any fun i => (x i).between id Environment.closeFrame)
    (hbind : ∀ name value, Good value →
      R .any fun _ => Action.change (Environment.bindGlobal name value))
    {params : Scope} (hparams : params.All Good)
    (hexprs : ∀ new ∈ job.stylesheet.globals, ∀ e ∈ sourceExprs new.value, E e) :
    R .any fun i => (job.limited (limit i)).main params := by
  simp only [main_eq]
  exact h.mainBy limit henter heval _
    (fun focus body _ => h.performAll limit henter heval focus body) hopen hclose hbind hparams
    (Nat.le_refl _) hexprs

end Expressions

end Composable

namespace Compositional

variable {job} {ι : Type} {enter : ι → Entry → Action Unit} {Good : Value → Prop}
  {R : {α : Type} → Yield α → (ι → Action α) → Prop} (h : job.Compositional enter Good R)
  (limit : ι → Nat)

include h

/-- Where it goes for all expressions, it goes for those that occur. -/
theorem evalAny (focus : Focus) (e : Expr) (_ : True) : R .value fun _ => job.eval focus e :=
  h.eval focus e

variable (henter : ∀ entry, entry.Passes Good → R .any fun i => enter i entry)

include henter

section Bodies

variable (within : ι → Focus → List Instruction → Action Unit) {size : Nat}
  (hwithin : ∀ focus body, sizeOf body < size → R .any fun i => within i focus body)

include hwithin

omit henter in
theorem sourceValueBy (focus : Focus) (source : ValueSource Instruction)
    (hsize : sizeOf source ≤ size) :
    R .value fun i => (job.limited (limit i)).sourceValueBy (within i) focus source :=
  h.toComposable.sourceValueBy limit h.evalAny within
    (fun focus body hbody _ => hwithin focus body hbody) focus source hsize fun _ _ => trivial

theorem bodyBy (focus : Focus) (body : List Instruction) (hsize : sizeOf body ≤ size) :
    R .any fun i =>
      body.forM ((job.limited (limit i)).performBy (enter i) (within i) focus) :=
  h.toComposable.bodyBy limit (fun entry hpassed _ => henter entry hpassed) h.evalAny within
    (fun focus body hbody _ => hwithin focus body hbody) focus body hsize fun _ _ => trivial

omit henter in
theorem insideBy (template : Template) (focus : Focus) {passed : Scope}
    (hpassed : passed.All Good) (hparams : sizeOf template.params ≤ size)
    (hbody : sizeOf template.body < size) :
    R .any fun i => (job.limited (limit i)).insideBy (within i) focus template passed :=
  h.toComposable.insideBy limit h.evalAny within
    (fun focus body hbody _ => hwithin focus body hbody) template focus hpassed hparams hbody
    fun _ _ => trivial

theorem mainBy (hopen : R .any fun _ => Action.change Environment.openFrame)
    (hclose : ∀ {x : ι → Action Unit}, R .any x →
      R .any fun i => (x i).between id Environment.closeFrame)
    (hbind : ∀ name value, Good value →
      R .any fun _ => Action.change (Environment.bindGlobal name value))
    {params : Scope} (hparams : params.All Good)
    (hsize : sizeOf job.stylesheet.globals ≤ size) :
    R .any fun i => (job.limited (limit i)).mainBy (enter i) (within i) params :=
  h.toComposable.mainBy limit (fun entry hpassed _ => henter entry hpassed) h.evalAny within
    (fun focus body hbody _ => hwithin focus body hbody) hopen hclose hbind hparams hsize
    fun _ _ _ _ => trivial

end Bodies

theorem applyAll (mode : Option String) {passed : Scope} (hpassed : passed.All Good)
    (nodes : List Node) :
    R .any fun i => (job.limited (limit i)).applyAll (enter i) mode passed nodes :=
  h.toComposable.applyAll limit (fun entry hpassed _ => henter entry hpassed) mode hpassed nodes

theorem performAll (focus : Focus) (body : List Instruction) :
    R .any fun i => (job.limited (limit i)).performAll (enter i) focus body :=
  h.toComposable.performAll limit (fun entry hpassed _ => henter entry hpassed) h.evalAny focus body
    fun _ _ => trivial

theorem sourceValue (focus : Focus) (source : ValueSource Instruction) :
    R .value fun i => (job.limited (limit i)).sourceValue (enter i) focus source := by
  simp only [sourceValue_eq]
  exact h.sourceValueBy limit _ (fun focus inner _ => h.performAll limit henter focus inner) focus
    source (Nat.le_refl _)

theorem inside (template : Template) (focus : Focus) {passed : Scope}
    (hpassed : passed.All Good) : R .any fun i => (do
      (job.limited (limit i)).bindParams (enter i) focus passed template.params
      ((job.limited (limit i)).performAll (enter i) focus template.body).inScope) :=
  h.toComposable.inside limit (fun entry hpassed _ => henter entry hpassed) h.evalAny template focus
    hpassed fun _ _ => trivial

omit h henter in
theorem main (h : job.Compositional (fun i => (job.limited (limit i)).enter) Good R)
    (henter : ∀ entry : Entry, entry.Passes Good →
      R .any fun i => (job.limited (limit i)).enter entry)
    (hopen : R .any fun _ => Action.change Environment.openFrame)
    (hclose : ∀ {x : ι → Action Unit}, R .any x →
      R .any fun i => (x i).between id Environment.closeFrame)
    (hbind : ∀ name value, Good value →
      R .any fun _ => Action.change (Environment.bindGlobal name value))
    {params : Scope} (hparams : params.All Good) :
    R .any fun i => (job.limited (limit i)).main params :=
  h.toComposable.main limit h.evalAny (fun entry hpassed _ => henter entry hpassed) hopen hclose
    hbind hparams fun _ _ _ _ => trivial

end Compositional

/-! ### One run -/

/-- A property that the smallest actions of a run have, and that every way to put actions together
hands on.  A routine only has to be marked where it leaves the state as it found it and heeds the
check of what is passed. -/
structure Hereditary (P : {α : Type} → Action α → Prop) : Prop where
  pure {α : Type} (a : α) : P (pure a : Action α)
  bind {α β : Type} {x : Action α} {f : α → Action β} : P x → (∀ a, P (f a)) → P (x >>= f)
  fail {α : Type} {failure : Failure} : job.MayFail failure → P (Action.fail failure : Action α)
  eval (focus : Focus) (e : Expr) : P (job.eval focus e)
  ruleFor (mode : Option String) (focus : Focus) : P (job.ruleFor mode focus)
  report {events : List Event} : Event.Balanced events → P (Action.report events)
  inElement {x : Action Unit} (name : String) : P x → P (x.inElement name)
  bindName (name : String) (value : Value) : P (Action.change (Environment.bind name value))
  inScope {x : Action Unit} : P x → P x.inScope
  text {x : Action Unit} : P x → P x.text
  watch {x : Action Unit} (routine : Routine) :
    P x → x.Restores → job.Heeds routine x → P (x.watch routine)

namespace Hereditary

variable {job} {P : {α : Type} → Action α → Prop} (h : job.Hereditary P)
  {enter : Entry → Action Unit}

include h

/-- A property of actions is one of families with one member, whatever the values are. -/
theorem compositional (hrestores : ∀ entry, (enter entry).Restores) :
    job.Compositional (fun _ : Unit => enter) (fun _ => True) fun _ x => P (x ()) where
  pure _ _ _ := h.pure _
  bind hx hf := h.bind hx fun a => hf a (Yield.holds_true _ a)
  fail hfailure := h.fail hfailure.mayFail
  string _ := trivial
  eval focus e := h.eval focus e
  ruleFor mode focus := h.ruleFor mode focus
  report hevents := h.report hevents
  inElement name hx := h.inElement name hx
  bindName name value _ := h.bindName name value
  inScope hx := h.inScope hx
  text hx := h.text hx
  watch routine hx _ hrestored hheeds :=
    h.watch routine hx (hrestored (fun _ => hrestores) ()) (hheeds ())

variable (henter : ∀ entry, P (enter entry)) (hrestores : ∀ entry, (enter entry).Restores)

include henter hrestores

theorem applyAll (mode : Option String) (passed : Scope) (nodes : List Node) :
    P (job.applyAll enter mode passed nodes) :=
  (h.compositional hrestores).applyAll (fun _ => job.settings.maxDepth)
    (fun entry _ => henter entry) mode (fun _ _ => trivial) nodes

theorem performAll (focus : Focus) (body : List Instruction) :
    P (job.performAll enter focus body) :=
  (h.compositional hrestores).performAll (fun _ => job.settings.maxDepth)
    (fun entry _ => henter entry) focus body

theorem sourceValue (focus : Focus) (source : ValueSource Instruction) :
    P (job.sourceValue enter focus source) :=
  (h.compositional hrestores).sourceValue (fun _ => job.settings.maxDepth)
    (fun entry _ => henter entry) focus source

/-- The property passes to what is done in the frame of a template. -/
theorem inside (template : Template) (focus : Focus) (passed : Scope) : P (do
    job.bindParams enter focus passed template.params
    (job.performAll enter focus template.body).inScope) :=
  (h.compositional hrestores).inside (fun _ => job.settings.maxDepth)
    (fun entry _ => henter entry) template focus fun _ _ => trivial

end Hereditary

end Job

end Restyle
