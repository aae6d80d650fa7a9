import Restyle.Proofs.Run.Hereditary
import Restyle.Proofs.Rules

/-!
# Restyle.Proofs.Run.Shown

What an action shows: how it ends, and the events that it reports.

Each way to carry something out shows the same as what it comes down to, and what is shown by
actions in turn is put together from what each of them shows.

* `Outcome.shown` — what an outcome shows;
* `Job.shown_applyTo`, `Job.shown_builtIn`, `Job.shown_template` — what comes of a rule, of no rule
  and of a template;
* `Job.shown_forEach`, `Job.shown_applyTemplates` — what comes of a selection;
* `Job.shown_main`, `Job.shown_main_rootTemplate`, `Job.events_eq_kept` — what comes of a whole run.
-/

namespace Restyle

/-- How an action ended, and the events that it reported. -/
def Outcome.shown {α : Type} (outcome : Outcome α) : Except Failure α × List Event :=
  (outcome.result, outcome.report.toList)

namespace Action

variable {α β : Type}

theorem shown_bind_of_ok {x : Action α} (f : α → Action β) {s : State} {a : α}
    (h : (x.run s).result = .ok a) :
    ((x >>= f).run s).shown =
      (((f a).run (x.run s).state).result,
        (x.run s).report.toList ++ ((f a).run (x.run s).state).report.toList) := by
  rw [run_bind_of_ok f h]
  exact congrArg _ (Report.toList_append _ _)

theorem shown_bind_of_error {x : Action α} (f : α → Action β) {s : State} {failure : Failure}
    (h : (x.run s).result = .error failure) :
    ((x >>= f).run s).shown = (.error failure, (x.run s).report.toList) := by
  rw [run_bind_of_error f h]
  rfl

/-- What comes second matters by what it shows. -/
theorem shown_bind_congr (x : Action α) {f g : α → Action β}
    (h : ∀ a s, ((f a).run s).shown = ((g a).run s).shown) (s : State) :
    ((x >>= f).run s).shown = ((x >>= g).run s).shown := by
  cases hx : (x.run s).result with
  | error failure => rw [shown_bind_of_error f hx, shown_bind_of_error g hx]
  | ok a =>
      obtain ⟨hresult, hreport⟩ := Prod.mk.inj (h a (x.run s).state)
      rw [shown_bind_of_ok f hx, shown_bind_of_ok g hx, hresult, hreport]

/-- Of what ends well without an event and leaves the state as it found it, nothing is shown. -/
theorem shown_bind_of_silent {x : Action α} (f : α → Action β) {s : State} {a : α}
    (hshown : (x.run s).shown = (.ok a, [])) (hrestores : x.Restores) :
    ((x >>= f).run s).shown = ((f a).run s).shown := by
  obtain ⟨hresult, hreport⟩ := Prod.mk.inj hshown
  rw [shown_bind_of_ok f hresult, hreport, hrestores s]
  rfl

theorem shown_report (events : List Event) (s : State) :
    ((Action.report events).run s).shown = (.ok (), events) :=
  Prod.ext rfl (Report.toList_part events)

/-- To do nothing more makes no difference. -/
theorem shown_bind_pure (x : Action Unit) (s : State) :
    ((x >>= fun _ => pure ()).run s).shown = (x.run s).shown := by
  cases h : (x.run s).result with
  | error failure =>
      rw [shown_bind_of_error _ h]
      exact Prod.ext h.symm rfl
  | ok a =>
      rw [shown_bind_of_ok _ h]
      exact Prod.ext h.symm (List.append_nil _)

/-- What is shown by actions that succeed one after another. -/
theorem shown_forM {f : α → Action Unit} {g : α → List Event} {s : State} {as : List α}
    (hrestores : ∀ a, (f a).Restores) (h : ∀ a ∈ as, ((f a).run s).shown = (.ok (), g a)) :
    ((as.forM f).run s).shown = (.ok (), as.flatMap g) := by
  induction as with
  | nil => rfl
  | cons a as ih =>
      obtain ⟨hresult, hreport⟩ := Prod.mk.inj (h a List.mem_cons_self)
      have hothers := ih fun b hb => h b (List.mem_cons_of_mem _ hb)
      obtain ⟨hresult', hreport'⟩ := Prod.mk.inj hothers
      change ((f a >>= fun _ => as.forM f).run s).shown = _
      rw [shown_bind_of_ok _ hresult, hrestores a s, hresult', hreport, hreport', List.flatMap_cons]

/-- Where each action ends well or with one failure, and some of them with that failure, it is what
all of them in turn end with. -/
theorem result_forM_of_exists {f : α → Action Unit} {failure : Failure} {s : State} {as : List α}
    (hrestores : ∀ a, (f a).Restores)
    (heach : ∀ a ∈ as, ((f a).run s).result = .ok () ∨ ((f a).run s).result = .error failure)
    (hsome : ∃ a ∈ as, ((f a).run s).result = .error failure) :
    ((as.forM f).run s).result = .error failure := by
  induction as with
  | nil =>
    obtain ⟨a, ha, -⟩ := hsome
    cases ha
  | cons a as ih =>
    change ((f a >>= fun _ => as.forM f).run s).result = .error failure
    obtain hok | herror := heach a List.mem_cons_self
    · have hlater : ∃ b ∈ as, ((f b).run s).result = .error failure := by
        obtain ⟨b, hb, hfails⟩ := hsome
        obtain rfl | hb := List.mem_cons.1 hb
        · cases hok.symm.trans hfails
        · exact ⟨b, hb, hfails⟩
      rw [run_bind_of_ok _ hok, hrestores a s]
      exact ih (fun b hb => heach b (List.mem_cons_of_mem _ hb)) hlater
    · rw [run_bind_of_error _ herror]

theorem shown_inElement {x : Action Unit} {s : State} {events : List Event}
    (h : (x.run s).shown = (.ok (), events)) (name : String) :
    ((x.inElement name).run s).shown = (.ok (), .start name :: (events ++ [.stop])) := by
  obtain ⟨hresult, hreport⟩ := Prod.mk.inj h
  have hinside : ((x >>= fun _ => Action.report [.stop]).run s).shown =
      (.ok (), events ++ [.stop]) := by
    rw [shown_bind_of_ok _ hresult, hreport]
    rfl
  obtain ⟨hresult, hreport⟩ := Prod.mk.inj hinside
  refine (shown_bind_of_ok (x := Action.report [.start name])
    (fun _ => x >>= fun _ => Action.report [.stop]) rfl).trans ?_
  exact Prod.ext hresult (congrArg (Event.start name :: ·) hreport)

theorem shown_inScope (x : Action Unit) (s : State) :
    (x.inScope.run s).shown = (x.run (s.update Environment.openScope)).shown := rfl

theorem shown_inLevel (x : Action α) {limit : Nat} {s : State} (h : ¬limit ≤ s.depth) :
    ((x.inLevel limit).run s).shown = (x.run s.enter).shown := by
  rw [run_inLevel_of_not_le x h]
  rfl

end Action

theorem Focus.map_node_among (nodes : List Node) : (Focus.among nodes).map Focus.node = nodes := by
  refine List.ext_getElem (by simp [Focus.among]) fun i hi hi' => ?_
  simp [Focus.among]

theorem Focus.node_mem {nodes : List Node} {focus : Focus} (h : focus ∈ among nodes) :
    focus.node ∈ nodes := by
  have hmap := List.mem_map_of_mem (f := Focus.node) h
  rwa [map_node_among] at hmap

theorem Focus.exists_mem_among {nodes : List Node} {node : Node} (h : node ∈ nodes) :
    ∃ focus ∈ among nodes, focus.node = node := by
  rw [← map_node_among nodes] at h
  exact List.mem_map.1 h

namespace Job

variable {job : Job} {enter : Entry → Action Unit} {mode : Option String} {focus : Focus}
  {s : State}

/-- Where a rule is found for a node, its template is carried out. -/
theorem shown_applyTo {rule : Rule} (passed : Scope)
    (hrule : job.stylesheet.rules.find? (job.context focus s.environment) mode focus.node =
      .ok (some rule)) :
    ((job.applyTo enter mode passed focus).run s).shown =
      ((enter (.template rule.template focus passed)).run s).shown := by
  have hfound : ((job.ruleFor mode focus).run s).shown = (.ok (some rule), []) :=
    congrArg (fun found => (found.mapError Failure.ofExprError, [])) hrule
  refine (Action.shown_bind_of_silent _ hfound (Action.restores_compute _)).trans ?_
  exact Action.shown_bind_of_silent (fun _ : Unit => enter (.template rule.template focus passed))
    (x := pure ()) rfl (Action.restores_pure _)

/-- Where no rule is found for a node, the built-in rule is followed. -/
theorem shown_builtIn (passed : Scope)
    (hnone : job.stylesheet.rules.find? (job.context focus s.environment) mode focus.node =
      .ok none) :
    ((job.applyTo enter mode passed focus).run s).shown =
      ((builtIn enter mode focus.node).run s).shown := by
  have hfound : ((job.ruleFor mode focus).run s).shown = (.ok none, []) :=
    congrArg (fun found => (found.mapError Failure.ofExprError, [])) hnone
  exact Action.shown_bind_of_silent _ hfound (Action.restores_compute _)

/-- A template without parameters comes down to its body, in a frame and on a level of its own. -/
theorem shown_template {template : Template} (hparams : template.params = []) (left : Nat)
    (focus : Focus) (passed : Scope) (h : ¬job.settings.maxDepth ≤ s.depth) :
    ((job.enterAt (left + 1) (.template template focus passed)).run s).shown =
      ((job.performAll (job.enterAt left) focus template.body).run
        ((s.enter.update Environment.openFrame).update Environment.openScope)).shown := by
  let body : Action Unit := (job.performAll (job.enterAt left) focus template.body).inScope
  refine (Action.shown_inLevel _ h).trans ?_
  rw [carryOut, hparams]
  exact Action.shown_bind_of_silent (fun _ : Unit => body) (x := pure ()) rfl
    (Action.restores_pure _)

/-- The built-in rule for the children of a node comes down to these, on a level of their own. -/
theorem shown_children (left : Nat) (node : Node) (mode : Option String)
    (h : ¬job.settings.maxDepth ≤ s.depth) :
    ((job.enterAt (left + 1) (.children node mode)).run s).shown =
      (((Focus.among node.children).forM (job.applyTo (job.enterAt left) mode [])).run
        s.enter).shown :=
  Action.shown_inLevel _ h

/-- Nodes handled one after another show what each of them shows. -/
theorem shown_handled (henter : ∀ entry, (enter entry).Restores) {nodes : List Node}
    {g : Node → List Event} (h : ∀ focus : Focus, focus.node ∈ nodes →
      ((job.applyTo enter mode [] focus).run s).shown = (.ok (), g focus.node)) :
    (((Focus.among nodes).forM (job.applyTo enter mode [])).run s).shown =
      (.ok (), nodes.flatMap g) := by
  have hshown := Action.shown_forM (g := fun focus => g focus.node)
    (restores_applyTo henter mode []) fun focus hfocus => h focus (Focus.node_mem hfocus)
  rw [hshown, ← List.flatMap_map, Focus.map_node_among]

theorem shown_performAll_singleton (enter : Entry → Action Unit) (focus : Focus)
    (instruction : Instruction) (s : State) :
    ((job.performAll enter focus [instruction]).run s).shown =
      ((job.perform enter focus instruction).run s).shown := by
  rw [performAll, performAll]
  exact Action.shown_bind_pure _ s

/-- Of what a run shows, the events are kept if it ends well. -/
theorem events_eq_kept {params : Scope} {events : List Event}
    (h : ((job.main params).run .initial).shown = (.ok (), events)) :
    job.events params = .ok (Event.kept events) := by
  obtain ⟨hresult, hreport⟩ := Prod.mk.inj h
  simp only [Job.events, hresult, hreport, Except.map]

theorem events_eq_error {params : Scope} {failure : Failure}
    (h : ((job.main params).run .initial).result = .error failure) :
    job.events params = .error failure := by
  simp only [Job.events, h, Except.map]

/-- Where nothing is bound for the whole stylesheet, a run comes down to the root. -/
theorem shown_main (hglobals : job.stylesheet.globals = []) (params : Scope) :
    ((job.main params).run .initial).shown =
      ((job.applyTo job.enter none params job.rootFocus).run
        (State.initial.update Environment.openFrame)).shown := by
  let nodes : Action Unit :=
    Action.between id Environment.closeFrame
      (job.applyAll job.enter none params [job.document.root])
  unfold main
  rw [hglobals]
  refine (Action.shown_bind_of_ok (x := Action.change Environment.openFrame)
    (fun _ => pure () >>= fun _ => nodes) rfl).trans ?_
  refine (Action.shown_bind_of_silent (x := pure ()) (fun _ : Unit => nodes) rfl
    (Action.restores_pure _)).trans ?_
  exact Action.shown_bind_pure (job.applyTo job.enter none params job.rootFocus) _

/-- Where the only template is for the root and has no parameters, a run comes down to the body of
this template. -/
theorem shown_main_rootTemplate {template : Template} (hlimit : 0 < job.settings.maxDepth)
    (honly : job.stylesheet.rules.OnlyTemplate none template)
    (hpattern : template.pattern = some ⟨"/", [⟨true, []⟩]⟩) (hparams : template.params = [])
    (hglobals : job.stylesheet.globals = []) (params : Scope) :
    ∃ left s, ((job.main params).run .initial).shown =
      ((job.performAll (job.enterAt left) job.rootFocus template.body).run s).shown := by
  obtain ⟨left, hleft⟩ := Nat.exists_eq_add_one_of_ne_zero (Nat.ne_of_gt hlimit)
  let opened := State.initial.update Environment.openFrame
  let ctx := job.context job.rootFocus opened.environment
  have haccepts : ∀ path ∈ template.paths, path.accepts ctx job.document.root = .ok true := by
    intro path hpath
    rw [Template.paths, hpattern] at hpath
    obtain rfl := List.mem_singleton.1 hpath
    rfl
  have hpath : ⟨true, []⟩ ∈ template.paths := by
    rw [Template.paths, hpattern]
    exact List.mem_singleton_self _
  obtain ⟨rule, hrule, hfound⟩ := honly.find?_of_accepts
    (fun path hpath => ⟨true, haccepts path hpath⟩) ⟨_, hpath, haccepts _ hpath⟩
  have hlevel : ¬job.settings.maxDepth ≤ opened.depth := Nat.not_le_of_gt hlimit
  have hentered : ((job.main params).run .initial).shown =
      ((job.enterAt (left + 1) (.template template job.rootFocus params)).run opened).shown := by
    rw [shown_main hglobals, shown_applyTo params hfound, hrule, enter, hleft]
  exact ⟨left, _, hentered.trans (shown_template hparams left _ params hlevel)⟩

variable (job)

/-! ## Selections -/

theorem restores_selected (focus : Focus) (instruction : String) (e : Expr) :
    (job.selected focus instruction e).Restores := by
  refine (Action.restores_compute _).bind fun value => ?_
  cases value with
  | nodes nodes => exact Action.restores_pure _
  | _ => exact Action.restores_fail _

theorem restores_sortValues (focus : Focus) (keys : List SortKey) :
    (job.sortValues focus keys).Restores := by
  induction keys with
  | nil => exact Action.restores_pure _
  | cons key keys ih =>
      exact (Action.restores_compute _).bind fun _ => ih.bind fun _ => Action.restores_pure _

theorem restores_withSortValues (keys : List SortKey) (foci : List Focus) :
    (job.withSortValues keys foci).Restores := by
  induction foci with
  | nil => exact Action.restores_pure _
  | cons focus others ih =>
      exact (job.restores_sortValues focus keys).bind fun _ =>
        ih.bind fun _ => Action.restores_pure _

theorem restores_sorted (keys : List SortKey) (nodes : List Node) :
    (job.sorted keys nodes).Restores := by
  unfold sorted
  split
  · exact Action.restores_pure _
  · exact (job.restores_withSortValues keys _).bind fun _ => Action.restores_pure _

theorem shown_selected {focus : Focus} {e : Expr} {s : State} {nodes : List Node}
    (h : ((job.eval focus e).run s).result = .ok (.nodes nodes)) (instruction : String) :
    ((job.selected focus instruction e).run s).shown = (.ok nodes, []) := by
  have heval : ((job.eval focus e).run s).shown = (.ok (.nodes nodes), []) := Prod.ext h rfl
  exact Action.shown_bind_of_silent _ heval (Action.restores_compute _)

/-- To go through the nodes of a selection is to sort them and then to go through them in order. -/
theorem shown_forEach {focus : Focus} {select : Expr} {s : State} {nodes : List Node}
    (h : ((job.eval focus select).run s).result = .ok (.nodes nodes))
    (enter : Entry → Action Unit) (sorts : List SortKey) (body : List Instruction) :
    ((job.perform enter focus (.forEach select sorts body)).run s).shown =
      ((job.sorted sorts nodes >>= fun nodes => (Focus.among nodes).forM fun inner =>
        (job.performAll enter inner body).inScope).run s).shown := by
  rw [perform]
  exact Action.shown_bind_of_silent _ (job.shown_selected h _) (job.restores_selected _ _ _)

/-- To apply templates to a selection is to sort its nodes and then to handle them in order. -/
theorem shown_applyTemplates {focus : Focus} {select : Expr} {s : State} {nodes : List Node}
    (h : ((job.eval focus select).run s).result = .ok (.nodes nodes))
    (enter : Entry → Action Unit) (mode : Option String) (sorts : List SortKey) :
    ((job.perform enter focus (.applyTemplates (some select) mode sorts [])).run s).shown =
      ((job.sorted sorts nodes >>= fun nodes =>
        (Focus.among nodes).forM (job.applyTo enter mode [])).run s).shown := by
  let handle (nodes : List Node) : Action Unit := do
    let values ← job.passedValues enter focus []
    job.applyAll enter mode values nodes
  have hhandle (nodes : List Node) (s : State) : ((handle nodes).run s).shown =
      (((Focus.among nodes).forM (job.applyTo enter mode [])).run s).shown := by
    unfold handle
    rw [passedValues]
    exact Action.shown_bind_of_silent (x := pure []) _ rfl (Action.restores_pure _)
  rw [perform]
  refine (Action.shown_bind_of_silent _ (job.shown_selected h _)
    (job.restores_selected _ _ _)).trans ?_
  exact Action.shown_bind_congr _ hhandle s

end Job

end Restyle
