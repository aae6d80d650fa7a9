import Mathlib
import Restyle.Parameters
import Restyle.Proofs.Expr.Ascending
import Restyle.Proofs.Run.Hereditary

/-!
# Restyle.Proofs.Run.Bindings

What names stand for during a run.

Names get their values from expressions, from the text of bodies and from outside, and they are
bound, passed on and looked up without a look at the values.  So whatever holds of all texts, and of
the value of an expression whenever it holds of what names stand for, holds of every value that is
ever bound or passed on, if it holds of those from outside.  That node-sets are in document order is
such a property.

* `Environment.All` — what names stand for is good;
* `Job.compositional_keepsGood`, `Job.enterAt_keepsGood`, `Job.main_keepsGood` — from the parts of a
  run to the whole;
* `Job.node_sets_ascend` — the main result.
-/

namespace Restyle

/-! ## Environments -/

/-- Whether all values that names stand for are good. -/
structure Environment.All (Good : Value → Prop) (env : Environment) : Prop where
  globals : env.globals.All Good
  frames : ∀ frame ∈ env.frames, ∀ scope ∈ frame, Scope.All Good scope

variable {Good : Value → Prop}

theorem Scope.all_nil : Scope.All Good [] := List.forall_mem_nil _

theorem Scope.All.cons {scope : Scope} (h : scope.All Good) (name : String) {value : Value}
    (hvalue : Good value) : Scope.All Good ((name, value) :: scope) :=
  List.forall_mem_cons.2 ⟨hvalue, h⟩

namespace Environment.All

variable {env : Environment} (h : env.All Good)

theorem empty : Environment.empty.All Good where
  globals := Scope.all_nil
  frames := List.forall_mem_nil _

include h

theorem openFrame : env.openFrame.All Good where
  globals := h.globals
  frames := List.forall_mem_cons.2 ⟨List.forall_mem_singleton.2 Scope.all_nil, h.frames⟩

theorem closeFrame : env.closeFrame.All Good where
  globals := h.globals
  frames frame hframe := h.frames frame (List.mem_of_mem_tail hframe)

theorem openScope : env.openScope.All Good := by
  unfold Environment.openScope
  split
  · exact h.openFrame
  · next frame outer hframes =>
    obtain ⟨hframe, houter⟩ := List.forall_mem_cons.1 (hframes ▸ h.frames)
    exact ⟨h.globals, List.forall_mem_cons.2
      ⟨List.forall_mem_cons.2 ⟨Scope.all_nil, hframe⟩, houter⟩⟩

theorem closeScope : env.closeScope.All Good := by
  unfold Environment.closeScope
  split
  · exact h
  · next frame outer hframes =>
    obtain ⟨hframe, houter⟩ := List.forall_mem_cons.1 (hframes ▸ h.frames)
    exact ⟨h.globals, List.forall_mem_cons.2
      ⟨fun scope hscope => hframe scope (List.mem_of_mem_tail hscope), houter⟩⟩

theorem bindGlobal (name : String) {value : Value} (hvalue : Good value) :
    (env.bindGlobal name value).All Good := ⟨h.globals.cons name hvalue, h.frames⟩

theorem bind (name : String) {value : Value} (hvalue : Good value) :
    (env.bind name value).All Good := by
  unfold Environment.bind
  split
  · next scope scopes outer hframes =>
    obtain ⟨hframe, houter⟩ := List.forall_mem_cons.1 (hframes ▸ h.frames)
    obtain ⟨hscope, hscopes⟩ := List.forall_mem_cons.1 hframe
    exact ⟨h.globals, List.forall_mem_cons.2
      ⟨List.forall_mem_cons.2 ⟨hscope.cons name hvalue, hscopes⟩, houter⟩⟩
  · exact h.bindGlobal name hvalue

/-- What is looked up is good. -/
theorem of_resolve {name : String} {value : Value} (hvalue : env.resolve name = some value) :
    Good value := by
  unfold Environment.resolve at hvalue
  split at hvalue
  · exact h.globals.of_lookup hvalue
  · next frame outer hframes =>
    rcases Option.or_eq_some_iff.1 hvalue with hlocal | ⟨-, hglobal⟩
    · obtain ⟨scope, hscope, hfound⟩ := List.exists_of_findSome?_eq_some hlocal
      exact (h.frames frame (hframes ▸ List.mem_cons_self) scope hscope).of_lookup hfound
    · exact h.globals.of_lookup hglobal

end Environment.All

/-- Whether what names stand for is good where an action is seen, and so is what is passed on. -/
def Sighting.All (Good : Value → Prop) : Sighting → Prop
  | .moment _ state => state.environment.All Good
  | .call routine before after =>
    routine.Passes Good ∧ before.environment.All Good ∧ after.environment.All Good

theorem Sighting.All.inLevel {seen : Sighting} (h : seen.All Good) : seen.inLevel.All Good := by
  cases seen <;> exact h

/-! ## Actions -/

/-- Where all that names stand for is good, it stays so on the way, and the value that an action
ends with is as it should be. -/
structure Action.KeepsGood (Good : Value → Prop) {α : Type} (y : Yield α) (x : Action α) :
    Prop where
  state (s : State) (h : s.environment.All Good) : (x.run s).state.environment.All Good
  seen (s : State) (h : s.environment.All Good) (sighting : Sighting) :
    (x.run s).seen sighting → sighting.All Good
  result (s : State) (h : s.environment.All Good) (a : α) :
    (x.run s).result = .ok a → y.Holds Good a

namespace Action

variable {α β : Type}

theorem keepsGood_pure {y : Yield α} {a : α} (h : y.Holds Good a) :
    KeepsGood Good y (pure a : Action α) where
  state _ hs := hs
  seen _ _ _ hseen := hseen.elim
  result _ _ _ hresult := Except.ok.inj hresult ▸ h

theorem keepsGood_fail (y : Yield α) (failure : Failure) :
    KeepsGood Good y (Action.fail failure : Action α) where
  state _ hs := hs
  seen _ _ _ hseen := hseen.elim
  result _ _ _ hresult := nomatch hresult

theorem keepsGood_report (events : List Event) :
    KeepsGood Good .any (Action.report events) where
  state _ hs := hs
  seen _ _ _ hseen := hseen.elim
  result _ _ _ _ := trivial

theorem keepsGood_change {f : Environment → Environment}
    (hf : ∀ env : Environment, env.All Good → (f env).All Good) :
    KeepsGood Good .any (Action.change f) where
  state s hs := hf s.environment hs
  seen s hs _ hseen := hseen ▸ hf s.environment hs
  result _ _ _ _ := trivial

/-- What is evaluated where all that names stand for is good. -/
theorem keepsGood_ask (job : Job) (y : Yield α) (focus : Focus)
    {f : Context → Except ExprError α}
    (hf : ∀ ctx : Context, (∀ name bound, ctx.bound name = some bound → Good bound) →
      ∀ a, f ctx = .ok a → y.Holds Good a) : (job.ask focus f).KeepsGood Good y where
  state _ hs := hs
  seen _ _ _ hseen := hseen.elim
  result _ hs a hresult :=
    hf _ (fun _ _ hbound => hs.of_resolve hbound) a (mapError_eq_ok.1 hresult)

theorem KeepsGood.bind {y : Yield α} {y' : Yield β} {x : Action α} {f : α → Action β}
    (hx : x.KeepsGood Good y) (hf : ∀ a, y.Holds Good a → (f a).KeepsGood Good y') :
    (x >>= f).KeepsGood Good y' where
  state s hs := by
    cases hfirst : (x.run s).result with
    | error failure =>
        rw [run_bind_of_error f hfirst]
        exact hx.state s hs
    | ok a =>
        rw [run_bind_of_ok f hfirst]
        exact (hf a (hx.result s hs a hfirst)).state _ (hx.state s hs)
  seen s hs sighting hseen := by
    cases hfirst : (x.run s).result with
    | error failure =>
        rw [run_bind_of_error f hfirst] at hseen
        exact hx.seen s hs sighting hseen
    | ok a =>
        rw [run_bind_of_ok f hfirst] at hseen
        rcases hseen with hseen | hseen
        · exact hx.seen s hs sighting hseen
        · exact (hf a (hx.result s hs a hfirst)).seen _ (hx.state s hs) sighting hseen
  result s hs b hresult := by
    obtain ⟨a, hfirst, hsecond, -⟩ := ok_of_bind hresult
    exact (hf a (hx.result s hs a hfirst)).result _ (hx.state s hs) b hsecond

theorem KeepsGood.between {y : Yield α} {x : Action α} (hx : x.KeepsGood Good y)
    {before after : Environment → Environment}
    (hbefore : ∀ env : Environment, env.All Good → (before env).All Good)
    (hafter : ∀ env : Environment, env.All Good → (after env).All Good) :
    (x.between before after).KeepsGood Good y where
  state s hs := hafter _ (hx.state _ (hbefore s.environment hs))
  seen s hs sighting hseen := by
    have hs' : (s.update before).environment.All Good := hbefore s.environment hs
    rcases hseen with rfl | hseen | rfl
    · exact hs'
    · exact hx.seen _ hs' sighting hseen
    · exact hafter _ (hx.state _ hs')
  result s hs := hx.result _ (hbefore s.environment hs)

theorem KeepsGood.watch {y : Yield α} {x : Action α} (hx : x.KeepsGood Good y)
    {routine : Routine} (hroutine : routine.Passes Good) :
    (x.watch routine).KeepsGood Good y where
  state := hx.state
  seen s hs sighting hseen := by
    rcases hseen with hseen | rfl
    · exact hx.seen s hs sighting hseen
    · exact ⟨hroutine, hs, hx.state s hs⟩
  result := hx.result

theorem KeepsGood.inLevel {y : Yield α} {x : Action α} (hx : x.KeepsGood Good y) (limit : Nat) :
    (x.inLevel limit).KeepsGood Good y where
  state s hs := by
    by_cases hdepth : limit ≤ s.depth
    · rw [run_inLevel_of_le x hdepth]
      exact hs
    · rw [run_inLevel_of_not_le x hdepth]
      exact hx.state s.enter hs
  seen s hs sighting hseen := by
    by_cases hdepth : limit ≤ s.depth
    · rw [run_inLevel_of_le x hdepth] at hseen
      exact hseen.elim
    · rw [run_inLevel_of_not_le x hdepth] at hseen
      rcases hseen with rfl | ⟨inner, hinner, rfl⟩ | rfl
      · exact hs
      · exact (hx.seen s.enter hs inner hinner).inLevel
      · exact hx.state s.enter hs
  result s hs a hresult := by
    by_cases hdepth : limit ≤ s.depth
    · rw [run_inLevel_of_le x hdepth] at hresult
      cases hresult
    · rw [run_inLevel_of_not_le x hdepth] at hresult
      exact hx.result s.enter hs a hresult

theorem KeepsGood.text {x : Action Unit} (hx : x.KeepsGood Good .any) :
    x.text.KeepsGood Good .any where
  state := hx.state
  seen := hx.seen
  result _ _ _ _ := trivial

end Action

namespace Job

/-! ## From the parts of a run to the whole -/

section Good

variable (job : Job) (hstring : ∀ text, Good (.string text))
  (heval : ∀ (ctx : Context) (e : Expr) (value : Value),
    (∀ name bound, ctx.bound name = some bound → Good bound) →
      e.eval ctx = .ok value → Good value)

include hstring heval

theorem compositional_keepsGood (enter : Entry → Action Unit) :
    job.Compositional (fun _ : Unit => enter) Good
      fun y x => (x ()).KeepsGood Good y where
  pure _ _ h := Action.keepsGood_pure h
  bind hx hf := hx.bind hf
  fail _ := Action.keepsGood_fail _ _
  string := hstring
  eval focus e := Action.keepsGood_ask job .value focus fun ctx hbound value hvalue =>
    heval ctx e value hbound hvalue
  ruleFor _ focus := Action.keepsGood_ask job .any focus fun _ _ _ _ => trivial
  report _ := Action.keepsGood_report _
  inElement _ hx :=
    (Action.keepsGood_report _).bind fun _ _ => hx.bind fun _ _ => Action.keepsGood_report _
  bindName name _ hvalue := Action.keepsGood_change fun _ henv => henv.bind name hvalue
  inScope hx := (hx.between (fun _ henv => henv.openScope) fun _ henv => henv.closeScope).watch
    trivial
  text hx := hx.text
  watch _ hx hroutine _ _ := hx.watch hroutine

theorem enterAt_keepsGood (left : Nat) (entry : Entry) (hentry : entry.Passes Good) :
    (job.enterAt left entry).KeepsGood Good .any := by
  induction left generalizing entry with
  | zero => exact Action.keepsGood_fail _ _
  | succ left ih =>
      have h := job.compositional_keepsGood hstring heval (job.enterAt left)
      cases entry with
      | template template focus passed =>
          have hinside := h.inside (fun _ => job.settings.maxDepth) ih template focus hentry
          exact (hinside.between (fun _ henv => henv.openFrame)
            fun _ henv => henv.closeFrame).inLevel _
      | children node mode =>
          exact (h.applyAll (fun _ => job.settings.maxDepth) ih mode Scope.all_nil
            node.children).inLevel _

theorem main_keepsGood {params : Scope} (hparams : params.All Good) :
    (job.main params).KeepsGood Good .any := by
  have h := job.compositional_keepsGood hstring heval job.enter
  have henter := job.enterAt_keepsGood hstring heval job.settings.maxDepth
  exact h.main (fun _ => job.settings.maxDepth) henter
    (Action.keepsGood_change fun _ henv => henv.openFrame)
    (fun hx => hx.between (fun _ henv => henv) fun _ henv => henv.closeFrame)
    (fun name _ hvalue => Action.keepsGood_change fun _ henv => henv.bindGlobal name hvalue)
    hparams

end Good

end Job

/-! ## Node-sets -/

/-- Values from outside are no node-sets. -/
theorem Parameters.ascending_scope (params : Parameters) : params.scope.All Value.Ascending := by
  intro binding hbinding
  obtain ⟨⟨name, scalar⟩, -, rfl⟩ := List.mem_map.1 hbinding
  cases scalar <;> trivial

/-- **Node-sets in document order.**  The numbers of nodes are those of document order.  Where the
node-sets that variables stand for come in this order, each node once, so does the value of every
expression, wherever it is evaluated.  So in every run that is given no other node-sets from
outside, as none can be given, all that names stand for at any time and all that is passed on is in
document order; and a node-set counts as the text and the number of its first node in this order. -/
theorem node_sets_ascend :
    (∀ document : Document,
      document.nodes.map Node.order = List.range document.nodes.length ∧
        ∀ node, node ∈ document.nodes ↔ document.Holds node) ∧
    (∀ (ctx : Context) (e : Expr) (value : Value),
      (∀ name bound, ctx.bound name = some bound → bound.Ascending) →
        e.eval ctx = .ok value → value.Ascending) ∧
    (∀ (job : Job) (params : Scope), params.All Value.Ascending →
      ((job.main params).run .initial).state.environment.All Value.Ascending ∧
        ∀ sighting, ((job.main params).run .initial).seen sighting →
          sighting.All Value.Ascending) ∧
    (∀ params : Parameters, params.scope.All Value.Ascending) ∧
    ∀ nodes : List Node, (Value.nodes nodes).Ascending → nodes ≠ [] →
      ∃ first ∈ nodes, (∀ node ∈ nodes, first.order ≤ node.order) ∧
        (Value.nodes nodes).toText = first.stringValue ∧
          (Value.nodes nodes).toNumber = readNumber first.stringValue := by
  have heval (ctx : Context) (e : Expr) (value : Value)
      (hbound : ∀ name bound, ctx.bound name = some bound → bound.Ascending)
      (hvalue : e.eval ctx = .ok value) : value.Ascending := e.ascending_eval hbound hvalue
  refine ⟨fun document => ⟨document.map_order_nodes, fun node => Document.mem_nodes⟩, heval,
    fun job params hparams => ?_, Parameters.ascending_scope, fun nodes h hnodes =>
      h.exists_first hnodes⟩
  have hmain := job.main_keepsGood (fun _ => trivial) heval hparams
  exact ⟨hmain.state _ Environment.All.empty, hmain.seen _ Environment.All.empty⟩

/-- A document with one element. -/
def oneElement : Document := ⟨[.element ⟨none, "a"⟩ [] []]⟩

/-- Circumstances in which every variable stands for the root of that document. -/
def rootBound : Context :=
  ⟨oneElement.root, oneElement, 1, 1, Function.names, fun _ => some (.nodes [oneElement.root])⟩

/-- A job with a parameter of the whole stylesheet. -/
def taking : Job := ⟨⟨⟨[], []⟩, [⟨"x", .empty, true⟩], .standard⟩, oneElement, .standard⟩

/-- The children of the root put together with the root, which is bound to a name; and a run that is
given the root from outside. -/
theorem node_sets_ascend_oneElement :
    (Value.nodes (oneElement.root :: oneElement.root.children)).Ascending ∧
      (∃ first ∈ oneElement.root :: oneElement.root.children,
        ∀ node ∈ oneElement.root :: oneElement.root.children, first.order ≤ node.order) ∧
      ((taking.main [("x", .nodes [oneElement.root])]).run .initial).state.environment.All
        Value.Ascending := by
  have hvalue : (Expr.binary .union (.path (.value (.variable "x")) [⟨.child, .any, []⟩])
      (.variable "x")).eval rootBound =
        .ok (.nodes (oneElement.root :: oneElement.root.children)) := by cbv
  have hbound : ∀ name bound, rootBound.bound name = some bound → bound.Ascending := by
    intro name bound h
    obtain rfl := Option.some.inj h
    exact Node.ascending_singleton _
  have hparams : Scope.All Value.Ascending [("x", .nodes [oneElement.root])] :=
    List.forall_mem_singleton.2 (Node.ascending_singleton _)
  have hascending := node_sets_ascend.2.1 rootBound _ _ hbound hvalue
  have hrun := (node_sets_ascend.2.2.1 taking _ hparams).1
  obtain ⟨first, hfirst, hle, -⟩ := node_sets_ascend.2.2.2.2 _ hascending (List.cons_ne_nil _ _)
  exact ⟨hascending, ⟨first, hfirst, hle⟩, hrun⟩

end Restyle
