import Mathlib
import Restyle.Proofs.Run.Limits
import Restyle.Proofs.Run.Restoration
import Restyle.Proofs.Expr.Variables

/-!
# Restyle.Proofs.Run.Frames

Runs that are told apart by what no one asks for.

What a body does depends on the names that it asks for, not on what else is bound around it, and on
the levels that are left only where there are too few of them.  So a body that is carried out with
other bindings around it, or nearer to the limit, goes too deep or does the same.

* `State.Beside` — states of two runs that are told apart by no name that is asked for;
* `Action.Follows` — from such states, an action of the one run does what an action of the other
  does, unless that one goes too deep;
* `Job.composable_follows`, `Job.enterAt_follows` — it passes from the parts of a run to the whole,
  and from level to level;
* `Job.performAll_follows` — the main result.
-/

namespace Restyle

/-! ## States side by side -/

/-- Scopes bind none of the names. -/
def Hide (names : String → Prop) (scopes : List Scope) : Prop :=
  ∀ name, names name → scopes.findSome? (List.lookup name) = none

/-- Two states with the same global bindings, of which the second may be deeper.  In their innermost
frames the same scopes lie on top, so and so many, and those below them bind none of the names. -/
structure State.Beside (names : String → Prop) (count : Nat) (s t : State) : Prop where
  globals : s.environment.globals = t.environment.globals
  depth : s.depth ≤ t.depth
  frames : ∃ upper below below' outer outer', upper.length = count ∧
    s.environment.frames = (upper ++ below) :: outer ∧ Hide names below ∧
    t.environment.frames = (upper ++ below') :: outer' ∧ Hide names below'

namespace State.Beside

variable {names : String → Prop} {count : Nat} {s t : State}

/-- A name that may be asked for stands for the same. -/
theorem resolve_eq (h : s.Beside names count t) {name : String} (hname : names name) :
    s.environment.resolve name = t.environment.resolve name := by
  obtain ⟨upper, below, below', outer, outer', -, hs, hbelow, ht, hbelow'⟩ := h.frames
  unfold Environment.resolve
  rw [hs, ht]
  dsimp only
  rw [List.findSome?_append, List.findSome?_append, hbelow name hname, hbelow' name hname,
    h.globals]

theorem enter (h : s.Beside names count t) : s.enter.Beside names count t.enter :=
  ⟨h.globals, Nat.succ_le_succ h.depth, h.frames⟩

theorem bindName (h : s.Beside names (count + 1) t) (name : String) (value : Value) :
    (s.update (Environment.bind name value)).Beside names (count + 1)
      (t.update (Environment.bind name value)) := by
  obtain ⟨upper, below, below', outer, outer', hcount, hs, hbelow, ht, hbelow'⟩ := h.frames
  obtain ⟨scope, scopes, rfl⟩ := List.exists_cons_of_length_eq_add_one hcount
  rw [State.update_bind hs, State.update_bind ht]
  exact ⟨h.globals, h.depth, ((name, value) :: scope) :: scopes, below, below', outer, outer',
    hcount, rfl, hbelow, rfl, hbelow'⟩

theorem openScope (h : s.Beside names count t) :
    (s.update Environment.openScope).Beside names (count + 1)
      (t.update Environment.openScope) := by
  obtain ⟨upper, below, below', outer, outer', hcount, hs, hbelow, ht, hbelow'⟩ := h.frames
  rw [State.update_openScope hs, State.update_openScope ht]
  exact ⟨h.globals, h.depth, [] :: upper, below, below', outer, outer',
    congrArg (· + 1) hcount, rfl, hbelow, rfl, hbelow'⟩

theorem closeScope (h : s.Beside names (count + 1) t) :
    (s.update Environment.closeScope).Beside names count (t.update Environment.closeScope) := by
  obtain ⟨upper, below, below', outer, outer', hcount, hs, hbelow, ht, hbelow'⟩ := h.frames
  obtain ⟨scope, scopes, rfl⟩ := List.exists_cons_of_length_eq_add_one hcount
  refine ⟨?_, h.depth, scopes, below, below', outer, outer', Nat.succ.inj hcount, ?_, hbelow, ?_,
    hbelow'⟩
  · simp only [State.update, Environment.closeScope, hs, ht, h.globals]
  · simp only [State.update, Environment.closeScope, hs]
    rfl
  · simp only [State.update, Environment.closeScope, ht]
    rfl

/-- In a frame of its own no name is bound, so every name may be asked for. -/
theorem openFrame (h : s.Beside names count t) :
    (s.update Environment.openFrame).Beside (fun _ => True) 1 (t.update Environment.openFrame) :=
  ⟨h.globals, h.depth, [[]], [], [], s.environment.frames, t.environment.frames, rfl, rfl,
    fun _ _ => rfl, rfl, fun _ _ => rfl⟩

end State.Beside

/-! ## Actions side by side -/

namespace Action

variable {α β : Type}

/-- An action that starts in one state does what another one does in a state beside it, and leaves
the states side by side. -/
structure Matches (names : String → Prop) (count : Nat) (x : Action α) (t : State) (y : Action α)
    (s : State) : Prop where
  result : (y.run s).result = (x.run t).result
  report : (y.run s).report.toList = (x.run t).report.toList
  state : (y.run s).state.Beside names count (x.run t).state

/-- From states side by side, an action goes too deep, or another one does the same. -/
def Follows (names : String → Prop) (x y : Action α) : Prop :=
  ∀ count s t, s.Beside names (count + 1) t →
    WentTooDeep (x.run t).result ∨ Matches names (count + 1) x t y s

variable {names : String → Prop}

/-- An action that restores the state follows itself if its result and its report do not depend on
what is told apart. -/
theorem follows_of_same {x : Action α} (hrestores : x.Restores)
    (h : ∀ count s t, State.Beside names (count + 1) s t →
      (x.run s).result = (x.run t).result ∧ (x.run s).report.toList = (x.run t).report.toList) :
    x.Follows names x := by
  intro count s t hbeside
  obtain ⟨hresult, hreport⟩ := h count s t hbeside
  refine .inr ⟨hresult, hreport, ?_⟩
  rw [hrestores s, hrestores t]
  exact hbeside

theorem Follows.bind {x y : Action α} {f g : α → Action β} (h : x.Follows names y)
    (hfg : ∀ a, (f a).Follows names (g a)) : (x >>= f).Follows names (y >>= g) := by
  intro count s t hbeside
  obtain ⟨limit, hdeep⟩ | ⟨hresult, hreport, hstate⟩ := h count s t hbeside
  · left
    rw [run_bind_of_error f hdeep]
    exact ⟨limit, rfl⟩
  · cases hx : (x.run t).result with
    | error failure =>
        right
        rw [hx] at hresult
        constructor
        · rw [run_bind_of_error f hx, run_bind_of_error g hresult]
        · rw [run_bind_of_error f hx, run_bind_of_error g hresult]
          exact hreport
        · rw [run_bind_of_error f hx, run_bind_of_error g hresult]
          exact hstate
    | ok a =>
        rw [hx] at hresult
        obtain hdeep | ⟨hresult', hreport', hstate'⟩ := hfg a count _ _ hstate
        · left
          rw [run_bind_of_ok f hx]
          exact hdeep
        · right
          constructor
          · rw [run_bind_of_ok f hx, run_bind_of_ok g hresult]
            exact hresult'
          · rw [run_bind_of_ok f hx, run_bind_of_ok g hresult]
            dsimp only
            rw [Report.toList_append, Report.toList_append, hreport, hreport']
          · rw [run_bind_of_ok f hx, run_bind_of_ok g hresult]
            exact hstate'

theorem Follows.watch {x y : Action α} (h : x.Follows names y) (routine routine' : Routine) :
    (x.watch routine).Follows names (y.watch routine') := by
  intro count s t hbeside
  obtain hdeep | ⟨hresult, hreport, hstate⟩ := h count s t hbeside
  · exact .inl hdeep
  · exact .inr ⟨hresult, hreport, hstate⟩

theorem Follows.inScope {x y : Action Unit} (h : x.Follows names y) :
    x.inScope.Follows names y.inScope := by
  intro count s t hbeside
  obtain hdeep | ⟨hresult, hreport, hstate⟩ := h _ _ _ hbeside.openScope
  · exact .inl hdeep
  · exact .inr ⟨hresult, hreport, hstate.closeScope⟩

theorem Follows.text {x y : Action Unit} (h : x.Follows names y) :
    x.text.Follows names y.text := by
  intro count s t hbeside
  obtain ⟨limit, hdeep⟩ | ⟨hresult, hreport, hstate⟩ := h count s t hbeside
  · left
    refine ⟨limit, ?_⟩
    change (x.run t).result.map _ = _
    rw [hdeep]
    rfl
  · right
    refine ⟨?_, rfl, hstate⟩
    change (y.run s).result.map (fun _ => Event.textOf (y.run s).report.toList) =
      (x.run t).result.map fun _ => Event.textOf (x.run t).report.toList
    rw [hresult, hreport]

theorem follows_report (events : List Event) :
    (Action.report events).Follows names (Action.report events) :=
  follows_of_same (restores_report events) fun _ _ _ _ => ⟨rfl, rfl⟩

theorem Follows.inElement {x y : Action Unit} (h : x.Follows names y) (name : String) :
    (x.inElement name).Follows names (y.inElement name) :=
  (follows_report _).bind fun _ => h.bind fun _ => follows_report _

/-- A level that is opened from the deeper state may be opened from the other one. -/
theorem Follows.inLevel {x y : Action α} (hx : x.Restores) (hy : y.Restores) (limit : Nat)
    (h : x.Follows names y) : (x.inLevel limit).Follows names (y.inLevel limit) := by
  intro count s t hbeside
  by_cases ht : limit ≤ t.depth
  · left
    rw [run_inLevel_of_le x ht]
    exact ⟨limit, rfl⟩
  · have hs : ¬limit ≤ s.depth := fun hle => ht (Nat.le_trans hle hbeside.depth)
    obtain hdeep | ⟨hresult, hreport, -⟩ := h _ _ _ hbeside.enter
    · left
      rw [run_inLevel_of_not_le x ht]
      exact hdeep
    · right
      refine ⟨?_, ?_, ?_⟩
      · rw [run_inLevel_of_not_le x ht, run_inLevel_of_not_le y hs]
        exact hresult
      · rw [run_inLevel_of_not_le x ht, run_inLevel_of_not_le y hs]
        exact hreport
      · rw [hx.inLevel limit t, hy.inLevel limit s]
        exact hbeside

/-- In a frame of its own an action may ask for every name. -/
theorem Follows.inFrame {x y : Action α} (hx : x.inFrame.Restores) (hy : y.inFrame.Restores)
    (h : x.Follows (fun _ => True) y) : x.inFrame.Follows names y.inFrame := by
  intro count s t hbeside
  obtain hdeep | ⟨hresult, hreport, -⟩ := h 0 _ _ hbeside.openFrame
  · exact .inl hdeep
  · refine .inr ⟨hresult, hreport, ?_⟩
    rw [hx t, hy s]
    exact hbeside

end Action

namespace Job

variable (job : Job)

/-! ## From the parts of a run to the whole -/

/-- What is asked for under the circumstances of the moment is the same if its names may be asked
for. -/
theorem follows_ask {names : String → Prop} {α : Type} (focus : Focus)
    {f : Context → Except ExprError α}
    (h : ∀ ctx bound, (∀ name, names name → ctx.bound name = bound name) →
      f ctx = f (ctx.bind bound)) :
    (job.ask focus f).Follows names (job.ask focus f) := by
  refine Action.follows_of_same (Action.restores_compute _) fun count s t hbeside => ⟨?_, rfl⟩
  have hsame := h (job.context focus s.environment) t.environment.resolve fun name hname =>
    hbeside.resolve_eq hname
  change (f (job.context focus s.environment)).mapError Failure.ofExprError =
    (f (job.context focus t.environment)).mapError Failure.ofExprError
  rw [hsame]
  rfl

/-- The names that patterns ask for may be asked for. -/
def PatternsAsk (names : String → Prop) : Prop :=
  ∀ rule ∈ job.stylesheet.rules.ranked, ∀ name ∈ rule.path.variables, names name

variable {job} {names : String → Prop} (hpatterns : job.PatternsAsk names)

include hpatterns

theorem composable_follows (enter : Bool → Entry → Action Unit) :
    job.Composable enter (fun _ => True) fun _ x => (x false).Follows names (x true) where
  pure _ a _ := Action.follows_of_same (Action.restores_pure a) fun _ _ _ _ => ⟨rfl, rfl⟩
  bind hx hf := hx.bind fun a => hf a (Yield.holds_true _ a)
  fail _ := Action.follows_of_same (Action.restores_fail _) fun _ _ _ _ => ⟨rfl, rfl⟩
  string _ := trivial
  ruleFor mode focus := by
    refine job.follows_ask focus fun ctx bound hbound => ?_
    refine Rules.find?_congr _ ctx mode focus.node fun rule hrule name hname => hbound name ?_
    exact hpatterns rule (List.mem_of_mem_filter hrule) name hname
  report _ := Action.follows_report _
  inElement name hx := hx.inElement name
  bindName name value _ := fun _ _ _ hbeside => .inr ⟨rfl, rfl, hbeside.bindName name value⟩
  inScope hx := hx.inScope
  text hx := hx.text
  watch routine hx _ _ _ := hx.watch routine routine

omit hpatterns in
/-- Expressions may be asked for the names that they mention. -/
theorem follows_eval (focus : Focus) (e : Expr) (h : ∀ name ∈ e.variables, names name) :
    (job.eval focus e).Follows names (job.eval focus e) :=
  job.follows_ask focus fun ctx _ hbound => Expr.eval_congr ctx e fun name hname =>
    hbound name (h name hname)

/-- Where no fewer levels are left, an entry does the same, unless it goes too deep. -/
theorem enterAt_follows (left : Nat) {left' : Nat} (hle : left ≤ left') (entry : Entry) :
    (job.enterAt left entry).Follows names (job.enterAt left' entry) := by
  induction left generalizing left' names entry with
  | zero => exact fun _ _ _ _ => .inl ⟨_, rfl⟩
  | succ left ih =>
      obtain ⟨left', rfl⟩ : ∃ lower, left' = lower + 1 := ⟨left' - 1, by omega⟩
      have hlower : left ≤ left' := Nat.le_of_succ_le_succ hle
      let enter (i : Bool) : Entry → Action Unit := job.enterAt (ofRun left left' i)
      have hrestores (left : Nat) := job.enterAt_restores left
      cases entry with
      | template template focus passed =>
          have hany : job.PatternsAsk fun _ => True := fun _ _ _ _ => trivial
          have h : job.Compositional enter (fun _ => True)
              fun _ x => (x false).Follows (fun _ => True) (x true) :=
            { job.composable_follows hany enter with
              eval := fun focus e => job.follows_eval focus e fun _ _ => trivial }
          have hpassed : passed.All fun _ => True := fun _ _ => trivial
          have hinside := h.inside (fun _ => job.settings.maxDepth)
            (fun entry _ => ih hany hlower entry) template focus hpassed
          have hframe (left : Nat) : (job.carryOut (job.enterAt left) template focus
              passed).Restores :=
            (job.hereditary_tidy.inside (job.enterAt_keepsOuter left) (hrestores left) template
              focus passed).1.inFrame_restores
          exact (hinside.inFrame (hframe left) (hframe left')).inLevel (hframe left)
            (hframe left') _
      | children node mode =>
          have h := job.composable_follows hpatterns enter
          have hpassed : Scope.All (fun _ => True) [] := fun _ _ => trivial
          have hnodes := h.applyAll (fun _ => job.settings.maxDepth)
            (fun entry _ _ => ih hpatterns hlower entry) mode hpassed node.children
          exact hnodes.inLevel (restores_applyAll (hrestores left) mode [] node.children)
            (restores_applyAll (hrestores left') mode [] node.children) _

/-- Where no fewer levels are left, a body does the same, if all that it mentions may be asked
for. -/
theorem performAll_follows {left left' : Nat} (hle : left ≤ left') (focus : Focus)
    {body : List Instruction} (hbody : ∀ e ∈ bodyExprs body, ∀ name ∈ e.variables, names name) :
    (job.performAll (job.enterAt left) focus body).Follows names
      (job.performAll (job.enterAt left') focus body) := by
  have h := job.composable_follows hpatterns fun i => job.enterAt (ofRun left left' i)
  exact h.performAll (fun _ => job.settings.maxDepth)
    (fun entry _ _ => job.enterAt_follows hpatterns left hle entry) job.follows_eval focus body hbody

end Job

end Restyle
