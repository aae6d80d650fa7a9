import Mathlib
import Restyle.Environment

/-!
# Restyle.Proofs.Environment

Bindings nest.

Steps on an environment are balanced if every scope and every frame that they open is closed by them,
the inner ones first.  Balanced steps bind names in the innermost scope and change nothing else
(`Environment.exists_run_eq`), so a scope or a frame around them leaves nothing behind.  What a name
stands for can be told from the steps alone: reading back from the last one, over all that has been
closed again, the first binding of the name counts, unless the start of a frame comes before it
(`Environment.lastBound`).

* `Environment.Balanced`, `Environment.Begun` — balanced steps, and where one may be in the midst of
  them;
* `Environment.run_within` — closing gives back what was there before;
* `Environment.resolve_run`, `Environment.resolve_run_openFrame` — what a name stands for after
  balanced steps, and in the midst of them in a frame;
* `Environment.nests` — the main result.
-/

namespace Restyle

namespace Environment

/-! ## Steps -/

/-- What may be opened around steps. -/
inductive Layer where
  | scope
  | frame
deriving DecidableEq

/-- What may be done to an environment. -/
inductive Step where
  | bind (name : String) (value : Value)
  | resolve (name : String)
  | enter (layer : Layer)
  | leave (layer : Layer)

/-- The environment after a step.  To look up a name changes nothing. -/
def apply (env : Environment) : Step → Environment
  | .bind name value => env.bind name value
  | .resolve _ => env
  | .enter .scope => env.openScope
  | .enter .frame => env.openFrame
  | .leave .scope => env.closeScope
  | .leave .frame => env.closeFrame

/-- The environment after steps taken in turn. -/
def run (env : Environment) (steps : List Step) : Environment := steps.foldl apply env

/-- Steps that close what they open, the inner ones first, and nothing else. -/
inductive Balanced : List Step → Prop
  | nil : Balanced []
  | bind {steps : List Step} (h : Balanced steps) (name : String) (value : Value) :
    Balanced (steps ++ [.bind name value])
  | resolve {steps : List Step} (h : Balanced steps) (name : String) :
    Balanced (steps ++ [.resolve name])
  | within {before inside : List Step} (h : Balanced before) (layer : Layer)
    (hinside : Balanced inside) : Balanced (before ++ .enter layer :: (inside ++ [.leave layer]))

/-- Steps in the midst of balanced ones: balanced steps, and between them what is still open. -/
inductive Begun : List Step → Prop
  | balanced {steps : List Step} (h : Balanced steps) : Begun steps
  | inside {before inside : List Step} (h : Begun before) (layer : Layer)
    (hinside : Balanced inside) : Begun (before ++ .enter layer :: inside)

/-- The value last bound to a name in the innermost open scope of the innermost frame that binds it,
told from the steps since, the last one first.  What has been `closed` again counts for nothing, and
neither does what comes before the start of the frame. -/
def lastBound (name : String) : (closed : Nat) → List Step → Option Value
  | _, [] => none
  | closed, .resolve _ :: before => lastBound name closed before
  | closed, .leave _ :: before => lastBound name (closed + 1) before
  | closed + 1, .enter _ :: before => lastBound name closed before
  | closed + 1, .bind _ _ :: before => lastBound name (closed + 1) before
  | 0, .bind other value :: before =>
    if other = name then some value else lastBound name 0 before
  | 0, .enter .scope :: before => lastBound name 0 before
  | 0, .enter .frame :: _ => none

variable {env : Environment} {steps before inside rest sofar : List Step}

@[simp] theorem run_nil (env : Environment) : env.run [] = env := rfl

@[simp] theorem run_cons (env : Environment) (step : Step) (steps : List Step) :
    env.run (step :: steps) = (env.apply step).run steps := rfl

@[simp] theorem run_append (env : Environment) (steps others : List Step) :
    env.run (steps ++ others) = (env.run steps).run others := List.foldl_append

/-! ## In the midst of balanced steps -/

theorem Begun.within (h : Balanced before) (layer : Layer) (hsofar : Begun sofar) :
    Begun (before ++ .enter layer :: sofar) := by
  induction hsofar with
  | balanced hinside => exact (Begun.balanced h).inside layer hinside
  | inside _ inner hinside ih => simpa using ih.inside inner hinside

/-- A beginning of steps ends in their first part or goes on after the step behind it. -/
theorem prefix_append_cons {step : Step} (h : sofar <+: before ++ step :: rest) :
    sofar <+: before ∨ ∃ sofar', sofar = before ++ step :: sofar' ∧ sofar' <+: rest := by
  obtain ⟨after, hafter⟩ := h
  obtain ⟨more, hmore, -⟩ | ⟨more, rfl, hrest⟩ := List.append_eq_append_iff.1 hafter
  · exact .inl ⟨more, hmore.symm⟩
  · cases more with
    | nil => exact .inl (by simp)
    | cons other sofar' =>
        obtain ⟨rfl, hsofar⟩ := List.cons.inj hrest
        exact .inr ⟨sofar', rfl, after, hsofar.symm⟩

/-- Every beginning of balanced steps is in the midst of them. -/
theorem Balanced.begun (h : Balanced steps) (hsofar : sofar <+: steps) : Begun sofar := by
  induction h generalizing sofar with
  | nil => exact List.prefix_nil.1 hsofar ▸ .balanced .nil
  | bind h name value ih =>
      obtain rfl | hsofar := List.prefix_concat_iff.1 hsofar
      · exact .balanced (h.bind name value)
      · exact ih hsofar
  | resolve h name ih =>
      obtain rfl | hsofar := List.prefix_concat_iff.1 hsofar
      · exact .balanced (h.resolve name)
      · exact ih hsofar
  | within h layer hinside ih ihinside =>
      obtain hsofar | ⟨sofar', rfl, hsofar'⟩ := prefix_append_cons hsofar
      · exact ih hsofar
      · obtain rfl | hsofar' := List.prefix_concat_iff.1 hsofar'
        · exact .balanced (h.within layer hinside)
        · exact (ihinside hsofar').within h layer

/-! ## Closing undoes opening -/

/-- Where a frame with a scope is open, steps change its innermost scope and nothing else. -/
def BindsOnly (steps : List Step) : Prop :=
  ∀ globals scope scopes outer, ∃ scope',
    (Environment.mk globals ((scope :: scopes) :: outer)).run steps =
      ⟨globals, (scope' :: scopes) :: outer⟩

/-- What is opened around such steps is a scope of its own for them, so nothing of them is left once
it is closed. -/
theorem BindsOnly.run_within (h : BindsOnly inside) (layer : Layer) (hopen : env.frames ≠ []) :
    env.run (.enter layer :: (inside ++ [.leave layer])) = env := by
  obtain ⟨globals, frames⟩ := env
  obtain ⟨frame, outer, rfl⟩ := List.exists_cons_of_ne_nil hopen
  cases layer with
  | scope =>
      obtain ⟨scope', hrun⟩ := h globals [] frame outer
      simp [apply, openScope, hrun, closeScope]
  | frame =>
      obtain ⟨scope', hrun⟩ := h globals [] [] (frame :: outer)
      simp [apply, openFrame, hrun, closeFrame]

theorem Balanced.bindsOnly (h : Balanced steps) : BindsOnly steps := by
  induction h with
  | nil => exact fun _ scope _ _ => ⟨scope, rfl⟩
  | bind _ name value ih =>
      intro globals scope scopes outer
      obtain ⟨scope', hrun⟩ := ih globals scope scopes outer
      exact ⟨(name, value) :: scope', by simp [hrun, apply, Environment.bind]⟩
  | resolve _ name ih =>
      intro globals scope scopes outer
      obtain ⟨scope', hrun⟩ := ih globals scope scopes outer
      exact ⟨scope', by simp [hrun, apply]⟩
  | within _ layer _ ih ihinside =>
      intro globals scope scopes outer
      obtain ⟨scope', hrun⟩ := ih globals scope scopes outer
      exact ⟨scope', by rw [run_append, hrun, ihinside.run_within layer (List.cons_ne_nil _ _)]⟩

theorem run_within (h : Balanced inside) (layer : Layer) (hopen : env.frames ≠ []) :
    env.run (.enter layer :: (inside ++ [.leave layer])) = env := h.bindsOnly.run_within layer hopen

/-- A frame is open that has a scope, so names are bound in it. -/
def HasScope (env : Environment) : Prop :=
  ∃ scope scopes outer, env.frames = (scope :: scopes) :: outer

theorem HasScope.frames_ne_nil (h : env.HasScope) : env.frames ≠ [] := by
  obtain ⟨scope, scopes, outer, hframes⟩ := h
  simp [hframes]

theorem openScope_eq {frame : List Scope} {outer : List (List Scope)}
    (h : env.frames = frame :: outer) :
    env.openScope = ⟨env.globals, ([] :: frame) :: outer⟩ := by
  simp [openScope, h]

theorem HasScope.openScope (h : env.HasScope) :
    env.openScope.HasScope ∧ env.openScope.globals = env.globals := by
  obtain ⟨scope, scopes, outer, hframes⟩ := h
  rw [openScope_eq hframes]
  exact ⟨⟨[], scope :: scopes, outer, rfl⟩, rfl⟩

theorem hasScope_openFrame (env : Environment) : env.openFrame.HasScope :=
  ⟨[], [], env.frames, rfl⟩

theorem HasScope.run (hscope : env.HasScope) (h : Balanced steps) :
    (env.run steps).HasScope ∧ (env.run steps).globals = env.globals := by
  obtain ⟨globals, frames⟩ := env
  obtain ⟨scope, scopes, outer, rfl⟩ := hscope
  obtain ⟨scope', hrun⟩ := h.bindsOnly globals scope scopes outer
  exact ⟨⟨scope', scopes, outer, by rw [hrun]⟩, by rw [hrun]⟩

/-! ## What names stand for -/

variable {name : String}

/-- The innermost scope is asked first, then the others of the frame, and then the globals. -/
theorem resolve_eq {scope : Scope} {scopes : List Scope} {outer : List (List Scope)}
    (h : env.frames = (scope :: scopes) :: outer) :
    env.resolve name = ((scope.lookup name).or (scopes.findSome? (List.lookup name))).or
      (env.globals.lookup name) := by
  cases hscope : scope.lookup name <;> simp [resolve, h, hscope]

theorem resolve_bind (h : env.HasScope) (other : String) (value : Value) :
    (env.bind other value).resolve name =
      if other = name then some value else env.resolve name := by
  obtain ⟨scope, scopes, outer, hframes⟩ := h
  have hbind : env.bind other value =
      ⟨env.globals, (((other, value) :: scope) :: scopes) :: outer⟩ := by
    simp [Environment.bind, hframes]
  rw [hbind, resolve_eq rfl, resolve_eq hframes, List.lookup_cons]
  by_cases hname : other = name
  · simp [hname]
  · have hother : (name == other) = false := beq_false_of_ne (Ne.symm hname)
    simp [hname, hother]

/-- A scope with nothing in it hides nothing. -/
theorem resolve_openScope (h : env.HasScope) : env.openScope.resolve name = env.resolve name := by
  obtain ⟨scope, scopes, outer, hframes⟩ := h
  rw [openScope_eq hframes, resolve_eq rfl, resolve_eq hframes]
  cases hscope : scope.lookup name <;> simp [hscope]

/-- A frame with nothing in it hides all but the global bindings. -/
theorem resolve_openFrame (env : Environment) :
    env.openFrame.resolve name = env.globals.lookup name := by
  simp [openFrame, resolve]

/-- Balanced steps that have been closed again are passed over. -/
theorem lastBound_closed (h : Balanced steps) (closed : Nat) (before : List Step) :
    lastBound name (closed + 1) (steps.reverse ++ before) = lastBound name (closed + 1) before := by
  induction h generalizing closed before with
  | nil => rfl
  | bind _ other value ih => simp [lastBound, ih]
  | resolve _ other ih => simp [lastBound, ih]
  | within _ layer _ ih ihinside => simp [lastBound, ihinside, ih]

/-- Balanced steps are asked first, and then what comes before them. -/
theorem lastBound_append (h : Balanced steps) (before : List Step) :
    lastBound name 0 (steps.reverse ++ before) =
      (lastBound name 0 steps.reverse).or (lastBound name 0 before) := by
  induction h generalizing before with
  | nil => rfl
  | bind _ other value ih => by_cases hname : other = name <;> simp [lastBound, hname, ih]
  | resolve _ other ih => simp [lastBound, ih]
  | within _ layer hinside ih => simp [lastBound, lastBound_closed hinside, ih]

/-- After balanced steps a name stands for what they last bound it to, or else for what it stood for
before. -/
theorem resolve_run (h : Balanced steps) (hscope : env.HasScope) :
    (env.run steps).resolve name = (lastBound name 0 steps.reverse).or (env.resolve name) := by
  induction h with
  | nil => rfl
  | bind h other value ih =>
      rw [run_append, run_cons, apply, run_nil, resolve_bind (hscope.run h).1, ih]
      by_cases hname : other = name <;> simp [lastBound, hname]
  | resolve _ other ih => simpa [apply, lastBound] using ih
  | within h layer hinside ih =>
      have hframes := (hscope.run h).1.frames_ne_nil
      rw [run_append, run_within hinside layer hframes, ih]
      simp [lastBound, lastBound_closed hinside]

/-- In the midst of balanced steps in a frame, a name stands for what was last bound to it in the
innermost open scope of the innermost frame that binds it, or else for its global value. -/
theorem resolve_run_openFrame (h : Begun sofar) (env : Environment) :
    (env.openFrame.run sofar).HasScope ∧ (env.openFrame.run sofar).globals = env.globals ∧
      (env.openFrame.run sofar).resolve name =
        (lastBound name 0 sofar.reverse).or (env.globals.lookup name) := by
  induction h with
  | balanced h =>
      obtain ⟨hscope, hglobals⟩ := (hasScope_openFrame env).run h
      exact ⟨hscope, hglobals, by rw [resolve_run h (hasScope_openFrame env), resolve_openFrame]⟩
  | @inside before inside _ layer hinside ih =>
      obtain ⟨hscope, hglobals, hresolve⟩ := ih
      rw [run_append, run_cons]
      cases layer with
      | scope =>
          obtain ⟨hopened, hkept⟩ := hscope.openScope
          obtain ⟨hscope', hglobals'⟩ := hopened.run hinside
          refine ⟨hscope', hglobals'.trans (hkept.trans hglobals), ?_⟩
          rw [apply, resolve_run hinside hopened, resolve_openScope hscope, hresolve]
          simp [lastBound_append hinside, lastBound, Option.or_assoc]
      | frame =>
          obtain ⟨hscope', hglobals'⟩ := (hasScope_openFrame _).run hinside
          refine ⟨hscope', hglobals'.trans hglobals, ?_⟩
          rw [apply, resolve_run hinside (hasScope_openFrame _), resolve_openFrame, hglobals]
          simp [lastBound_append hinside, lastBound]

/-- **Bindings nest.**  Where a frame is open, balanced steps in a scope or in a frame of their own
give back the very environment they started in.  Anywhere in the midst of such steps in a frame of
their own, a name stands for the value last bound to it in the innermost scope still open of the
innermost frame that binds it, or else for its global value, whatever frames lie below. -/
theorem nests (hopen : env.frames ≠ []) (h : Balanced inside) :
    env.run (.enter .scope :: (inside ++ [.leave .scope])) = env ∧
      env.run (.enter .frame :: (inside ++ [.leave .frame])) = env ∧
      ∀ sofar, sofar <+: inside → ∀ below name,
        ((Environment.mk env.globals below).run (.enter .frame :: sofar)).resolve name =
          (lastBound name 0 sofar.reverse).or (env.globals.lookup name) := by
  refine ⟨run_within h .scope hopen, run_within h .frame hopen, fun sofar hsofar below name => ?_⟩
  exact (resolve_run_openFrame (h.begun hsofar) (Environment.mk env.globals below)).2.2

/-- A scope with a frame in it, between two bindings of a name. -/
def shadowing : List Step :=
  [.bind "x" (.boolean true), .enter .scope, .bind "x" (.boolean false), .enter .frame,
    .bind "y" (.boolean true), .leave .frame, .leave .scope]

theorem balanced_shadowing : Balanced shadowing :=
  (Balanced.nil.bind "x" (.boolean true)).within .scope
    ((Balanced.nil.bind "x" (.boolean false)).within .frame
      (Balanced.nil.bind "y" (.boolean true)))

/-- Two global bindings, and a frame in which one of the names stands for something else. -/
def shadowed : Environment :=
  ⟨[("x", .string "global"), ("y", .string "global")], [[[("y", .string "below")]]]⟩

/-- In the inner scope the inner binding counts; in the frame inside it neither does; and nothing of
the frame below is seen. -/
theorem nests_shadowing :
    shadowed.run (.enter .frame :: (shadowing ++ [.leave .frame])) = shadowed ∧
      (shadowed.run (.enter .frame :: shadowing.take 3)).resolve "x" = some (.boolean false) ∧
      (shadowed.run (.enter .frame :: shadowing.take 4)).resolve "x" = some (.string "global") ∧
      (shadowed.run (.enter .frame :: shadowing.take 6)).resolve "y" = some (.string "global") ∧
      (shadowed.run (.enter .frame :: shadowing)).resolve "x" = some (.boolean true) := by
  have hopen : shadowed.frames ≠ [] := List.cons_ne_nil _ _
  obtain ⟨-, hframe, hresolve⟩ := nests hopen balanced_shadowing
  exact ⟨hframe, hresolve _ (List.take_prefix 3 _) _ "x", hresolve _ (List.take_prefix 4 _) _ "x",
    hresolve _ (List.take_prefix 6 _) _ "y", hresolve _ (List.prefix_refl _) _ "x"⟩

end Environment

end Restyle
