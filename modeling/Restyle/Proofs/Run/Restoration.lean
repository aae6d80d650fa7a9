import Restyle.Proofs.Run.Hereditary

/-!
# Restyle.Proofs.Run.Restoration

A run leaves no trace in its state.

Bindings and levels are opened and closed by hand, and what stands between may fail.  Instructions
may bind names in the innermost scope and change nothing else (`Action.KeepsOuter`), so closing a
scope or a frame gives back what was there before it was opened.  Together with this goes what can
be seen on the way (`Sighting.Orderly`): routines leave the state as they find it, every open frame
has a scope, and the depth counts the levels that are open.

* `Action.KeepsOuter.inScope_state`, `Action.KeepsOuter.inFrame_restores` — closing undoes opening;
* `Job.hereditary_tidy` — all of it passes from the parts of a run to the whole;
* `Job.enterAt_tidy` — and so from level to level;
* `Job.Hereditary.main` — other properties pass to a whole run in the same way;
* `Job.state_restored` — the main result.
-/

namespace Restyle

/-- Every open frame has at least one scope. -/
def Environment.Scoped (env : Environment) : Prop := ∀ frame ∈ env.frames, frame ≠ []

/-- The same state with other frames. -/
def State.withFrames (s : State) (frames : List (List Scope)) : State :=
  s.update fun env => { env with frames := frames }

namespace State

theorem withFrames_self {s : State} {frames : List (List Scope)}
    (h : s.environment.frames = frames) : s.withFrames frames = s := by
  subst h
  rfl

/-- To open a scope is to put it on the innermost frame. -/
theorem update_openScope {s : State} {frame : List Scope} {outer : List (List Scope)}
    (h : s.environment.frames = frame :: outer) :
    s.update Environment.openScope = s.withFrames (([] :: frame) :: outer) := by
  simp only [update, Environment.openScope, h, withFrames]

/-- To bind a name is to put it into the innermost scope. -/
theorem update_bind {s : State} {scope : Scope} {scopes : List Scope} {outer : List (List Scope)}
    (h : s.environment.frames = (scope :: scopes) :: outer) (name : String) (value : Value) :
    s.update (Environment.bind name value) =
      s.withFrames ((((name, value) :: scope) :: scopes) :: outer) := by
  simp only [update, Environment.bind, h, withFrames]

end State

/-- A state in which instructions are carried out: a frame is open, every open frame has a scope,
and no more levels are open than may be. -/
structure State.Ready (limit : Nat) (s : State) : Prop where
  frames_ne_nil : s.environment.frames ≠ []
  allScoped : s.environment.Scoped
  depth_le : s.depth ≤ limit

theorem State.Ready.exists_frames {limit : Nat} {s : State} (h : s.Ready limit) :
    ∃ scope scopes outer, s.environment.frames = (scope :: scopes) :: outer ∧
      ∀ frame ∈ outer, frame ≠ [] := by
  obtain ⟨frame, outer, hframes⟩ := List.exists_cons_of_ne_nil h.frames_ne_nil
  have hscoped : ∀ other ∈ frame :: outer, other ≠ [] := hframes ▸ h.allScoped
  obtain ⟨scope, scopes, rfl⟩ :=
    List.exists_cons_of_ne_nil (hscoped frame List.mem_cons_self)
  exact ⟨scope, scopes, outer, hframes, fun other h => hscoped other (List.mem_cons_of_mem _ h)⟩

/-- A frame with a scope may stand on top of frames that have scopes. -/
theorem State.ready_withFrames {limit : Nat} {s : State} {outer : List (List Scope)}
    (houter : ∀ frame ∈ outer, frame ≠ []) (hdepth : s.depth ≤ limit) (scope : Scope)
    (scopes : List Scope) : (s.withFrames ((scope :: scopes) :: outer)).Ready limit where
  frames_ne_nil := List.cons_ne_nil _ _
  allScoped := by
    intro frame hframe
    rcases List.mem_cons.1 hframe with rfl | hmem
    · exact List.cons_ne_nil _ _
    · exact houter frame hmem
  depth_le := hdepth

/-- What may be seen of an action that starts at a depth: routines leave the state as they find it,
every open frame has a scope, and the depth counts the levels that are open, which are no more than
the limit. -/
def Sighting.Orderly (limit depth : Nat) : Sighting → Prop
  | .moment levels state =>
    state.environment.Scoped ∧ state.depth = depth + levels ∧ state.depth ≤ limit
  | .call _ before after => after = before

theorem State.Ready.orderly {limit : Nat} {s : State} (h : s.Ready limit) :
    (Sighting.moment 0 s).Orderly limit s.depth := ⟨h.allScoped, rfl, h.depth_le⟩

theorem Sighting.Orderly.inLevel {limit depth : Nat} {seen : Sighting}
    (h : seen.Orderly limit (depth + 1)) : seen.inLevel.Orderly limit depth := by
  cases seen with
  | call routine before after => exact h
  | moment levels state =>
      obtain ⟨hscoped, hdepth, hlimit⟩ := h
      exact ⟨hscoped, by rw [hdepth]; omega, hlimit⟩

namespace Action

variable {α β : Type}

/-- An action binds names in the innermost scope and changes nothing else. -/
def KeepsOuter (x : Action α) : Prop :=
  ∀ s scope scopes outer, s.environment.frames = (scope :: scopes) :: outer →
    ∃ scope', (x.run s).state = s.withFrames ((scope' :: scopes) :: outer)

/-! ## Closing undoes opening -/

theorem Restores.keepsOuter {x : Action α} (h : x.Restores) : x.KeepsOuter := by
  intro s scope scopes outer hs
  exact ⟨scope, (h s).trans (State.withFrames_self hs).symm⟩

theorem KeepsOuter.bind {x : Action α} {f : α → Action β} (hx : x.KeepsOuter)
    (hf : ∀ a, (f a).KeepsOuter) : (x >>= f).KeepsOuter := by
  intro s scope scopes outer hs
  obtain ⟨scope₁, h₁⟩ := hx s scope scopes outer hs
  cases h : (x.run s).result with
  | error failure => exact ⟨scope₁, by rw [run_bind_of_error f h]; exact h₁⟩
  | ok a =>
      obtain ⟨scope₂, h₂⟩ := hf a (x.run s).state scope₁ scopes outer (by rw [h₁]; rfl)
      exact ⟨scope₂, by rw [run_bind_of_ok f h]; exact h₂.trans (by rw [h₁]; rfl)⟩

theorem keepsOuter_bindName (name : String) (value : Value) :
    (Action.change (Environment.bind name value)).KeepsOuter := by
  intro s scope scopes outer hs
  exact ⟨(name, value) :: scope, State.update_bind hs name value⟩

/-- A scope in an open frame leaves nothing behind. -/
theorem KeepsOuter.inScope_state {x : Action α} (hx : x.KeepsOuter) {s : State}
    (hs : s.environment.frames ≠ []) : (x.inScope.run s).state = s := by
  obtain ⟨frame, outer, hframes⟩ := List.exists_cons_of_ne_nil hs
  have hopen := State.update_openScope hframes
  obtain ⟨scope', h⟩ := hx (s.update Environment.openScope) [] frame outer (by rw [hopen]; rfl)
  change (x.run (s.update Environment.openScope)).state.update Environment.closeScope = s
  rw [h, hopen]
  exact State.withFrames_self hframes

theorem KeepsOuter.inScope {x : Action Unit} (hx : x.KeepsOuter) : x.inScope.KeepsOuter := by
  intro s scope scopes outer hs
  have hopen : s.environment.frames ≠ [] := by
    rw [hs]
    exact List.cons_ne_nil _ _
  exact ⟨scope, (hx.inScope_state hopen).trans (State.withFrames_self hs).symm⟩

/-- A frame leaves nothing behind, whatever is open around it. -/
theorem KeepsOuter.inFrame_restores {x : Action α} (hx : x.KeepsOuter) : x.inFrame.Restores := by
  intro s
  obtain ⟨scope', h⟩ := hx (s.update Environment.openFrame) [] [] s.environment.frames rfl
  change (x.run (s.update Environment.openFrame)).state.update Environment.closeFrame = s
  rw [h]
  rfl

/-- A level leaves nothing behind. -/
theorem Restores.inLevel {x : Action α} (hx : x.Restores) (limit : Nat) :
    (x.inLevel limit).Restores := by
  intro s
  by_cases h : limit ≤ s.depth
  · rw [run_inLevel_of_le x h]
    rfl
  · rw [run_inLevel_of_not_le x h, hx s.enter]
    rfl

/-! ## What can be seen on the way -/

/-- From where instructions can be carried out, an action leads to where they can be carried out at
the same depth, and nothing but what is in order can be seen of it. -/
def Orderly (limit : Nat) (x : Action α) : Prop :=
  ∀ s, s.Ready limit →
    ((x.run s).state.Ready limit ∧ (x.run s).state.depth = s.depth) ∧
      ∀ seen, (x.run s).seen seen → seen.Orderly limit s.depth

theorem Restores.orderly {x : Action α} (hx : x.Restores) {limit : Nat}
    (hseen : ∀ s, s.Ready limit → ∀ seen, (x.run s).seen seen → seen.Orderly limit s.depth) :
    x.Orderly limit := by
  intro s hs
  rw [hx s]
  exact ⟨⟨hs, rfl⟩, hseen s hs⟩

theorem orderly_pure (limit : Nat) (a : α) : (pure a : Action α).Orderly limit :=
  (restores_pure a).orderly fun _ _ _ hseen => hseen.elim

theorem orderly_fail (limit : Nat) (failure : Failure) :
    (Action.fail failure : Action α).Orderly limit :=
  (restores_fail failure).orderly fun _ _ _ hseen => hseen.elim

theorem orderly_report (limit : Nat) (events : List Event) :
    (Action.report events).Orderly limit :=
  (restores_report events).orderly fun _ _ _ hseen => hseen.elim

theorem orderly_compute (limit : Nat) (f : Environment → Except Failure α) :
    (Action.compute f).Orderly limit :=
  (restores_compute f).orderly fun _ _ _ hseen => hseen.elim

theorem Orderly.bind {limit : Nat} {x : Action α} {f : α → Action β} (hx : x.Orderly limit)
    (hf : ∀ a, (f a).Orderly limit) : (x >>= f).Orderly limit := by
  intro s hs
  obtain ⟨⟨hready, hdepth⟩, hseen⟩ := hx s hs
  constructor
  · cases h : (x.run s).result with
    | error failure =>
        rw [run_bind_of_error f h]
        exact ⟨hready, hdepth⟩
    | ok a =>
        obtain ⟨hready', hdepth'⟩ := (hf a _ hready).1
        rw [run_bind_of_ok f h]
        exact ⟨hready', hdepth'.trans hdepth⟩
  · intro seen h
    obtain hfirst | ⟨a, hsecond⟩ := seen_of_bind h
    · exact hseen seen hfirst
    · rw [← hdepth]
      exact (hf a _ hready).2 seen hsecond

/-- A change of what names stand for is in order if it leaves scopes in all frames. -/
theorem orderly_change {limit : Nat} {f : Environment → Environment}
    (hf : ∀ s : State, s.Ready limit → (s.update f).Ready limit) :
    (Action.change f).Orderly limit := by
  intro s hs
  refine ⟨⟨hf s hs, rfl⟩, ?_⟩
  rintro seen rfl
  exact (hf s hs).orderly

theorem orderly_bindName (limit : Nat) (name : String) (value : Value) :
    (Action.change (Environment.bind name value)).Orderly limit := by
  refine orderly_change fun s hs => ?_
  obtain ⟨scope, scopes, outer, hframes, houter⟩ := hs.exists_frames
  rw [State.update_bind hframes]
  exact State.ready_withFrames houter hs.depth_le _ _

theorem Orderly.watch {limit : Nat} {x : Action α} (hx : x.Orderly limit) (hrestores : x.Restores)
    (routine : Routine) : (x.watch routine).Orderly limit := by
  refine (hrestores.watch routine).orderly fun s hs seen hseen => ?_
  rcases hseen with hseen | rfl
  · exact (hx s hs).2 seen hseen
  · exact hrestores s

theorem Orderly.inScope {limit : Nat} {x : Action α} (hkeeps : x.KeepsOuter)
    (hx : x.Orderly limit) : x.inScope.Orderly limit := by
  intro s hs
  obtain ⟨scope, scopes, outer, hframes, houter⟩ := hs.exists_frames
  have hfinal : (x.inScope.run s).state = s := hkeeps.inScope_state hs.frames_ne_nil
  have hready : (s.update Environment.openScope).Ready limit := by
    rw [State.update_openScope hframes]
    exact State.ready_withFrames houter hs.depth_le [] (scope :: scopes)
  rw [hfinal]
  refine ⟨⟨hs, rfl⟩, ?_⟩
  rintro seen ((rfl | hseen | rfl) | rfl)
  · exact hready.orderly
  · exact (hx _ hready).2 seen hseen
  · change Sighting.Orderly limit s.depth (.moment 0 (x.inScope.run s).state)
    rw [hfinal]
    exact hs.orderly
  · exact hfinal

theorem Orderly.inFrame {limit : Nat} {x : Action α} (hkeeps : x.KeepsOuter)
    (hx : x.Orderly limit) : x.inFrame.Orderly limit := by
  refine hkeeps.inFrame_restores.orderly fun s hs => ?_
  have hready : (s.update Environment.openFrame).Ready limit :=
    State.ready_withFrames hs.allScoped hs.depth_le [] []
  rintro seen (rfl | hseen | rfl)
  · exact hready.orderly
  · exact (hx _ hready).2 seen hseen
  · change Sighting.Orderly limit s.depth (.moment 0 (x.inFrame.run s).state)
    rw [hkeeps.inFrame_restores s]
    exact hs.orderly

theorem Orderly.inLevel {limit : Nat} {x : Action α} (hrestores : x.Restores)
    (hx : x.Orderly limit) : (x.inLevel limit).Orderly limit := by
  refine (hrestores.inLevel limit).orderly fun s hs seen hseen => ?_
  by_cases h : limit ≤ s.depth
  · rw [run_inLevel_of_le x h] at hseen
    cases hseen
  · rw [run_inLevel_of_not_le x h, hrestores s.enter] at hseen
    have hready : s.enter.Ready limit :=
      ⟨hs.frames_ne_nil, hs.allScoped, Nat.succ_le_of_lt (Nat.lt_of_not_le h)⟩
    rcases hseen with rfl | ⟨inner, hinner, rfl⟩ | rfl
    · exact ⟨hready.allScoped, rfl, hready.depth_le⟩
    · exact ((hx _ hready).2 inner hinner).inLevel
    · exact hs.orderly

end Action

namespace Job

variable (job : Job)

/-! ## From the parts of a run to the whole -/

/-- What instructions do to the state, and what can be seen of it on the way. -/
theorem hereditary_tidy :
    job.Hereditary fun x => x.KeepsOuter ∧ x.Orderly job.settings.maxDepth where
  pure a := ⟨(Action.restores_pure a).keepsOuter, Action.orderly_pure _ a⟩
  bind hx hf := ⟨hx.1.bind fun a => (hf a).1, hx.2.bind fun a => (hf a).2⟩
  fail _ := ⟨(Action.restores_fail _).keepsOuter, Action.orderly_fail _ _⟩
  eval _ _ := ⟨(Action.restores_compute _).keepsOuter, Action.orderly_compute _ _⟩
  ruleFor _ _ := ⟨(Action.restores_compute _).keepsOuter, Action.orderly_compute _ _⟩
  report _ := ⟨(Action.restores_report _).keepsOuter, Action.orderly_report _ _⟩
  inElement _ hx :=
    ⟨(Action.restores_report _).keepsOuter.bind fun _ => hx.1.bind fun _ =>
        (Action.restores_report _).keepsOuter,
      (Action.orderly_report _ _).bind fun _ => hx.2.bind fun _ => Action.orderly_report _ _⟩
  bindName name value :=
    ⟨Action.keepsOuter_bindName name value, Action.orderly_bindName _ name value⟩
  inScope hx := ⟨hx.1.inScope, hx.2.inScope hx.1⟩
  text hx := hx
  watch routine hx hrestores _ := ⟨hx.1, hx.2.watch hrestores routine⟩

/-- Whatever comes of it, an entry leaves the state as it found it, and on the way all is in
order. -/
theorem enterAt_tidy (left : Nat) (entry : Entry) :
    (job.enterAt left entry).Restores ∧
      (job.enterAt left entry).Orderly job.settings.maxDepth := by
  induction left generalizing entry with
  | zero => exact ⟨Action.restores_fail _, Action.orderly_fail _ _⟩
  | succ left ih =>
      have hrestores (entry : Entry) : (job.enterAt left entry).Restores := (ih entry).1
      have henter (entry : Entry) : (job.enterAt left entry).KeepsOuter ∧
          (job.enterAt left entry).Orderly job.settings.maxDepth :=
        ⟨(hrestores entry).keepsOuter, (ih entry).2⟩
      have h := job.hereditary_tidy
      cases entry with
      | template template focus passed =>
          have hbody := h.inside henter hrestores template focus passed
          exact ⟨hbody.1.inFrame_restores.inLevel _,
            (hbody.2.inFrame hbody.1).inLevel hbody.1.inFrame_restores⟩
      | children node mode =>
          have hnodes := h.applyAll henter hrestores mode [] node.children
          have hall : (job.applyAll (job.enterAt left) mode [] node.children).Restores :=
            restores_applyAll hrestores mode [] node.children
          exact ⟨hall.inLevel _, hnodes.2.inLevel hall⟩

theorem enterAt_restores (left : Nat) (entry : Entry) : (job.enterAt left entry).Restores :=
  (job.enterAt_tidy left entry).1

theorem enterAt_keepsOuter (left : Nat) (entry : Entry) :
    (job.enterAt left entry).KeepsOuter ∧
      (job.enterAt left entry).Orderly job.settings.maxDepth :=
  ⟨(job.enterAt_restores left entry).keepsOuter, (job.enterAt_tidy left entry).2⟩

section Everywhere

variable {job} {P : {α : Type} → Action α → Prop} (h : job.Hereditary P)
  (hbetween : ∀ {x : Action Unit} (before after : Environment → Environment),
    P x → P (x.between before after))
  (hlevel : ∀ {x : Action Unit}, P x → P (x.inLevel job.settings.maxDepth))

include h hbetween hlevel

/-- A property that does not depend on the environment around an action passes from level to
level. -/
theorem Hereditary.enterAt (left : Nat) (entry : Entry) : P (job.enterAt left entry) := by
  induction left generalizing entry with
  | zero => exact h.fail .tooDeep
  | succ left ih =>
      have hrestores := job.enterAt_restores left
      cases entry with
      | template template focus passed =>
          exact hlevel (hbetween _ _ (h.inside ih hrestores template focus passed))
      | children node mode => exact hlevel (h.applyAll ih hrestores mode [] node.children)

/-- And so it passes to a whole run. -/
theorem Hereditary.main (hchange : ∀ f, P (Action.change f)) (params : Scope) :
    P (job.main params) :=
  (h.compositional (job.enterAt_restores _)).main (fun _ => job.settings.maxDepth)
    (fun entry _ => h.enterAt hbetween hlevel _ entry) (hchange _) (hbetween _ _)
    (fun _ _ _ => hchange _) fun _ _ => trivial

end Everywhere

/-- A body leaves everything but the innermost scope as it found it, and on the way all is in
order. -/
theorem performAll_tidy (left : Nat) (focus : Focus) (body : List Instruction) :
    (job.performAll (job.enterAt left) focus body).KeepsOuter ∧
      (job.performAll (job.enterAt left) focus body).Orderly job.settings.maxDepth :=
  job.hereditary_tidy.performAll (job.enterAt_keepsOuter left) (job.enterAt_restores left) focus
    body

/-! ## Whole runs -/

theorem orderly_bindGlobals (params : Scope) (globals : List Global) :
    (job.bindGlobals params globals).Orderly job.settings.maxDepth := by
  have hsource (source : ValueSource Instruction) :=
    (job.hereditary_tidy.sourceValue (job.enterAt_keepsOuter job.settings.maxDepth)
      (job.enterAt_restores job.settings.maxDepth) job.rootFocus source).2
  induction globals with
  | nil => exact Action.orderly_pure _ _
  | cons new globals ih =>
      have htail (value : Value) : Action.Orderly job.settings.maxDepth (do
          Action.change (Environment.bindGlobal new.name value)
          job.bindGlobals params globals) := by
        refine Action.Orderly.bind (Action.orderly_change fun s hs => ?_) fun _ => ih
        exact ⟨hs.frames_ne_nil, hs.allScoped, hs.depth_le⟩
      unfold bindGlobals
      split
      · exact (Action.orderly_pure _ _).bind htail
      · exact (hsource new.value).bind htail

/-- The first frame of a run is one in which instructions can be carried out. -/
theorem ready_opened (limit : Nat) : (State.initial.update Environment.openFrame).Ready limit :=
  State.ready_withFrames (s := .initial) (List.forall_mem_nil _) (Nat.zero_le _) [] []

/-- The root is handled in the first frame of a run, and the frame is closed behind it. -/
theorem orderly_rootHandled {params : Scope} {s : State} (hs : s.Ready job.settings.maxDepth)
    {seen : Sighting}
    (h : ((Action.between id Environment.closeFrame
      (job.applyAll job.enter none params [job.document.root])).run s).seen seen) :
    seen.Orderly job.settings.maxDepth s.depth := by
  have hall : (job.applyAll job.enter none params [job.document.root]).Restores :=
    restores_applyAll (job.enterAt_restores _) none params _
  have hnodes := (job.hereditary_tidy.applyAll (job.enterAt_keepsOuter job.settings.maxDepth)
    (job.enterAt_restores job.settings.maxDepth) none params [job.document.root]).2
  obtain ⟨scope, scopes, outer, hframes, houter⟩ := hs.exists_frames
  rcases h with rfl | h | rfl
  · exact hs.orderly
  · exact (hnodes s hs).2 seen h
  · change Sighting.Orderly _ _ (.moment 0 (((job.applyAll job.enter none params
      [job.document.root]).run s).state.update Environment.closeFrame))
    rw [hall s]
    refine ⟨?_, rfl, hs.depth_le⟩
    change ∀ frame ∈ s.environment.frames.tail, frame ≠ []
    rw [hframes]
    exact houter

/-- From the first frame of a run to its end, nothing but what is in order can be seen. -/
theorem seen_main {params : Scope} {seen : Sighting}
    (h : ((job.main params).run .initial).seen seen) :
    seen.Orderly job.settings.maxDepth 0 := by
  have hopened := ready_opened job.settings.maxDepth
  obtain ⟨⟨hready, hdepth⟩, hglobals⟩ :=
    job.orderly_bindGlobals params job.stylesheet.globals _ hopened
  obtain rfl | ⟨-, h⟩ := Action.seen_of_bind h
  · exact hopened.orderly
  · obtain h | ⟨-, h⟩ := Action.seen_of_bind h
    · exact hglobals seen h
    · have horderly := job.orderly_rootHandled hready h
      rwa [hdepth] at horderly

/-- A template for the root that binds a variable and then stops the run. -/
def stopping : Job where
  stylesheet :=
    { rules :=
        { ranked := [⟨⟨true, []⟩, none, .zero false, 0,
            ⟨none, none, none, none, [], [.variable "x" .empty, .message true [.text "no"]]⟩⟩]
          named := [] }
      globals := []
      output := .standard }
  document := ⟨[]⟩
  settings := ⟨1, false⟩

end Job

end Restyle
