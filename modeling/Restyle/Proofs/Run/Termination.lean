import Mathlib
import Restyle.Proofs.Run.Restoration

/-!
# Restyle.Proofs.Run.Termination

Every run ends.

A run calls itself for a whole job, for the content of entries and for bodies (`Task`).  `Job.step`
is what one call does, with the calls that it makes as a parameter; there is no count of levels left
in it.  A call asks for the answers of finitely many others (`Action.Consults`), and each of them
works on something smaller at the same depth or one level deeper, where the limit still allows it
(`Job.MayCall`).  So the calls of a run make a finite tree.

* `Job.enter_eq` — the levels that are left when an entry is carried out do not matter;
* `Job.carried_eq` — what is carried out in a run solves the recursion of `Job.step`;
* `Job.consults_step` — the calls that one call makes;
* `Job.Ends` — the finite trees of calls;
* `Job.run_ends` — the main result.
-/

namespace Restyle

/-- What a run calls itself for. -/
inductive Task where
  /-- A whole job, with the values from outside. -/
  | whole (params : Scope)
  /-- What an entry leads to. -/
  | entry (entry : Entry)
  /-- A body for a focus. -/
  | body (focus : Focus) (body : List Instruction)

/-! ## Finitely many questions -/

namespace Action

variable {ι κ α β : Type}

/-- An action that depends on the answers `i` to questions leaves the depth as it finds it; and all
that it asks, where the answers are those of `base`, is finitely many questions, which may be asked
at the depth where it starts. -/
def Consults (answer : ι → κ → Action Unit) (base : ι) (May : Nat → κ × State → Prop)
    (x : ι → Action α) : Prop :=
  ∀ s, ((x base).run s).state.depth = s.depth ∧
    ∃ questions : List (κ × State), (∀ question ∈ questions, May s.depth question) ∧
      ∀ i, (∀ question ∈ questions,
          (answer i question.1).run question.2 = (answer base question.1).run question.2) →
        (x i).run s = (x base).run s

variable {answer : ι → κ → Action Unit} {base : ι} {May : Nat → κ × State → Prop}

/-- An action that is the same for all answers asks nothing. -/
theorem consults_const {x : Action α} (hdepth : ∀ s, (x.run s).state.depth = s.depth) :
    Consults answer base May fun _ => x :=
  fun s => ⟨hdepth s, [], List.forall_mem_nil _, fun _ _ => rfl⟩

/-- An action that asks one question. -/
theorem consults_answer {k : κ}
    (hdepth : ∀ s, ((answer base k).run s).state.depth = s.depth)
    (hmay : ∀ s, May s.depth (k, s)) : Consults answer base May fun i => answer i k := by
  intro s
  refine ⟨hdepth s, [(k, s)], ?_, fun i hi => hi _ List.mem_cons_self⟩
  exact List.forall_mem_singleton.2 (hmay s)

/-- One thing after another asks what the first one asks and what the second one asks after it. -/
theorem Consults.bind {x : ι → Action α} {f : ι → α → Action β}
    (hx : Consults answer base May x) (hf : ∀ a, Consults answer base May fun i => f i a) :
    Consults answer base May fun i => x i >>= f i := by
  intro s
  obtain ⟨hdepth, questions, hmay, hsame⟩ := hx s
  cases hfirst : ((x base).run s).result with
  | error failure =>
      rw [run_bind_of_error _ hfirst]
      refine ⟨hdepth, questions, hmay, fun i hi => ?_⟩
      have heq := hsame i hi
      rw [run_bind_of_error (f i) (heq ▸ hfirst), heq]
  | ok a =>
      obtain ⟨hdepth', questions', hmay', hsame'⟩ := hf a ((x base).run s).state
      rw [run_bind_of_ok _ hfirst]
      refine ⟨hdepth'.trans hdepth, questions ++ questions', ?_, fun i hi => ?_⟩
      · exact List.forall_mem_append.2 ⟨hmay, hdepth ▸ hmay'⟩
      · obtain ⟨hi, hi'⟩ := List.forall_mem_append.1 hi
        have heq := hsame i hi
        rw [run_bind_of_ok (f i) (heq ▸ hfirst), heq, hsame' i hi']

theorem Consults.between {x : ι → Action α} (hx : Consults answer base May x)
    (before after : Environment → Environment) :
    Consults answer base May fun i => (x i).between before after := by
  intro s
  obtain ⟨hdepth, questions, hmay, hsame⟩ := hx (s.update before)
  refine ⟨hdepth, questions, hmay, fun i hi => ?_⟩
  have heq := hsame i hi
  unfold Action.run at heq
  simp only [Action.run, Action.between, heq]

theorem Consults.watch {x : ι → Action α} (hx : Consults answer base May x) (routine : Routine) :
    Consults answer base May fun i => (x i).watch routine := by
  intro s
  obtain ⟨hdepth, questions, hmay, hsame⟩ := hx s
  refine ⟨hdepth, questions, hmay, fun i hi => ?_⟩
  have heq := hsame i hi
  unfold Action.run at heq
  simp only [Action.run, Action.watch, heq]

theorem Consults.text {x : ι → Action Unit} (hx : Consults answer base May x) :
    Consults answer base May fun i => (x i).text := by
  intro s
  obtain ⟨hdepth, questions, hmay, hsame⟩ := hx s
  refine ⟨hdepth, questions, hmay, fun i hi => ?_⟩
  have heq := hsame i hi
  unfold Action.run at heq
  simp only [Action.run, Action.text, heq]

end Action

namespace Job

variable (job : Job)

theorem compositional_consults {ι κ : Type} (enter : ι → Entry → Action Unit)
    (answer : ι → κ → Action Unit) (base : ι) (May : Nat → κ × State → Prop) :
    job.Compositional enter (fun _ => True) fun _ x => Action.Consults answer base May x where
  pure _ _ _ := Action.consults_const fun _ => rfl
  bind hx hf := hx.bind fun a => hf a (Yield.holds_true _ a)
  fail _ := Action.consults_const fun _ => rfl
  string _ := trivial
  eval _ _ := Action.consults_const fun _ => rfl
  ruleFor _ _ := Action.consults_const fun _ => rfl
  report _ := Action.consults_const fun _ => rfl
  inElement _ hx :=
    (Action.consults_const fun _ => rfl).bind fun _ =>
      hx.bind fun _ => Action.consults_const fun _ => rfl
  bindName _ _ _ := Action.consults_const fun _ => rfl
  inScope hx := (hx.between _ _).watch _
  text hx := hx.text
  watch routine hx _ _ _ := hx.watch routine

/-! ## Levels that are left -/

/-- What an entry leads to, one level deeper. -/
def opened (enter : Entry → Action Unit) : Entry → Action Unit
  | .template template focus passed => job.carryOut enter template focus passed
  | .children node mode => job.applyAll enter mode [] node.children

theorem enterAt_succ (left : Nat) (entry : Entry) :
    job.enterAt (left + 1) entry =
      (job.opened (job.enterAt left) entry).inLevel job.settings.maxDepth := by
  cases entry <;> rfl

section Opened

variable {enter : Entry → Action Unit} (hrestores : ∀ entry, (enter entry).Restores)

include hrestores

/-- What an entry leads to asks only for entries at its own depth. -/
theorem consults_opened (entry : Entry) :
    Action.Consults (fun enter => enter) enter (fun depth question => question.2.depth = depth)
      fun enter => job.opened enter entry := by
  have h := job.compositional_consults (fun enter => enter) (fun enter => enter) enter
    fun depth question => question.2.depth = depth
  have henter (entry : Entry) : Action.Consults (fun enter => enter) enter
      (fun depth question => question.2.depth = depth) fun enter => enter entry :=
    Action.consults_answer (fun s => by rw [hrestores entry s]) fun _ => rfl
  cases entry with
  | template template focus passed =>
      exact (h.inside (fun _ => job.settings.maxDepth) (fun entry _ => henter entry) template focus
        fun _ _ => trivial).between _ _
  | children node mode =>
      exact h.applyAll (fun _ => job.settings.maxDepth) (fun entry _ => henter entry) mode
        (fun _ _ => trivial) node.children

/-- Where two ways to carry out entries agree at a depth, so does what entries lead to there. -/
theorem opened_congr {enter' : Entry → Action Unit} {s : State}
    (hsame : ∀ entry s', s'.depth = s.depth → (enter' entry).run s' = (enter entry).run s')
    (entry : Entry) : (job.opened enter' entry).run s = (job.opened enter entry).run s := by
  obtain ⟨-, questions, hmay, hdone⟩ := job.consults_opened hrestores entry s
  exact hdone enter' fun question hquestion => hsame _ _ (hmay question hquestion)

end Opened

theorem run_enterAt_of_le {s : State} (h : job.settings.maxDepth ≤ s.depth) (left : Nat)
    (entry : Entry) :
    (job.enterAt left entry).run s =
      (Action.fail (.tooDeep job.settings.maxDepth) : Action Unit).run s := by
  cases left with
  | zero => rfl
  | succ left => rw [enterAt_succ, Action.run_inLevel_of_le _ h]

/-- As long as enough levels are left for the limit to be met, it does not matter how many. -/
theorem enterAt_congr {left left' : Nat} {s : State} (h : job.settings.maxDepth ≤ s.depth + left)
    (h' : job.settings.maxDepth ≤ s.depth + left') (entry : Entry) :
    (job.enterAt left' entry).run s = (job.enterAt left entry).run s := by
  induction left generalizing left' s entry with
  | zero => rw [run_enterAt_of_le job h, run_enterAt_of_le job h]
  | succ left ih =>
      by_cases hdeep : job.settings.maxDepth ≤ s.depth
      · rw [run_enterAt_of_le job hdeep, run_enterAt_of_le job hdeep]
      · obtain ⟨left', rfl⟩ : ∃ less, left' = less + 1 := ⟨left' - 1, by omega⟩
        have hopened : (job.opened (job.enterAt left') entry).run s.enter =
            (job.opened (job.enterAt left) entry).run s.enter := by
          refine job.opened_congr (job.enterAt_restores left) (fun entry s' hs' => ?_) entry
          have hdepth : s'.depth = s.depth + 1 := hs'
          exact ih (by omega) (by omega) entry
        rw [enterAt_succ, enterAt_succ, Action.run_inLevel_of_not_le _ hdeep,
          Action.run_inLevel_of_not_le _ hdeep, hopened]

/-- An entry is carried out one level deeper, and all entries there in the same way. -/
theorem enter_eq (entry : Entry) :
    job.enter entry = (job.opened job.enter entry).inLevel job.settings.maxDepth := by
  funext s
  change (job.enterAt job.settings.maxDepth entry).run s =
    ((job.opened job.enter entry).inLevel job.settings.maxDepth).run s
  by_cases hdeep : job.settings.maxDepth ≤ s.depth
  · rw [run_enterAt_of_le job hdeep, Action.run_inLevel_of_le _ hdeep]
  · rw [job.enterAt_congr (by omega : _ ≤ s.depth + (job.settings.maxDepth + 1)) (by omega),
      enterAt_succ]
    rfl

/-! ## The recursion of a run -/

/-- Carry out an entry by a call for what it leads to, one level deeper. -/
def entering (call : Task → Action Unit) (entry : Entry) : Action Unit :=
  (call (.entry entry)).inLevel job.settings.maxDepth

/-- Carry out a body by a call for it. -/
def within (call : Task → Action Unit) (focus : Focus) (body : List Instruction) : Action Unit :=
  call (.body focus body)

/-- What one call does, by means of other calls. -/
def step (call : Task → Action Unit) : Task → Action Unit
  | .whole params => job.mainBy (job.entering call) (within call) params
  | .entry (.template template focus passed) =>
    (job.insideBy (within call) focus template passed).inFrame
  | .entry (.children node mode) => job.applyAll (job.entering call) mode [] node.children
  | .body focus body => body.forM (job.performBy (job.entering call) (within call) focus)

/-- What is carried out for a task in a run. -/
def carried : Task → Action Unit
  | .whole params => job.main params
  | .entry entry => job.opened job.enter entry
  | .body focus body => job.performAll job.enter focus body

/-- What is carried out in a run solves the recursion. -/
theorem carried_eq (task : Task) : job.carried task = job.step job.carried task := by
  have henter : job.entering job.carried = job.enter :=
    funext fun entry => (job.enter_eq entry).symm
  cases task with
  | whole params =>
      simp only [step, henter]
      exact job.main_eq params
  | entry entry =>
      cases entry with
      | template template focus passed => exact job.carryOut_eq job.enter focus template passed
      | children node mode =>
          simp only [step, henter]
          rfl
  | body focus body =>
      simp only [step, henter]
      exact job.performAll_eq job.enter focus body

/-! ## The calls that a call makes -/

/-- How large a task is, apart from the levels that it leads to. -/
noncomputable def size : Task → Nat
  | .whole _ => sizeOf job.stylesheet.globals
  | .entry (.template template _ _) => sizeOf template.params + (sizeOf template.body + 1)
  | .entry (.children ..) => 0
  | .body _ body => sizeOf body

/-- What a task may be called from: from a larger one at the same depth, or one level deeper where
the limit allows it. -/
def MayCall (task : Task) (depth : Nat) (call : Task × State) : Prop :=
  call.2.depth = depth ∧ job.size call.1 < job.size task ∨
    call.2.depth = depth + 1 ∧ call.2.depth ≤ job.settings.maxDepth

/-- Calls cannot go on for ever: with each one, the levels that are left become fewer, or they stay
and the task becomes smaller. -/
theorem wellFounded_mayCall :
    WellFounded fun call caller : Task × State => job.MayCall caller.1 caller.2.depth call := by
  refine Subrelation.wf (fun {call caller} h => ?_) (InvImage.wf
    (fun caller : Task × State => (job.settings.maxDepth - caller.2.depth, job.size caller.1))
    (Prod.lex Nat.lt_wfRel Nat.lt_wfRel).wf)
  change Prod.Lex (· < ·) (· < ·) (job.settings.maxDepth - call.2.depth, job.size call.1)
    (job.settings.maxDepth - caller.2.depth, job.size caller.1)
  rcases h with ⟨hdepth, hsize⟩ | ⟨hdepth, hlimit⟩
  · rw [hdepth]
    exact .right _ hsize
  · exact .left _ _ (by omega)

/-- Every task leaves the depth as it finds it. -/
theorem depth_carried (task : Task) (s : State) :
    ((job.carried task).run s).state.depth = s.depth := by
  have hrestores := job.enterAt_restores job.settings.maxDepth
  have h := job.compositional_consults (fun _ : Unit => job.enter) (fun _ : Unit => job.enter) ()
    fun _ _ => True
  have henter (entry : Entry) : Action.Consults (fun _ : Unit => job.enter) () (fun _ _ => True)
      fun _ => job.enter entry :=
    Action.consults_const fun s => congrArg State.depth (hrestores entry s)
  cases task with
  | whole params =>
      have hmain := h.main (fun _ => job.settings.maxDepth) (fun entry _ => henter entry)
        (Action.consults_const fun _ => rfl) (fun hx => hx.between _ _)
        (fun _ _ _ => Action.consults_const fun _ => rfl)
        (fun _ _ => trivial : params.All fun _ => True)
      exact (hmain s).1
  | entry entry => exact (job.consults_opened hrestores entry s).1
  | body focus body =>
      have hbody := h.performAll (fun _ => job.settings.maxDepth) (fun entry _ => henter entry)
        focus body
      exact (hbody s).1

section Calls

variable (task : Task)

theorem consults_entering (entry : Entry) :
    Action.Consults (fun call => call) job.carried (job.MayCall task)
      fun call => job.entering call entry := by
  intro s
  by_cases hdeep : job.settings.maxDepth ≤ s.depth
  · have hrun (call : Task → Action Unit) : (job.entering call entry).run s =
        (Action.fail (.tooDeep job.settings.maxDepth) : Action Unit).run s :=
      Action.run_inLevel_of_le _ hdeep
    exact ⟨by rw [hrun]; rfl, [], List.forall_mem_nil _, fun call _ => by rw [hrun, hrun]⟩
  · have hrun (call : Task → Action Unit) :=
      Action.run_inLevel_of_not_le (call (.entry entry)) hdeep
    have hdepth := job.depth_carried (.entry entry) s.enter
    unfold entering
    refine ⟨?_, [(.entry entry, s.enter)], ?_, fun call hcall => ?_⟩
    · rw [hrun]
      change ((job.carried (.entry entry)).run s.enter).state.depth - 1 = s.depth
      rw [hdepth]
      rfl
    · refine List.forall_mem_singleton.2 (.inr ⟨rfl, ?_⟩)
      change s.depth + 1 ≤ job.settings.maxDepth
      omega
    · rw [hrun, hrun, hcall _ List.mem_cons_self]

theorem consults_within (focus : Focus) (body : List Instruction)
    (h : sizeOf body < job.size task) :
    Action.Consults (fun call => call) job.carried (job.MayCall task)
      fun call => within call focus body :=
  Action.consults_answer (job.depth_carried (.body focus body)) fun _ => .inl ⟨rfl, h⟩

/-- One call asks for finitely many others, each of which is smaller or one level deeper. -/
theorem consults_step :
    Action.Consults (fun call => call) job.carried (job.MayCall task)
      fun call => job.step call task := by
  have h := job.compositional_consults job.entering (fun call => call) job.carried
    (job.MayCall task)
  have henter (entry : Entry) := job.consults_entering task entry
  have hwithin := job.consults_within task
  cases task with
  | whole params =>
      exact h.mainBy (fun _ => job.settings.maxDepth) (fun entry _ => henter entry) within
        hwithin (Action.consults_const fun _ => rfl) (fun hx => hx.between _ _)
        (fun _ _ _ => Action.consults_const fun _ => rfl) (fun _ _ => trivial) (Nat.le_refl _)
  | entry entry =>
      cases entry with
      | template template focus passed =>
          exact (h.insideBy (fun _ => job.settings.maxDepth) within hwithin template focus
            (fun _ _ => trivial) (Nat.le_add_right _ _)
              (Nat.lt_add_left _ (Nat.lt_succ_self _))).between _ _
      | children node mode =>
          exact h.applyAll (fun _ => job.settings.maxDepth) (fun entry _ => henter entry) mode
            (fun _ _ => trivial) node.children
  | body focus body =>
      exact h.bodyBy (fun _ => job.settings.maxDepth) (fun entry _ => henter entry) within hwithin
        focus body (Nat.le_refl _)

end Calls

/-! ## Finite trees of calls -/

/-- A task that starts in a state ends with an outcome: finitely many calls, each of which may be
made and ends in its turn, decide what becomes of it.  Counted with them, it takes so many calls. -/
inductive Ends : Task → State → Nat → Outcome Unit → Prop where
  | intro {task : Task} {s : State} {outcome : Outcome Unit} (calls : List (Task × State))
    (count : Task × State → Nat) (answer : Task × State → Outcome Unit)
    (hmay : ∀ call ∈ calls, job.MayCall task s.depth call)
    (hends : ∀ call ∈ calls, Ends call.1 call.2 (count call) (answer call))
    (hdone : ∀ carry : Task → Action Unit,
      (∀ call ∈ calls, (carry call.1).run call.2 = answer call) →
        (job.step carry task).run s = outcome) :
    Ends task s ((calls.map count).sum + 1) outcome

variable {job}

/-- A task ends in one way only, which is that of the run. -/
theorem Ends.eq {task : Task} {s : State} {count : Nat} {outcome : Outcome Unit}
    (h : job.Ends task s count outcome) : outcome = (job.carried task).run s := by
  induction h with
  | @intro task s outcome calls count answer hmay hends hdone ih =>
      have hrun := hdone job.carried fun call hcall => (ih call hcall).symm
      rw [← hrun, ← job.carried_eq task]

variable (job)

/-- By induction along the calls: each one ends if all those end that it may make. -/
theorem exists_ends (task : Task) (s : State) :
    ∃ count, job.Ends task s count ((job.carried task).run s) := by
  have hall : ∀ call : Task × State,
      ∃ count, job.Ends call.1 call.2 count ((job.carried call.1).run call.2) := by
    intro call
    induction call using job.wellFounded_mayCall.induction with
    | _ caller ih =>
        obtain ⟨-, calls, hmay, hsame⟩ := job.consults_step caller.1 caller.2
        have hcounts : ∀ call, ∃ count, call ∈ calls →
            job.Ends call.1 call.2 count ((job.carried call.1).run call.2) := by
          intro call
          by_cases hcall : call ∈ calls
          · obtain ⟨count, hcount⟩ := ih call (hmay call hcall)
            exact ⟨count, fun _ => hcount⟩
          · exact ⟨0, fun h => absurd h hcall⟩
        choose count hcount using hcounts
        refine ⟨_, .intro calls count (fun call => (job.carried call.1).run call.2) hmay hcount ?_⟩
        intro carry hcarry
        rw [job.carried_eq caller.1]
        exact hsame carry hcarry
  exact hall (task, s)

/-- The recursion has one solution. -/
theorem eq_carried {carry : Task → Action Unit} (h : ∀ task, carry task = job.step carry task) :
    carry = job.carried := by
  have hall : ∀ call : Task × State,
      (carry call.1).run call.2 = (job.carried call.1).run call.2 := by
    intro call
    induction call using job.wellFounded_mayCall.induction with
    | _ caller ih =>
        obtain ⟨-, calls, hmay, hsame⟩ := job.consults_step caller.1 caller.2
        rw [h caller.1, job.carried_eq caller.1]
        exact hsame carry fun call hcall => ih call (hmay call hcall)
  exact funext fun task => funext fun s => hall (task, s)

/-- **Every run ends.**  For every stylesheet, whatever its templates call, for every document and
every limit: calls work on something smaller at the same depth or one level deeper, as far as the
limit goes, and cannot go on for ever; one function alone solves the recursion of a run, which has
no count of levels left in it; and for all values from outside a run ends after finitely many calls,
in whatever state it starts, in one way only. -/
theorem run_ends :
    (WellFounded fun call caller : Task × State => job.MayCall caller.1 caller.2.depth call) ∧
    (∀ carry : Task → Action Unit,
      (∀ task, carry task = job.step carry task) ↔ carry = job.carried) ∧
    ∀ (params : Scope) (s : State),
      ∃ count, job.Ends (.whole params) s count ((job.main params).run s) ∧
        ∀ other outcome, job.Ends (.whole params) s other outcome →
          outcome = (job.main params).run s := by
  refine ⟨job.wellFounded_mayCall, fun carry => ⟨job.eq_carried, ?_⟩, fun params s => ?_⟩
  · rintro rfl
    exact job.carried_eq
  · obtain ⟨count, hcount⟩ := job.exists_ends (.whole params) s
    exact ⟨count, hcount, fun _ _ h => h.eq⟩

end Job

end Restyle
