import Mathlib
import Restyle.Pattern.Matching
import Restyle.Proofs.Expr.Reading
import Restyle.Proofs.Expr.Steps

/-!
# Restyle.Proofs.Pattern.Agreement

Matching agrees with evaluation.

A pattern is matched from its last step up to its first, one node at a time; the expression that it
was read from is evaluated from its first step down to its last, on whole lists of nodes.  Both come
to the same: the pattern is for a node if the expression selects the node from some node above it,
or from the node itself.

* `PatternStep.steps`, `PathPattern.route` — the steps of a path that make a pattern;
* `PatternStep.reaches_steps` — what it means to meet one step;
* `PathPattern.meets_iff_reaches` — and to meet them all, by induction from the last one up;
* `Pattern.eval_eq_of_alternatives` — what the expression selects;
* `Pattern.accepts_iff_selected` — the main result.
-/

namespace Restyle

/-! ## The path behind a pattern -/

/-- The steps of a path that a link stands for: none for `/` and one for `//`. -/
def Link.steps : Link → List Step
  | .child => []
  | .descendant => [Step.descendantOrSelf]

namespace PatternStep

/-- The step of a path that a step of a pattern was made from. -/
def step (step : PatternStep) : Step := ⟨step.axis.axis, step.test, step.predicates⟩

/-- The same with the step for the link in front of it. -/
def steps (step : PatternStep) : List Step := step.link.steps ++ [step.step]

theorem looksDown_step (step : PatternStep) : step.step.axis.LooksDown := by
  cases haxis : step.axis <;> rw [PatternStep.step, haxis] <;> trivial

theorem looksDown_of_mem_steps {step : PatternStep} {other : Step} (h : other ∈ step.steps) :
    other.axis.LooksDown := by
  rcases List.mem_append.1 h with h | h
  · cases hlink : step.link with
    | child =>
        rw [hlink] at h
        cases h
    | descendant =>
        rw [hlink] at h
        rw [List.mem_singleton.1 h]
        trivial
  · rw [List.mem_singleton.1 h]
    exact step.looksDown_step

end PatternStep

theorem Step.eq_descendantOrSelf {step : Step} (h : step.isDescendantOrSelf = true) :
    step = Step.descendantOrSelf := by
  obtain ⟨axis, test, predicates⟩ := step
  simp only [Step.isDescendantOrSelf, Bool.and_eq_true, beq_iff_eq, List.isEmpty_iff] at h
  obtain ⟨⟨rfl, rfl⟩, rfl⟩ := h
  rfl

namespace PathPattern

/-- The steps of the path that a pattern was made from. -/
def route (path : PathPattern) : List Step := path.steps.flatMap PatternStep.steps

/-- Where the path that a pattern was made from starts, as seen from a node. -/
def start (path : PathPattern) (ctx : Context) (c : Node) : Node :=
  if path.absolute then ctx.document.root else c

theorem holds_start (path : PathPattern) {ctx : Context} {c : Node} (hc : ctx.document.Holds c) :
    ctx.document.Holds (path.start ctx c) := by
  unfold start
  split
  · exact .root
  · exact hc

theorem looksDown_of_mem_route {path : PathPattern} {step : Step} (h : step ∈ path.route) :
    step.axis.LooksDown := by
  obtain ⟨patternStep, -, h⟩ := List.mem_flatMap.1 h
  exact PatternStep.looksDown_of_mem_steps h

theorem holds_of_reaches {path : PathPattern} {ctx : Context} {c n : Node}
    (hc : ctx.document.Holds c) (h : Reaches ctx path.route (path.start ctx c) n) :
    ctx.document.Holds n :=
  (path.holds_start hc).of_reaches h

end PathPattern

namespace Pattern

/-- A pattern is made of the steps of its path, where the step for a link may have been met
already. -/
theorem steps_of_linkSteps {link : Link} {steps : List Step} {linked : List PatternStep}
    (h : linkSteps link steps = .ok linked) :
    linked.flatMap PatternStep.steps = link.steps ++ steps := by
  induction steps generalizing link linked with
  | nil =>
      cases link with
      | child =>
          obtain rfl := Except.ok.inj h
          rfl
      | descendant => cases h
  | cons step steps ih =>
      obtain ⟨axis, test, predicates⟩ := step
      have hcons (axis' : PatternAxis) (haxis : axis'.axis = axis)
          (h : (linkSteps .child steps >>= fun rest =>
            pure (PatternStep.mk axis' test predicates link :: rest)) = .ok linked) :
          linked.flatMap PatternStep.steps = link.steps ++ ⟨axis, test, predicates⟩ :: steps := by
        obtain ⟨rest, hrest, h⟩ := bind_eq_ok.1 h
        obtain rfl := Except.ok.inj h
        rw [List.flatMap_cons, ih hrest, PatternStep.steps, PatternStep.step, haxis]
        exact List.append_assoc _ _ _
      unfold linkSteps at h
      split at h
      · next hstep =>
        cases link with
        | child =>
            rw [ih h, Step.eq_descendantOrSelf hstep]
            rfl
        | descendant => cases h
      · cases axis with
        | child => exact hcons .child rfl h
        | attr => exact hcons .attr rfl h
        | _ => cases h

end Pattern

/-! ## One step -/

/-- Whether a node is where something hangs that is joined to it by a link. -/
def Link.Joins : Link → Node → Node → Prop
  | .child, m, n => n.parent = some m
  | .descendant, m, n => m ∈ n.ancestors

/-- By `/`, only the node right above another one is joined to it. -/
theorem Link.exists_joins_child {P : Node → Prop} {n p : Node} (hparent : n.parent = some p) :
    (∃ m, P m ∧ Link.child.Joins m n) ↔ P p := by
  constructor
  · rintro ⟨m, hm, hjoins⟩
    obtain rfl := Option.some.inj (hparent.symm.trans hjoins)
    exact hm
  · intro hp
    exact ⟨p, hp, hparent⟩

namespace PatternStep

variable {ctx : Context} {step : PatternStep} {n p m : Node}

/-- Whether a step leads to a node from the node above it. -/
def Met (ctx : Context) (step : PatternStep) (n : Node) : Prop :=
  ∃ p, n.parent = some p ∧ Leads ctx step.step p n

theorem mem_candidates (hn : ctx.document.Holds n) :
    n ∈ step.axis.axis.candidates step.test p ↔
      n.parent = some p ∧ step.onAxis n = true ∧ step.test.accepts step.axis.axis n = true := by
  unfold Axis.candidates
  rw [List.mem_filter, ← and_assoc]
  refine and_congr_left fun _ => ?_
  unfold onAxis
  cases step.axis with
  | child =>
      refine hn.mem_children.trans (and_congr_right fun hparent => ?_)
      have hroot : n.kind ≠ .root := by
        intro hkind
        rw [hn.eq_root hkind] at hparent
        cases hparent
      simp [hroot]
  | attr =>
      refine hn.mem_attributes.trans (and_congr_right fun hparent => ?_)
      simp

theorem parent_of_leads (hn : ctx.document.Holds n) (h : Leads ctx step.step p n) :
    n.parent = some p := by
  obtain ⟨kept, hkept, hmem⟩ := h
  exact ((mem_candidates hn).1 (mem_of_mem_narrow hkept hmem)).1

/-- A node on the axis of a step has a node above it. -/
theorem exists_parent (hn : ctx.document.Holds n) (h : step.onAxis n = true) :
    ∃ p, n.parent = some p := by
  cases hn with
  | root => cases haxis : step.axis <;> rw [onAxis, haxis] at h <;> cases h
  | child _ _ => exact ⟨_, rfl⟩
  | attr _ _ => exact ⟨_, rfl⟩

/-- Where it does not fail, matching a step finds out whether the step leads to the node. -/
theorem accepts_iff_met (hn : ctx.document.Holds n) {b : Bool} (h : step.accepts ctx n = .ok b) :
    b = true ↔ step.Met ctx n := by
  unfold accepts at h
  split at h
  · next hguard =>
    obtain rfl := Except.ok.inj h
    refine ⟨nofun, ?_⟩
    rintro ⟨p, hparent, kept, hkept, hmem⟩
    obtain ⟨-, haxis, htest⟩ := (mem_candidates hn).1 (mem_of_mem_narrow hkept hmem)
    rw [haxis, htest] at hguard
    cases hguard
  · next hguard =>
    obtain ⟨haxis, htest⟩ : step.onAxis n = true ∧ step.test.accepts step.axis.axis n = true := by
      simpa using hguard
    obtain ⟨p, hparent⟩ := exists_parent hn haxis
    split at h
    · next hempty =>
      obtain rfl := Except.ok.inj h
      have hmem : n ∈ step.axis.axis.candidates step.test p :=
        (mem_candidates hn).2 ⟨hparent, haxis, htest⟩
      refine ⟨fun _ => ⟨p, hparent, _, ?_, hmem⟩, fun _ => rfl⟩
      change narrow ctx step.predicates _ = _
      rw [List.isEmpty_iff.1 hempty, narrow]
      rfl
    · rw [hparent] at h
      obtain ⟨kept, hkept, h⟩ := bind_eq_ok.1 h
      obtain rfl := Except.ok.inj h
      rw [List.any_eq_true]
      constructor
      · rintro ⟨x, hx, hsame⟩
        have hheld : ctx.document.Holds x :=
          (hn.of_parent hparent).of_mem_candidates (mem_of_mem_narrow hkept hx)
        obtain rfl := hn.eq_of_order_eq hheld (eq_of_beq hsame)
        exact ⟨p, hparent, kept, hkept, hx⟩
      · rintro ⟨p', hparent', kept', hkept', hmem⟩
        obtain rfl := Option.some.inj (hparent.symm.trans hparent')
        obtain rfl := Except.ok.inj (hkept.symm.trans hkept')
        exact ⟨n, hmem, beq_self_eq_true _⟩

/-- To come to a node by the steps behind a step of a pattern is to meet the step there, coming from
where its link joins. -/
theorem reaches_steps (hn : ctx.document.Holds n) :
    Reaches ctx step.steps m n ↔ step.Met ctx n ∧ step.link.Joins m n := by
  unfold steps
  rw [reaches_append]
  cases step.link with
  | child =>
      constructor
      · rintro ⟨a, rfl, h⟩
        have hleads := reaches_singleton.1 h
        exact ⟨⟨m, parent_of_leads hn hleads, hleads⟩, parent_of_leads hn hleads⟩
      · rintro ⟨⟨p, hparent, hleads⟩, hjoins⟩
        obtain rfl := Option.some.inj (hparent.symm.trans hjoins)
        exact ⟨p, rfl, reaches_singleton.2 hleads⟩
  | descendant =>
      have hbelow {a : Node} (hparent : n.parent = some a) :
          a ∈ m.withDescendants ↔ m ∈ n.ancestors := by
        rw [Node.ancestors_eq_of_parent hparent]
        exact (hn.of_parent hparent).mem_withDescendants (hn.kind_parent_ne hparent)
      constructor
      · rintro ⟨a, ha, h⟩
        have hleads := reaches_singleton.1 h
        have hparent := parent_of_leads hn hleads
        exact ⟨⟨a, hparent, hleads⟩,
          (hbelow hparent).1 (leads_descendantOrSelf.1 (reaches_singleton.1 ha))⟩
      · rintro ⟨⟨p, hparent, hleads⟩, hjoins⟩
        exact ⟨p, reaches_singleton.2 (leads_descendantOrSelf.2 ((hbelow hparent).2 hjoins)),
          reaches_singleton.2 hleads⟩

end PatternStep

/-! ## All steps -/

theorem firstHolds_true {α : Type} {test : α → Except ExprError Bool} {as : List α}
    (h : firstHolds test as = .ok true) : ∃ a ∈ as, test a = .ok true := by
  induction as with
  | nil => cases h
  | cons a as ih =>
      rw [firstHolds] at h
      obtain ⟨found, hfound, h⟩ := bind_eq_ok.1 h
      cases found with
      | true => exact ⟨a, List.mem_cons_self, hfound⟩
      | false =>
          obtain ⟨b, hb, htest⟩ := ih h
          exact ⟨b, List.mem_cons_of_mem a hb, htest⟩

theorem firstHolds_false {α : Type} {test : α → Except ExprError Bool} {as : List α}
    (h : firstHolds test as = .ok false) : ∀ a ∈ as, test a = .ok false := by
  induction as with
  | nil => exact nofun
  | cons a as ih =>
      rw [firstHolds] at h
      obtain ⟨found, hfound, h⟩ := bind_eq_ok.1 h
      cases found with
      | true => cases h
      | false =>
          intro b hb
          rcases List.mem_cons.1 hb with rfl | hb
          · exact hfound
          · exact ih h b hb

/-- Where no test fails, one of them holds if what it tests is true of one of the items. -/
theorem firstHolds_iff {α : Type} {test : α → Except ExprError Bool} {P : α → Prop} {as : List α}
    {b : Bool} (h : firstHolds test as = .ok b)
    (htest : ∀ a ∈ as, ∀ found, test a = .ok found → (found = true ↔ P a)) :
    b = true ↔ ∃ a ∈ as, P a := by
  cases b with
  | true =>
      obtain ⟨a, ha, hfound⟩ := firstHolds_true h
      exact ⟨fun _ => ⟨a, ha, (htest a ha true hfound).1 rfl⟩, fun _ => rfl⟩
  | false =>
      refine ⟨nofun, ?_⟩
      rintro ⟨a, ha, hP⟩
      exact (htest a ha false (firstHolds_false h a ha)).2 hP

namespace PathPattern

variable {ctx : Context} {absolute : Bool} {n : Node}

/-- The first step of a pattern may hang where its path starts. -/
theorem exists_start_iff {link : Link} {p : Node} (hn : ctx.document.Holds n)
    (hparent : n.parent = some p) :
    (!absolute || link == .descendant || n.parent.any fun p => p.kind == .root) = true ↔
      ∃ c, (absolute = true → c = ctx.document.root) ∧ link.Joins c n := by
  have hheld := hn.of_parent hparent
  cases absolute with
  | false =>
      refine ⟨fun _ => ⟨p, nofun, ?_⟩, fun _ => rfl⟩
      cases link with
      | child => exact hparent
      | descendant => exact Node.mem_ancestors_of_parent hparent
  | true =>
      cases link with
      | child =>
          rw [hparent]
          rw [Link.exists_joins_child hparent]
          have hroot : p.kind = .root ↔ p = ctx.document.root := by
            constructor
            · exact hheld.eq_root
            · intro h
              rw [h]
              rfl
          simp [hroot]
      | descendant =>
          refine ⟨fun _ => ⟨ctx.document.root, fun _ => rfl, ?_⟩, fun _ => rfl⟩
          rw [Link.Joins, Node.ancestors_eq_of_parent hparent]
          exact hheld.root_mem

/-- The way to a node comes by a node where the last step is joined to those before it. -/
theorem reaches_reverse_cons (hn : ctx.document.Holds n) {last : PatternStep}
    {rest : List PatternStep} {c : Node} :
    Reaches ctx ((last :: rest).reverse.flatMap PatternStep.steps) c n ↔
      ∃ m, Reaches ctx (rest.reverse.flatMap PatternStep.steps) c m ∧
        last.Met ctx n ∧ last.link.Joins m n := by
  rw [List.reverse_cons, List.flatMap_append, List.flatMap_singleton, reaches_append]
  exact exists_congr fun m => and_congr_right fun _ => PatternStep.reaches_steps hn

/-- Where it does not fail, matching steps from the last one up finds out whether the path that they
were made from leads to the node, from the root or from anywhere. -/
theorem meets_iff_reaches {reversed : List PatternStep} (hne : reversed ≠ [])
    (hn : ctx.document.Holds n) {b : Bool} (h : meets ctx absolute reversed n = .ok b) :
    b = true ↔ ∃ c, (absolute = true → c = ctx.document.root) ∧
      Reaches ctx (reversed.reverse.flatMap PatternStep.steps) c n := by
  induction reversed generalizing n b with
  | nil => exact absurd rfl hne
  | cons last rest ih =>
      simp only [reaches_reverse_cons hn]
      rw [meets] at h
      obtain ⟨accepted, haccepted, h⟩ := bind_eq_ok.1 h
      have hmet := PatternStep.accepts_iff_met hn haccepted
      cases accepted with
      | false =>
          obtain rfl := Except.ok.inj h
          refine ⟨nofun, ?_⟩
          rintro ⟨c, -, m, -, hmet', -⟩
          exact hmet.2 hmet'
      | true =>
          have hmet : last.Met ctx n := hmet.1 rfl
          obtain ⟨p, hparent, -⟩ := id hmet
          simp only [hmet, true_and]
          cases rest with
          | nil =>
              obtain rfl := Except.ok.inj h
              refine (exists_start_iff hn hparent).trans (exists_congr fun c => ?_)
              refine and_congr_right fun _ => ?_
              constructor
              · intro hjoins
                exact ⟨c, rfl, hjoins⟩
              · rintro ⟨m, rfl, hjoins⟩
                exact hjoins
          | cons step steps =>
              rw [if_neg (by decide), if_neg nofun] at h
              cases hlink : last.link with
              | child =>
                  rw [hlink, hparent] at h
                  rw [ih nofun (hn.of_parent hparent) h]
                  simp only [Link.exists_joins_child hparent]
              | descendant =>
                  rw [hlink] at h
                  refine (firstHolds_iff h fun m hm found hfound =>
                    ih nofun (hn.of_mem_ancestors hm) hfound).trans ?_
                  constructor
                  · rintro ⟨m, hm, c, hc, hreaches⟩
                    exact ⟨c, hc, m, hreaches, hm⟩
                  · rintro ⟨c, hc, m, hreaches, hm⟩
                    exact ⟨m, hm, c, hc, hreaches⟩

/-- Where it does not fail, matching an alternative finds out whether the path that it was made from
selects the node from somewhere above, or from the node itself. -/
theorem accepts_iff_reaches {path : PathPattern} (hpath : path.absolute = true ∨ path.steps ≠ [])
    (hn : ctx.document.Holds n) {b : Bool} (h : path.accepts ctx n = .ok b) :
    b = true ↔ ∃ c ∈ n :: n.ancestors, Reaches ctx path.route (path.start ctx c) n := by
  unfold accepts at h
  split at h
  · next hempty =>
    have hsteps : path.steps = [] := List.isEmpty_iff.1 hempty
    have habsolute : path.absolute = true := hpath.resolve_right fun hne => hne hsteps
    obtain rfl := Except.ok.inj h
    unfold route start
    rw [hsteps, habsolute]
    constructor
    · intro hroot
      obtain rfl := hn.eq_root (eq_of_beq hroot)
      exact ⟨_, List.mem_cons_self, rfl⟩
    · rintro ⟨c, -, rfl⟩
      rfl
  · next hempty =>
    have hne : path.steps.reverse ≠ [] := by
      rw [ne_eq, List.reverse_eq_nil_iff]
      exact fun hsteps => hempty (List.isEmpty_iff.2 hsteps)
    refine (meets_iff_reaches hne hn h).trans ?_
    rw [List.reverse_reverse]
    unfold start
    cases path.absolute with
    | false =>
        constructor
        · rintro ⟨c, -, hreaches⟩
          exact ⟨c, mem_of_reaches (fun _ => looksDown_of_mem_route) hreaches, hreaches⟩
        · rintro ⟨c, -, hreaches⟩
          exact ⟨c, nofun, hreaches⟩
    | true =>
        constructor
        · rintro ⟨c, hc, hreaches⟩
          obtain rfl := hc rfl
          exact ⟨n, List.mem_cons_self, hreaches⟩
        · rintro ⟨c, -, hreaches⟩
          exact ⟨ctx.document.root, fun _ => rfl, hreaches⟩

end PathPattern

/-! ## The expression behind a pattern -/

namespace Pattern

variable {ctx : Context} {c n : Node} {position size : Nat}

/-- What steps find that a pattern was made from, as they are followed from one node. -/
theorem followed_eq {path : PathPattern} {steps : List Step} {absolute : Bool} {a : Node}
    {value : Value} (ha : ctx.document.Holds a)
    (hpath : (linkSteps .child steps >>= fun linked => pure ⟨absolute, linked⟩) = .ok path)
    (h : (followSteps (ctx.focus c position size) steps [a] >>= fun found =>
      pure (Value.nodes found)) = .ok value) :
    path.absolute = absolute ∧
      ∃ nodes, value = .nodes nodes ∧ ∀ n, n ∈ nodes ↔ Reaches ctx path.route a n := by
  obtain ⟨linked, hlink, hpath⟩ := bind_eq_ok.1 hpath
  obtain rfl := Except.ok.inj hpath
  obtain ⟨found, hfound, hvalue⟩ := bind_eq_ok.1 h
  obtain rfl := Except.ok.inj hvalue
  have hroute : PathPattern.route ⟨absolute, linked⟩ = steps := steps_of_linkSteps hlink
  rw [followSteps_focus, ← hroute] at hfound
  refine ⟨rfl, found, rfl, fun n => ?_⟩
  rw [mem_followSteps (List.forall_mem_singleton.2 ha) hfound]
  simp

/-- What a path selects that a pattern was made from. -/
theorem eval_eq_of_pathOf {e : Expr} {path : PathPattern} (hpath : pathOf e = .ok path)
    (hc : ctx.document.Holds c) {value : Value}
    (h : e.eval (ctx.focus c position size) = .ok value) :
    ∃ nodes, value = .nodes nodes ∧
      ∀ n, n ∈ nodes ↔ Reaches ctx path.route (path.start ctx c) n := by
  unfold PathPattern.start
  cases e with
  | path start steps =>
      rw [Expr.eval] at h
      cases start with
      | context =>
          rw [startNodes] at h
          obtain ⟨habsolute, hnodes⟩ := followed_eq hc hpath h
          rw [habsolute]
          exact hnodes
      | root =>
          rw [startNodes] at h
          obtain ⟨habsolute, hnodes⟩ := followed_eq .root hpath h
          rw [habsolute]
          exact hnodes
      | value start => cases hpath
  | _ => cases hpath

theorem eval_union (ctx : Context) (left right : Expr) :
    (Expr.binary .union left right).eval ctx = (do
      let l ← left.eval ctx
      let r ← right.eval ctx
      l.union r) := by
  rw [Expr.eval]
  · rfl
  · intro h
    cases h
  · intro h
    cases h

/-- What an expression selects that a pattern was made from: what any of its alternatives does. -/
theorem eval_eq_of_alternatives {e : Expr} {paths : List PathPattern}
    (hpaths : (alternatives e).mapM pathOf = .ok paths) (hc : ctx.document.Holds c) {value : Value}
    (h : e.eval (ctx.focus c position size) = .ok value) :
    ∃ nodes, value = .nodes nodes ∧
      ∀ n, n ∈ nodes ↔ ∃ path ∈ paths, Reaches ctx path.route (path.start ctx c) n := by
  fun_induction alternatives e generalizing paths value with
  | case1 left right ihleft ihright =>
      rw [List.mapM_append] at hpaths
      obtain ⟨first, hfirst, hpaths⟩ := bind_eq_ok.1 hpaths
      obtain ⟨second, hsecond, hpaths⟩ := bind_eq_ok.1 hpaths
      obtain rfl := Except.ok.inj hpaths
      rw [eval_union] at h
      obtain ⟨l, hl, h⟩ := bind_eq_ok.1 h
      obtain ⟨r, hr, h⟩ := bind_eq_ok.1 h
      obtain ⟨ls, rfl, hls⟩ := ihleft hfirst hl
      obtain ⟨rs, rfl, hrs⟩ := ihright hsecond hr
      obtain rfl := Except.ok.inj h
      have hheld : ∀ x ∈ ls ++ rs, ctx.document.Holds x := by
        intro x hx
        rw [List.mem_append, hls, hrs] at hx
        obtain ⟨path, -, hreaches⟩ | ⟨path, -, hreaches⟩ := hx
        · exact PathPattern.holds_of_reaches hc hreaches
        · exact PathPattern.holds_of_reaches hc hreaches
      refine ⟨_, rfl, fun n => ?_⟩
      rw [Node.mem_inOrder hheld, List.mem_append, hls, hrs]
      simp only [List.mem_append, or_and_right, exists_or]
  | case2 e hunion =>
      rw [List.mapM_cons] at hpaths
      obtain ⟨path, hpath, hpaths⟩ := bind_eq_ok.1 hpaths
      obtain rfl := Except.ok.inj hpaths
      obtain ⟨nodes, rfl, hnodes⟩ := eval_eq_of_pathOf hpath hc h
      exact ⟨nodes, rfl, fun n => by simp [hnodes]⟩

/-- An alternative that was read from text has a step, or is for the root itself. -/
theorem absolute_or_steps_ne_nil {e : Expr} (hstepped : e.Stepped) {paths : List PathPattern}
    (hpaths : (alternatives e).mapM pathOf = .ok paths) {path : PathPattern} (h : path ∈ paths) :
    path.absolute = true ∨ path.steps ≠ [] := by
  obtain ⟨alternative, hmem, hpath⟩ := (mem_of_mapM_eq_ok hpaths).1 h
  cases alternative with
  | path start steps =>
      cases start with
      | context =>
          obtain ⟨linked, hlinked, hpath⟩ := bind_eq_ok.1 hpath
          obtain rfl := Except.ok.inj hpath
          refine .inr fun hnil => hstepped ?_
          have hsteps : linked.flatMap PatternStep.steps = steps := steps_of_linkSteps hlinked
          rw [show linked = [] from hnil] at hsteps
          rwa [← hsteps] at hmem
      | root =>
          obtain ⟨linked, -, hpath⟩ := bind_eq_ok.1 hpath
          obtain rfl := Except.ok.inj hpath
          exact .inl rfl
      | value start => cases hpath
  | _ => cases hpath

theorem parse_eq_ok {functions : List String} {text : String} {pattern : Pattern}
    (h : Pattern.parse functions text = .ok pattern) :
    ∃ e, Expr.parse (Text.trimString Text.isBlank text) = .ok e ∧
      (alternatives e).mapM pathOf = .ok pattern.paths := by
  unfold parse at h
  obtain ⟨e, hread, h⟩ := bind_eq_ok.1 (mapError_eq_ok.1 h)
  refine ⟨e, mapError_eq_ok.1 hread, ?_⟩
  split at h
  · cases h
  · obtain ⟨paths, hpaths, h⟩ := bind_eq_ok.1 h
    obtain rfl := Except.ok.inj h
    exact hpaths

/-- **Matching agrees with evaluation.**  A pattern was read from a text as an expression.  Wherever
the evaluation of the expression does not fail, and matching does not fail for a node of the
document, the pattern is for the node if and only if the expression selects it from the node itself
or from some node above it. -/
theorem accepts_iff_selected {functions : List String} {text : String} {pattern : Pattern}
    (hparse : Pattern.parse functions text = .ok pattern) :
    ∃ e, Expr.parse (Text.trimString Text.isBlank text) = .ok e ∧
      ∀ (ctx : Context) (position size : Nat) (n : Node) (b : Bool),
        (∀ c, ctx.document.Holds c → ∃ value, e.eval (ctx.focus c position size) = .ok value) →
        ctx.document.Holds n → pattern.accepts ctx n = .ok b →
        (b = true ↔ ∃ c ∈ n :: n.ancestors, ∃ nodes,
          e.eval (ctx.focus c position size) = .ok (.nodes nodes) ∧ n ∈ nodes) := by
  obtain ⟨e, hread, hpaths⟩ := parse_eq_ok hparse
  refine ⟨e, hread, fun ctx position size n b heval hn haccepts => ?_⟩
  have hstepped : e.Stepped := Expr.stepped_of_parse hread
  have hmatched : b = true ↔ ∃ path ∈ pattern.paths, ∃ c ∈ n :: n.ancestors,
      Reaches ctx path.route (path.start ctx c) n :=
    firstHolds_iff haccepts fun path hpath found hfound =>
      PathPattern.accepts_iff_reaches (absolute_or_steps_ne_nil hstepped hpaths hpath) hn hfound
  rw [hmatched]
  constructor
  · rintro ⟨path, hpath, c, hc, hreaches⟩
    have hheld : ctx.document.Holds c := hn.of_mem_self_ancestors hc
    obtain ⟨value, hvalue⟩ := heval c hheld
    obtain ⟨nodes, rfl, hnodes⟩ := eval_eq_of_alternatives hpaths hheld hvalue
    exact ⟨c, hc, nodes, hvalue, (hnodes n).2 ⟨path, hpath, hreaches⟩⟩
  · rintro ⟨c, hc, nodes, hvalue, hmem⟩
    have hheld : ctx.document.Holds c := hn.of_mem_self_ancestors hc
    obtain ⟨found, hfound, hnodes⟩ := eval_eq_of_alternatives hpaths hheld hvalue
    obtain rfl := Value.nodes.inj hfound
    obtain ⟨path, hpath, hreaches⟩ := (hnodes n).1 hmem
    exact ⟨path, hpath, c, hc, hreaches⟩

/-- A document of one element with an attribute. -/
def marked : Document := ⟨[.element ⟨none, "a"⟩ [⟨⟨none, "x"⟩, "1"⟩] []]⟩

/-- Its element. -/
def markedElement : Node :=
  .child marked.root 0 1 (.element ⟨none, "a"⟩ [⟨⟨none, "x"⟩, "1"⟩] [])

/-- The predicate that asks for the attribute. -/
def hasMark : Expr := .path .context [⟨.attr, .name "x", []⟩]

theorem mem_of_holds_marked (h : marked.Holds c) :
    c = marked.root ∨ c = markedElement ∨ c = .attr markedElement 0 ⟨⟨none, "x"⟩, "1"⟩ := by
  induction h with
  | root => exact .inl rfl
  | @child parent index tree _ htree ih =>
      obtain rfl | rfl | rfl := ih
      · obtain ⟨rfl, rfl⟩ : index = 0 ∧ tree = .element ⟨none, "a"⟩ [⟨⟨none, "x"⟩, "1"⟩] [] := by
          cases index with
          | zero => exact ⟨rfl, (Option.some.inj htree).symm⟩
          | succ index => cases htree
        exact .inr (.inl rfl)
      · cases htree
      · cases htree
  | @attr parent index content _ hcontent ih =>
      obtain rfl | rfl | rfl := ih
      · cases hcontent
      · obtain ⟨rfl, rfl⟩ : index = 0 ∧ content = ⟨⟨none, "x"⟩, "1"⟩ := by
          cases index with
          | zero => exact ⟨rfl, (Option.some.inj hcontent).symm⟩
          | succ index => cases hcontent
        exact .inr (.inr rfl)
      · cases hcontent

/-- The pattern `a[@x]` is for the element, so its expression selects the element. -/
theorem accepts_iff_selected_marked :
    ∃ c ∈ markedElement :: markedElement.ancestors, ∃ nodes,
      (Expr.path .context [⟨.child, .name "a", [hasMark]⟩]).eval
          ⟨c, marked, 1, 1, Function.names, fun _ => none⟩ = .ok (.nodes nodes) ∧
        markedElement ∈ nodes := by
  have hparse : Pattern.parse Function.names "a[@x]" =
      .ok ⟨"a[@x]", [⟨false, [⟨.child, .name "a", [hasMark], .child⟩]⟩]⟩ := by cbv
  have hexpr : Expr.parse (Text.trimString Text.isBlank "a[@x]") =
      .ok (.path .context [⟨.child, .name "a", [hasMark]⟩]) := by cbv
  have hheld : marked.Holds markedElement :=
    Document.Holds.root.of_mem_children (List.mem_singleton_self markedElement)
  have haccepts : Pattern.accepts ⟨marked.root, marked, 1, 1, Function.names, fun _ => none⟩
      ⟨"a[@x]", [⟨false, [⟨.child, .name "a", [hasMark], .child⟩]⟩]⟩ markedElement =
        .ok true := by cbv
  obtain ⟨e, hread, h⟩ := accepts_iff_selected hparse
  obtain rfl := Except.ok.inj (hread.symm.trans hexpr)
  refine (h ⟨marked.root, marked, 1, 1, Function.names, fun _ => none⟩ 1 1 markedElement true
    (fun c hc => ?_) hheld haccepts).1 rfl
  obtain rfl | rfl | rfl := mem_of_holds_marked hc
  · exact ⟨.nodes [markedElement], by cbv⟩
  · exact ⟨.nodes [], by cbv⟩
  · exact ⟨.nodes [], by cbv⟩

end Pattern

end Restyle
