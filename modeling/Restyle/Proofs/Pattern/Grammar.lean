import Mathlib
import Restyle.Proofs.Expr.Calls
import Restyle.Proofs.Pattern.Agreement

/-!
# Restyle.Proofs.Pattern.Grammar

The grammar of patterns.

A pattern is read as an expression, so its grammar is a part of the grammar of expressions: unions of
`/` and of paths of child and attribute steps with `/` or `//` between them.  In a path `//` is a step
of its own, and only where that step stands tells the two separators from one another.  What the
reader of patterns accepts is this grammar, and besides it the paths that start at the context node
with the step for `//`, which no text of the grammar stands for; such a path is ranked as if the step
were not there.

* `Joined`, `Expr.IsAlternative`, `Expr.StartsLoosely` — the grammar and what is accepted besides it;
* `Expr.patternPriority` — the priority that the grammar gives to an alternative;
* `Pattern.exists_linkSteps` — which steps make a pattern, by induction on them;
* `PathPattern.StandsFor` — what a pattern keeps of the alternative that it was made from;
* `Pattern.parse_grammar` — the main result.
-/

namespace Restyle

/-! ## What the grammar says -/

/-- Whether a step may stand in a pattern. -/
def Step.IsMatchable (step : Step) : Prop := step.axis = .child ∨ step.axis = .attr

/-- Steps that may stand in a pattern, joined by `/`, or by `//`, which is a step of its own. -/
inductive Joined : List Step → Prop where
  | last {step : Step} (hstep : step.IsMatchable) : Joined [step]
  | slash {step : Step} {steps : List Step} (hstep : step.IsMatchable) (hsteps : Joined steps) :
      Joined (step :: steps)
  | doubleSlash {step : Step} {steps : List Step} (hstep : step.IsMatchable)
      (hsteps : Joined steps) : Joined (step :: Step.descendantOrSelf :: steps)

/-- The alternatives of a pattern: the root itself, and paths from the context node or from the root,
the latter perhaps with `//` in front. -/
inductive Expr.IsAlternative : Expr → Prop where
  | root : IsAlternative (.path .root [])
  | relative {steps : List Step} (h : Joined steps) : IsAlternative (.path .context steps)
  | absolute {steps : List Step} (h : Joined steps) : IsAlternative (.path .root steps)
  | anywhere {steps : List Step} (h : Joined steps) :
      IsAlternative (.path .root (Step.descendantOrSelf :: steps))

/-- The paths from the context node that start with the step for `//`. -/
inductive Expr.StartsLoosely : Expr → Prop where
  | intro {steps : List Step} (h : Joined steps) :
      StartsLoosely (.path .context (Step.descendantOrSelf :: steps))

/-- The priority of an alternative of a pattern: that of its test, if it is one step from the context
node without predicates, and one half otherwise. -/
def Expr.patternPriority : Expr → Double
  | .path .context [⟨_, test, []⟩] => PathPattern.testPriority test
  | _ => .nearest false 1 2

theorem Expr.patternPriority_singleton {step : Step} :
    (Expr.path .context [step]).patternPriority =
      if step.predicates.isEmpty then PathPattern.testPriority step.test
      else .nearest false 1 2 := by
  obtain ⟨axis, test, predicates⟩ := step
  cases predicates with
  | nil => rfl
  | cons predicate predicates =>
      simp only [List.isEmpty_cons, Bool.false_eq_true, ↓reduceIte]
      rfl

theorem Expr.patternPriority_cons_cons {start : StartOf Expr} {first second : Step}
    {steps : List Step} :
    (Expr.path start (first :: second :: steps)).patternPriority = .nearest false 1 2 := by
  obtain ⟨axis, test, predicates⟩ := first
  cases start <;> cases predicates <;> rfl

theorem Step.not_isMatchable_descendantOrSelf : ¬Step.descendantOrSelf.IsMatchable := by
  rintro (h | h)
  · cases h
  · cases h

/-- Steps in which the one for `//` separates others. -/
structure Separated (steps : List Step) : Prop where
  /-- It is not the last one. -/
  ends : steps.getLast? ≠ some Step.descendantOrSelf
  /-- It does not stand twice in a row. -/
  apart : steps.IsChain fun a b => ¬(a = Step.descendantOrSelf ∧ b = Step.descendantOrSelf)

theorem Separated.cons_cons {first second : Step} {steps : List Step}
    (h : Separated (second :: steps))
    (hfirst : ¬(first = Step.descendantOrSelf ∧ second = Step.descendantOrSelf)) :
    Separated (first :: second :: steps) :=
  ⟨by rw [List.getLast?_cons_cons]; exact h.ends, .cons_cons hfirst h.apart⟩

namespace Joined

variable {step : Step} {steps : List Step}

theorem ne_nil (h : Joined steps) : steps ≠ [] := by
  cases h <;> exact List.cons_ne_nil _ _

theorem isMatchable_head (h : Joined (step :: steps)) : step.IsMatchable := by
  cases h with
  | last hstep => exact hstep
  | slash hstep _ => exact hstep
  | doubleSlash hstep _ => exact hstep

/-- Joined steps are separated, and so they are after the step for `//`. -/
theorem separated_cons (h : Joined steps) (hsteps : Separated steps) :
    Separated (Step.descendantOrSelf :: steps) := by
  obtain ⟨step, rest, rfl⟩ := List.exists_cons_of_ne_nil h.ne_nil
  refine hsteps.cons_cons fun hboth => ?_
  exact Step.not_isMatchable_descendantOrSelf (hboth.2 ▸ h.isMatchable_head)

theorem separated (h : Joined steps) : Separated steps := by
  have hfirst {step : Step} (hstep : step.IsMatchable) : step ≠ Step.descendantOrSelf := by
    rintro rfl
    exact Step.not_isMatchable_descendantOrSelf hstep
  induction h with
  | last hstep => exact ⟨fun hlast => hfirst hstep (Option.some.inj hlast), .singleton _⟩
  | @slash step steps hstep hsteps ih =>
      obtain ⟨next, rest, rfl⟩ := List.exists_cons_of_ne_nil hsteps.ne_nil
      exact ih.cons_cons fun hboth => hfirst hstep hboth.1
  | doubleSlash hstep hsteps ih =>
      exact (hsteps.separated_cons ih).cons_cons fun hboth => hfirst hstep hboth.1

end Joined

variable {step : Step} {steps : List Step}

theorem Expr.IsAlternative.separated {start : StartOf Expr}
    (h : (Expr.path start (step :: steps)).IsAlternative) : Separated (step :: steps) := by
  cases h with
  | relative hjoined => exact hjoined.separated
  | absolute hjoined => exact hjoined.separated
  | anywhere hjoined => exact hjoined.separated_cons hjoined.separated

/-- The grammar knows no path from the context node that starts with the step for `//`. -/
theorem Expr.not_isAlternative_descendantOrSelf :
    ¬(Expr.path .context (Step.descendantOrSelf :: steps)).IsAlternative := by
  rintro (_ | hjoined)
  exact Step.not_isMatchable_descendantOrSelf hjoined.isMatchable_head

theorem Expr.StartsLoosely.separated {start : StartOf Expr}
    (h : (Expr.path start steps).StartsLoosely) : Separated steps := by
  obtain ⟨hjoined⟩ := h
  exact hjoined.separated_cons hjoined.separated

/-! ## Which steps make a pattern -/

namespace Pattern

variable {link : Link}

/-- A step that may stand in a pattern becomes the first step of one. -/
theorem linkSteps_cons_of_isMatchable (hstep : step.IsMatchable) {linked : List PatternStep} :
    linkSteps link (step :: steps) = .ok linked ↔ ∃ axis rest,
      linkSteps .child steps = .ok rest ∧
        linked = ⟨axis, step.test, step.predicates, link⟩ :: rest ∧ axis.axis = step.axis := by
  obtain ⟨axis, test, predicates⟩ := step
  have hcons (axis' : PatternAxis) (haxis : axis'.axis = axis)
      (honly : ∀ other : PatternAxis, other.axis = axis → other = axis') :
      (linkSteps .child steps >>= fun rest =>
          pure (PatternStep.mk axis' test predicates link :: rest)) = .ok linked ↔
        ∃ other rest, linkSteps .child steps = .ok rest ∧
          linked = ⟨other, test, predicates, link⟩ :: rest ∧ other.axis = axis := by
    rw [bind_eq_ok]
    constructor
    · rintro ⟨rest, hrest, h⟩
      exact ⟨axis', rest, hrest, (Except.ok.inj h).symm, haxis⟩
    · rintro ⟨other, rest, hrest, rfl, hother⟩
      obtain rfl := honly other hother
      exact ⟨rest, hrest, rfl⟩
  obtain rfl | rfl : axis = .child ∨ axis = .attr := hstep
  · exact hcons .child rfl fun other hother => by cases other <;> first | rfl | cases hother
  · exact hcons .attr rfl fun other hother => by cases other <;> first | rfl | cases hother

/-- A step can be taken if it may stand in a pattern, or if it is the one for `//` and no such step
stands right before it. -/
theorem exists_linkSteps_cons : (∃ linked, linkSteps link (step :: steps) = .ok linked) ↔
    (step.IsMatchable ∧ ∃ linked, linkSteps .child steps = .ok linked) ∨
      (step = Step.descendantOrSelf ∧ link = .child ∧
        ∃ linked, linkSteps .descendant steps = .ok linked) := by
  constructor
  · rintro ⟨linked, h⟩
    by_cases hloose : step.isDescendantOrSelf = true
    · rw [linkSteps, if_pos hloose] at h
      cases link with
      | child => exact .inr ⟨Step.eq_descendantOrSelf hloose, rfl, linked, h⟩
      | descendant => cases h
    · have hstep : step.IsMatchable := by
        rw [linkSteps, if_neg hloose] at h
        unfold Step.IsMatchable
        split at h
        · next haxis => exact .inl haxis
        · next haxis => exact .inr haxis
        · cases h
      obtain ⟨-, rest, hrest, -⟩ := (linkSteps_cons_of_isMatchable hstep).1 h
      exact .inl ⟨hstep, rest, hrest⟩
  · rintro (⟨hstep, rest, hrest⟩ | ⟨rfl, rfl, linked, h⟩)
    · obtain ⟨axis, haxis⟩ : ∃ axis : PatternAxis, axis.axis = step.axis := by
        obtain h | h := hstep
        · exact ⟨.child, h.symm⟩
        · exact ⟨.attr, h.symm⟩
      exact ⟨_, (linkSteps_cons_of_isMatchable hstep).2 ⟨axis, rest, hrest, rfl, haxis⟩⟩
    · exact ⟨linked, h⟩

/-- Steps make a pattern after `//` if they are joined; elsewhere there may be none, or the one for
`//` may stand before them. -/
theorem exists_linkSteps (steps : List Step) :
    ((∃ linked, linkSteps .descendant steps = .ok linked) ↔ Joined steps) ∧
    ((∃ linked, linkSteps .child steps = .ok linked) ↔ steps = [] ∨ Joined steps ∨
      ∃ rest, steps = Step.descendantOrSelf :: rest ∧ Joined rest) := by
  induction steps with
  | nil =>
      refine ⟨⟨?_, fun h => absurd rfl h.ne_nil⟩, ⟨fun _ => .inl rfl, fun _ => ⟨[], rfl⟩⟩⟩
      rintro ⟨linked, h⟩
      cases h
  | cons step steps ih =>
      obtain ⟨hdescendant, hchild⟩ := ih
      have hjoined : (step.IsMatchable ∧ ∃ linked, linkSteps .child steps = .ok linked) ↔
          Joined (step :: steps) := by
        rw [hchild]
        constructor
        · rintro ⟨hstep, rfl | hsteps | ⟨rest, rfl, hrest⟩⟩
          · exact .last hstep
          · exact .slash hstep hsteps
          · exact .doubleSlash hstep hrest
        · intro h
          cases h with
          | last hstep => exact ⟨hstep, .inl rfl⟩
          | slash hstep hsteps => exact ⟨hstep, .inr (.inl hsteps)⟩
          | doubleSlash hstep hrest => exact ⟨hstep, .inr (.inr ⟨_, rfl, hrest⟩)⟩
      simp only [exists_linkSteps_cons, hjoined, hdescendant]
      simp

end Pattern

/-! ## One alternative -/

/-- What an alternative of a pattern keeps of the expression that it was made from. -/
structure PathPattern.StandsFor (path : PathPattern) (e : Expr) : Prop where
  /-- The steps can be read off, those for `//` included. -/
  source : e = .path (if path.absolute then .root else .context) path.route
  /-- The default priority is the one that the grammar gives. -/
  priority : e.IsAlternative → path.defaultPriority = e.patternPriority
  /-- In front of a path from the context node the step for `//` is not counted. -/
  loosely : ∀ steps, e = .path .context (Step.descendantOrSelf :: steps) →
    path.defaultPriority = (Expr.path .context steps).patternPriority

namespace Pattern

variable {e : Expr}

theorem exists_pathOf (h : e ≠ .path .context []) :
    (∃ path, pathOf e = .ok path) ↔ e.IsAlternative ∨ e.StartsLoosely := by
  have hsteps (absolute : Bool) (steps : List Step) :
      (∃ path, (linkSteps .child steps >>= fun linked => pure (PathPattern.mk absolute linked)) =
        .ok path) ↔ ∃ linked, linkSteps .child steps = .ok linked := by
    simp only [bind_eq_ok]
    constructor
    · rintro ⟨-, linked, hlinked, -⟩
      exact ⟨linked, hlinked⟩
    · rintro ⟨linked, hlinked⟩
      exact ⟨_, linked, hlinked, rfl⟩
  constructor
  · rintro ⟨path, hpath⟩
    cases e with
    | path start steps =>
        cases start with
        | context =>
            obtain rfl | hjoined | ⟨rest, rfl, hrest⟩ :=
              (exists_linkSteps steps).2.1 ((hsteps false steps).1 ⟨path, hpath⟩)
            · exact absurd rfl h
            · exact .inl (.relative hjoined)
            · exact .inr (.intro hrest)
        | root =>
            obtain rfl | hjoined | ⟨rest, rfl, hrest⟩ :=
              (exists_linkSteps steps).2.1 ((hsteps true steps).1 ⟨path, hpath⟩)
            · exact .inl .root
            · exact .inl (.absolute hjoined)
            · exact .inl (.anywhere hrest)
        | value start => cases hpath
    | _ => cases hpath
  · rintro (halternative | hloose)
    · cases halternative with
      | root => exact ⟨_, rfl⟩
      | @relative steps hjoined =>
          exact (hsteps false steps).2 ((exists_linkSteps steps).2.2 (.inr (.inl hjoined)))
      | @absolute steps hjoined =>
          exact (hsteps true steps).2 ((exists_linkSteps steps).2.2 (.inr (.inl hjoined)))
      | @anywhere steps hjoined =>
          exact (hsteps true _).2 ((exists_linkSteps _).2.2 (.inr (.inr ⟨steps, rfl, hjoined⟩)))
    · obtain @⟨steps, hjoined⟩ := hloose
      exact (hsteps false _).2 ((exists_linkSteps _).2.2 (.inr (.inr ⟨steps, rfl, hjoined⟩)))

/-- Whatever stands before them, joined steps make a pattern with the priority that the grammar gives
to the path of these steps. -/
theorem defaultPriority_of_linkSteps (hsteps : Joined steps) {link : Link}
    {linked : List PatternStep} (h : linkSteps link steps = .ok linked) :
    PathPattern.defaultPriority ⟨false, linked⟩ = (Expr.path .context steps).patternPriority := by
  obtain ⟨step, others, rfl⟩ := List.exists_cons_of_ne_nil hsteps.ne_nil
  obtain ⟨axis, rest, hrest, rfl, -⟩ :=
    (linkSteps_cons_of_isMatchable hsteps.isMatchable_head).1 h
  obtain ⟨axis', test, predicates⟩ := step
  cases others with
  | nil =>
      obtain rfl := Except.ok.inj hrest
      rw [Expr.patternPriority_singleton]
      rfl
  | cons next others =>
      obtain ⟨second, rest, rfl⟩ : ∃ second others, rest = second :: others := by
        refine List.exists_cons_of_ne_nil ?_
        rintro rfl
        cases steps_of_linkSteps hrest
      rw [Expr.patternPriority_cons_cons]
      rfl

theorem standsFor_of_pathOf {path : PathPattern} (h : pathOf e = .ok path) : path.StandsFor e := by
  cases e with
  | path start steps =>
      cases start with
      | context =>
          obtain ⟨linked, hlinked, hpath⟩ := bind_eq_ok.1 h
          obtain rfl := Except.ok.inj hpath
          refine ⟨congrArg _ (steps_of_linkSteps hlinked).symm, ?_, ?_⟩
          · rintro (_ | hjoined)
            exact defaultPriority_of_linkSteps hjoined hlinked
          · intro rest hrest
            obtain rfl : steps = Step.descendantOrSelf :: rest := by
              injection hrest
            have hlinked' : linkSteps .descendant rest = .ok linked := hlinked
            exact defaultPriority_of_linkSteps ((exists_linkSteps rest).1.1 ⟨linked, hlinked'⟩) hlinked'
      | root =>
          obtain ⟨linked, hlinked, hpath⟩ := bind_eq_ok.1 h
          obtain rfl := Except.ok.inj hpath
          exact ⟨congrArg _ (steps_of_linkSteps hlinked).symm, fun _ => rfl, nofun⟩
      | value start => cases h
  | _ => cases h

end Pattern

/-! ## The whole text -/

/-- Nothing is left to trim once a text is trimmed. -/
theorem Text.trim_trim (p : Char → Bool) (cs : List Char) :
    Text.trim p (Text.trim p cs) = Text.trim p cs := by
  have hstart : (Text.trim p cs).dropWhile p = Text.trim p cs := by
    have hprefix : Text.trim p cs <+: cs.dropWhile p := List.rdropWhile_prefix p (cs.dropWhile p)
    cases htrim : Text.trim p cs with
    | nil => rfl
    | cons c rest =>
        obtain ⟨blanks, hblanks⟩ := htrim ▸ hprefix
        have hhead := List.head?_dropWhile_not p cs
        rw [← hblanks] at hhead
        rw [List.dropWhile_cons_of_neg (Bool.eq_false_iff.1 hhead)]
  rw [Text.trim, hstart]
  exact List.rdropWhile_idempotent p (cs.dropWhile p)

/-- White space around an expression does not count, so it may be taken away before. -/
theorem Expr.parse_trimString (text : String) :
    Expr.parse (Text.trimString Text.isBlank text) = Expr.parse text := by
  unfold Expr.parse
  rw [Text.trimString, String.toList_ofList, Text.trim_trim]

namespace Pattern

variable {functions : List String} {text : String}

/-- A text is a pattern if it is an expression with known functions all of whose alternatives make
alternatives of a pattern. -/
theorem parse_eq_ok_iff {pattern : Pattern} : Pattern.parse functions text = .ok pattern ↔
    ∃ e, Expr.parse text = .ok e ∧ (∀ name ∈ e.calls, name ∈ functions) ∧
      (alternatives e).mapM pathOf = .ok pattern.paths ∧
      pattern.source = Text.trimString Text.isBlank text := by
  unfold parse
  dsimp only
  rw [Expr.parse_trimString, mapError_eq_ok, bind_eq_ok]
  refine exists_congr fun e => and_congr mapError_eq_ok ?_
  rw [← Expr.find?_calls_eq_none]
  cases e.calls.find? fun name => !functions.contains name with
  | some name => exact ⟨nofun, fun h => nomatch h.1⟩
  | none =>
      simp only [bind_eq_ok, true_and]
      constructor
      · rintro ⟨paths, hpaths, h⟩
        obtain rfl := Except.ok.inj h
        exact ⟨hpaths, rfl⟩
      · rintro ⟨hpaths, hsource⟩
        obtain ⟨source, paths⟩ := pattern
        obtain rfl : source = _ := hsource
        exact ⟨paths, hpaths, rfl⟩

/-- The alternatives of a pattern stand for those of its expression, one for one. -/
theorem standsFor_of_mapM {es : List Expr} {paths : List PathPattern}
    (h : es.mapM pathOf = .ok paths) : List.Forall₂ PathPattern.StandsFor paths es := by
  induction es generalizing paths with
  | nil =>
      obtain rfl := Except.ok.inj h
      exact .nil
  | cons e es ih =>
      rw [List.mapM_cons] at h
      obtain ⟨path, hpath, h⟩ := bind_eq_ok.1 h
      obtain ⟨rest, hrest, h⟩ := bind_eq_ok.1 h
      obtain rfl := Except.ok.inj h
      exact .cons (standsFor_of_pathOf hpath) (ih hrest)

/-- **Patterns are held to their grammar, and ranked by it.**  A text is accepted as a pattern if and
only if it is an expression that calls known functions only, and each of its alternatives is one of
the grammar or starts at the context node with the step for `//`.  None of them then ends with that
step, or has it twice in a row.  The alternatives of the pattern stand for those of the expression,
one for one: their steps are the same, and so is the priority, except that the step for `//` in front
of a path from the context node is not counted. -/
theorem parse_grammar (functions : List String) (text : String) :
    ((∃ pattern, Pattern.parse functions text = .ok pattern) ↔
      ∃ e, Expr.parse text = .ok e ∧ (∀ name ∈ e.calls, name ∈ functions) ∧
        ∀ a ∈ alternatives e, a.IsAlternative ∨ a.StartsLoosely) ∧
    ∀ pattern, Pattern.parse functions text = .ok pattern → ∃ e, Expr.parse text = .ok e ∧
      List.Forall₂ PathPattern.StandsFor pattern.paths (alternatives e) ∧
      ∀ start step steps, .path start (step :: steps) ∈ alternatives e →
        Separated (step :: steps) := by
  have hgrammar {e : Expr} (hread : Expr.parse text = .ok e) :
      (∃ paths, (alternatives e).mapM pathOf = .ok paths) ↔
        ∀ a ∈ alternatives e, a.IsAlternative ∨ a.StartsLoosely := by
    have hstepped : e.Stepped := Expr.stepped_of_parse hread
    rw [exists_mapM_eq_ok]
    exact forall₂_congr fun a ha => exists_pathOf (by rintro rfl; exact hstepped ha)
  constructor
  · constructor
    · rintro ⟨pattern, hpattern⟩
      obtain ⟨e, hread, hcalls, hpaths, -⟩ := parse_eq_ok_iff.1 hpattern
      exact ⟨e, hread, hcalls, (hgrammar hread).1 ⟨_, hpaths⟩⟩
    · rintro ⟨e, hread, hcalls, hall⟩
      obtain ⟨paths, hpaths⟩ := (hgrammar hread).2 hall
      exact ⟨⟨_, paths⟩, parse_eq_ok_iff.2 ⟨e, hread, hcalls, hpaths, rfl⟩⟩
  · intro pattern hpattern
    obtain ⟨e, hread, -, hpaths, -⟩ := parse_eq_ok_iff.1 hpattern
    refine ⟨e, hread, standsFor_of_mapM hpaths, fun start step steps hmem => ?_⟩
    obtain halternative | hloose := (hgrammar hread).1 ⟨_, hpaths⟩ _ hmem
    · exact halternative.separated
    · exact hloose.separated

/-- The root, a path with `//` and a path of one step: each is kept, with its priority. -/
theorem parse_grammar_union :
    let path : List Step := [⟨.child, .name "a", []⟩, Step.descendantOrSelf, ⟨.attr, .name "b", []⟩]
    let paths : List PathPattern := [⟨true, []⟩,
      ⟨false, [⟨.child, .name "a", [], .child⟩, ⟨.attr, .name "b", [], .descendant⟩]⟩,
      ⟨false, [⟨.child, .text, [], .child⟩]⟩]
    Pattern.parse Function.names "/|a//@b|text()" = .ok ⟨"/|a//@b|text()", paths⟩ ∧
      List.Forall₂ PathPattern.StandsFor paths
        [.path .root [], .path .context path, .path .context [⟨.child, .text, []⟩]] ∧
      Separated path := by
  intro path paths
  have hparse : Pattern.parse Function.names "/|a//@b|text()" =
      .ok ⟨"/|a//@b|text()", paths⟩ := by cbv
  have hread : Expr.parse "/|a//@b|text()" = .ok (.binary .union
      (.binary .union (.path .root []) (.path .context path))
      (.path .context [⟨.child, .text, []⟩])) := by cbv
  obtain ⟨e, he, hstands, hseparated⟩ := (parse_grammar _ _).2 _ hparse
  obtain rfl := Except.ok.inj (he.symm.trans hread)
  exact ⟨hparse, hstands, hseparated _ _ _ (.tail _ (.head _))⟩

/-- A path from the context node is accepted although it starts with the step for `//`, and it is
ranked as a path of one step although it has two. -/
theorem parse_loose :
    let e : Expr := .path .context [Step.descendantOrSelf, ⟨.child, .name "a", []⟩]
    let path : PathPattern := ⟨false, [⟨.child, .name "a", [], .descendant⟩]⟩
    Expr.parse "descendant-or-self::node()/a" = .ok e ∧ ¬e.IsAlternative ∧
      Pattern.parse Function.names "descendant-or-self::node()/a" =
        .ok ⟨"descendant-or-self::node()/a", [path]⟩ ∧
      path.defaultPriority = .zero false ∧ e.patternPriority = .nearest false 1 2 := by
  intro e path
  exact ⟨by cbv, Expr.not_isAlternative_descendantOrSelf, by cbv, rfl,
    Expr.patternPriority_cons_cons⟩

end Pattern

end Restyle
