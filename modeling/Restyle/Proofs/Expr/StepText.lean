import Mathlib
import Restyle.Proofs.Expr.Readable

/-!
# Restyle.Proofs.Expr.StepText

Steps and paths read back.

A step is written with axis and test.  Axes and tests share prefixes with each other and with names
and function names, so most of what is shown here is what is *not* read: no other test where a name
stands (`kindTests_eq_none`, `qualifiedTest_eq_none`), nothing that a path may start with where the
word of an axis stands (`filtered_word`), and no step behind a path (`step_follows`).

* `nodeTest_written`, `step_written`, `furtherSteps_written` — tests, steps and their repetition;
* `reads_context`, `reads_root`, `reads_value` — paths, one lemma for each start.
-/

namespace Restyle

open Grammar

variable {n : Nat} {rest : List Char}

/-! ## Steps -/

theorem axis_word (axis : Axis) (s : List Char) :
    Grammar.axis (axis.word ++ ':' :: ':' :: s) = some (axis, s) := by
  cases axis <;> rfl

/-- No step abbreviates one that starts with the word of its axis. -/
theorem axisTest_word (axis : Axis) (s : List Char) :
    axisTest (axis.word ++ ':' :: ':' :: s) =
      (nodeTest s).map fun found => ((axis, found.1), found.2) := by
  have hat : skip ['@'] (axis.word ++ ':' :: ':' :: s) = none := by cases axis <;> rfl
  simp only [axisTest, hat, Option.map_none, axis_word, Option.getD_some]

/-- A word is not followed by a round bracket in a text where a name stands in front of something
else. -/
theorem skipSpaced_paren_of_word {word name tail left : List Char}
    (hword : ∀ c ∈ word, isNameChar c = true) (hname : ∀ c ∈ name, isNameChar c = true ∨ c = ':')
    (hstop : ∀ c ∈ tail.head?, isNameChar c = false) (htail : skipSpaced ['('] tail = none)
    (h : skip word (name ++ tail) = some left) : skipSpaced ['('] left = none := by
  obtain ⟨others, rfl, rfl⟩ | ⟨others, rfl, rfl⟩ :=
    List.append_eq_append_iff.1 (skip_eq_some_iff.1 h)
  · -- The word is longer than the name, so that what follows the name would go on with it.
    cases others with
    | nil => exact htail
    | cons c others =>
        have hc := hstop c rfl
        rw [hword c (by simp)] at hc
        simp at hc
  · cases others with
    | nil => exact htail
    | cons c others =>
        have hc : c ≠ '(' ∧ Text.isXmlSpace c = false := by
          obtain hc | rfl := hname c (by simp)
          · refine ⟨?_, ?_⟩
            · rintro rfl
              exact absurd hc (by decide)
            · by_contra hspace
              have := Text.isBlank_of_isXmlSpace (by simpa using hspace)
              simp [not_isBlank_of_isNameChar hc] at this
          · decide
        exact skipSpaced_cons_of_ne hc.1.symm hc.2 _ _

/-- A name in front of what may follow it is no test for a kind of node. -/
theorem kindTests_eq_none {name tail : List Char}
    (hname : ∀ c ∈ name, isNameChar c = true ∨ c = ':')
    (hstop : ∀ c ∈ tail.head?, isNameChar c = false) (htail : skipSpaced ['('] tail = none) :
    kindTest (name ++ tail) = none ∧ instructionTest (name ++ tail) = none := by
  have hword (word : List Char) (hword : ∀ c ∈ word, isNameChar c = true) :
      (skip word (name ++ tail)).bind (skipSpaced ['(']) = none := by
    cases h : skip word (name ++ tail) with
    | none => rfl
    | some left => exact skipSpaced_paren_of_word hword hname hstop htail h
  refine ⟨?_, ?_⟩
  · simp only [kindTest, List.findSome?_eq_none_iff]
    intro found hfound
    have hchars : ∀ c ∈ found.1.toList, isNameChar c = true := by
      simp only [kindTests, List.mem_cons, List.not_mem_nil, or_false] at hfound
      obtain rfl | rfl | rfl := hfound <;> exact List.all_eq_true.1 (by decide)
    have := hword found.1.toList hchars
    cases h : skip found.1.toList (name ++ tail) with
    | none => rfl
    | some left =>
        rw [h, Option.bind_some] at this
        simp [emptyParens, this]
  · have := hword "processing-instruction".toList
      (List.all_eq_true.1 (by decide))
    cases h : skip "processing-instruction".toList (name ++ tail) with
    | none => simp only [instructionTest, h, Option.bind_eq_bind, Option.bind_none]
    | some left =>
        rw [h, Option.bind_some] at this
        simp only [instructionTest, h, this, Option.bind_eq_bind, Option.bind_some,
          Option.bind_none]

theorem isNameChar_or_colon {name : List Char} (h : isQName name = true) :
    ∀ c ∈ name, isNameChar c = true ∨ c = ':' := by
  obtain ⟨first, others, rfl, hfirst, hothers⟩ := exists_start_of_isQName h
  intro c hc
  obtain rfl | hc := List.mem_cons.1 hc
  · exact .inl (isNameChar_of_isNameStart hfirst)
  · exact hothers c hc

/-- A test for a processing instruction is read back. -/
theorem instructionTest_written {target : Option String}
    (h : (NodeTest.instruction target).isWritable = true) (rest : List Char) :
    instructionTest ((NodeTest.instruction target).written ++ rest) =
      some (.instruction target, dropSpace rest) := by
  have hskip (s : List Char) : skip "processing-instruction".toList
      ("processing-instruction(".toList ++ s) = some ('(' :: s) := rfl
  have hclose : skipSpaced [')'] (')' :: rest) = some (dropSpace rest) := rfl
  simp only [NodeTest.written_instruction, List.append_assoc, List.cons_append, List.nil_append]
  cases target with
  | none =>
      have hopen : skipSpaced ['('] ('(' :: ')' :: rest) = some (')' :: rest) := rfl
      have hquoted : literal (')' :: rest) = none := rfl
      simp only [Option.elim_none, List.nil_append, instructionTest, hskip, hopen, hquoted, hclose,
        Option.bind_eq_bind, Option.bind_some]
      rfl
  | some target =>
      have hopen : skipSpaced ['('] ('(' :: (quotedText target.toList ++ ')' :: rest)) =
          some (quotedText target.toList ++ ')' :: rest) := by
        rw [skipSpaced, dropSpace_cons (by decide), skip_cons, skip_empty, Option.map_some]
        unfold quotedText
        split <;> rfl
      have hquoted : literal (quotedText target.toList ++ ')' :: rest) =
          some (target.toList, ')' :: rest) := literal_quotedText h _
      simp only [Option.elim_some, instructionTest, hskip, hopen, hquoted, hclose,
        Option.bind_eq_bind, Option.bind_some, String.ofList_toList]
      rfl

/-- A name is no test with a qualifier and an asterisk. -/
theorem qualifiedTest_eq_none {name : List Char} (h : isQName name = true)
    (hrest : Follows 0 rest) : qualifiedTest (name ++ rest) = none := by
  have hstop : ∀ c ∈ rest.head?, isNameChar c = false := fun c hc => (hrest.not_isNameChar c hc).1
  obtain hname | ⟨first, second, rfl, hfirst, hsecond⟩ := isQName_cases h
  · have hmark : skip [':', '*'] rest = none := by
      cases rest with
      | nil => rfl
      | cons c rest => exact skip_cons_of_ne (hrest.not_isNameChar c rfl).2.symm _ _
    simp [qualifiedTest, ncName_append hname hstop, hmark]
  · have hcolon : ∀ c ∈ (':' :: (second ++ rest)).head?, isNameChar c = false := by
      simp
      decide
    have hmark : skip [':', '*'] (':' :: (second ++ rest)) = none := by
      cases second with
      | nil => simp [isNCName] at hsecond
      | cons c second =>
          rw [skip_cons, List.cons_append]
          exact skip_cons_of_ne
            (ne_of_isNameStart (isNCName_cons.1 hsecond).1 (by decide)).symm _ _
    simp [qualifiedTest, ncName_append hfirst hcolon, hmark]

/-- What starts like a name is no asterisk. -/
theorem skip_asterisk {c : Char} (h : isNameStart c = true) (s : List Char) :
    skip ['*'] (c :: s) = none :=
  skip_cons_of_ne (ne_of_isNameStart h (by decide)).symm _ _

/-- A node test is read back. -/
theorem nodeTest_written {test : NodeTest} (h : test.isWritable = true) (hrest : Follows 0 rest) :
    ∃ left, nodeTest (test.written ++ rest) = .ok (test, left) ∧
      dropSpace left = dropSpace rest := by
  cases test with
  | any => exact ⟨rest, rfl, rfl⟩
  | text => exact ⟨rest, rfl, rfl⟩
  | node => exact ⟨rest, rfl, rfl⟩
  | comment => exact ⟨rest, rfl, rfl⟩
  | name test =>
      have hname : isQName test.toList = true := h
      obtain ⟨hkind, hinstruction⟩ := kindTests_eq_none (isNameChar_or_colon hname)
        (fun c hc => (hrest.not_isNameChar c hc).1) hrest.skipSpaced_paren
      have hany : skip ['*'] (test.toList ++ rest) = none := by
        obtain ⟨c, cs, hc, hstart, -⟩ := exists_start_of_isQName hname
        rw [hc]
        exact skip_asterisk hstart _
      refine ⟨rest, ?_, rfl⟩
      simp only [nodeTest, NodeTest.written_name, hany, hkind, hinstruction,
        qualifiedTest_eq_none hname hrest, qName_append hname hrest.not_isNameChar,
        String.ofList_toList]
  | qualified qualifier =>
      have hname : isNCName qualifier.toList = true := h
      have hcolon : ∀ c ∈ (':' :: '*' :: rest).head?, isNameChar c = false := by
        simp
        decide
      obtain ⟨hkind, hinstruction⟩ := kindTests_eq_none
        (fun c hc => .inl (isNameChar_of_mem hname hc)) hcolon rfl
      have hany : skip ['*'] (qualifier.toList ++ ':' :: '*' :: rest) = none := by
        cases hc : qualifier.toList with
        | nil => simp [hc, isNCName] at hname
        | cons c cs =>
            rw [hc] at hname
            exact skip_asterisk (isNCName_cons.1 hname).1 _
      refine ⟨rest, ?_, rfl⟩
      simp [nodeTest, NodeTest.written_qualified, hany, hkind, hinstruction, qualifiedTest,
        ncName_append hname hcolon]
  | instruction target =>
      refine ⟨dropSpace rest, ?_, dropSpace_dropSpace rest⟩
      have hkind : skip ['*'] ((NodeTest.instruction target).written ++ rest) = none ∧
          kindTest ((NodeTest.instruction target).written ++ rest) = none := by
        rw [NodeTest.written_instruction, List.append_assoc, List.append_assoc]
        exact ⟨rfl, rfl⟩
      simp only [nodeTest, hkind.1, hkind.2, instructionTest_written h]

/-- What holds of a step that can be read back. -/
def StepReadable (step : Step) : Prop :=
  step.test.isWritable = true ∧ ∀ e ∈ step.predicates, e.Readable

/-- A step is read back. -/
theorem step_written {next : Step} (h : StepReadable next) (hn : (writtenStep next).length ≤ n)
    (hrest : Follows 1 rest) :
    ∃ left, step n (exprAt n) (writtenStep next ++ rest) = .ok (next, left) ∧
      dropSpace left = dropSpace rest := by
  obtain ⟨axis, test, predicates⟩ := next
  have htest : test.isWritable = true := h.1
  have hpredicates : ∀ e ∈ predicates, e.Readable := h.2
  simp only [writtenStep, List.append_assoc, List.cons_append, List.length_append,
    List.length_cons] at hn ⊢
  have hdots (s : List Char) : skip ['.', '.'] (axis.word ++ ':' :: ':' :: s) = none ∧
      skip ['.'] (axis.word ++ ':' :: ':' :: s) = none := by
    cases axis <;> exact ⟨rfl, rfl⟩
  have hfollows : Follows 0 (writtenPredicates predicates ++ rest) := by
    cases predicates with
    | nil => exact hrest.mono (by omega)
    | cons e es => exact .bracket (by omega) _
  obtain ⟨middle, hread, hmiddle⟩ := nodeTest_written htest hfollows
  have hlength : (writtenPredicates predicates).length ≤ n := by omega
  obtain ⟨left, hnarrow, hleft⟩ := many_predicates hpredicates hlength hrest hmiddle
  refine ⟨left, ?_, hleft⟩
  simp [step, hdots, axisTest_word, hread, hnarrow, Except.map, bind, Except.bind, pure, Except.pure]

/-- The text of a step starts with the word of its axis. -/
theorem exists_axis (next : Step) (s : List Char) :
    ∃ (axis : Axis) (tail : List Char), writtenStep next ++ s = axis.word ++ ':' :: ':' :: tail := by
  obtain ⟨axis, test, predicates⟩ := next
  exact ⟨axis, test.written ++ writtenPredicates predicates ++ s, by simp [writtenStep]⟩

/-- A step after a slash is read back. -/
theorem furtherStep_written {next : Step} (h : StepReadable next)
    (hn : (writtenStep next).length ≤ n) (hrest : Follows 1 rest) {s : List Char}
    (hs : dropSpace s = dropSpace ('/' :: writtenStep next ++ rest)) :
    ∃ left, furtherStep n (exprAt n) s = .ok ([next], left) ∧ dropSpace left = dropSpace rest := by
  have hslash : skipSpaced ['/', '/'] ('/' :: writtenStep next ++ rest) = none ∧
      skipSpaced ['/'] ('/' :: writtenStep next ++ rest) = some (writtenStep next ++ rest) := by
    obtain ⟨axis, tail, haxis⟩ := exists_axis next rest
    rw [List.cons_append, haxis]
    cases axis <;> exact ⟨rfl, rfl⟩
  obtain ⟨left, hread, hleft⟩ := step_written h hn hrest
  refine ⟨left, ?_, hleft⟩
  rw [furtherStep, skipSpaced_congr hs, skipSpaced_congr hs]
  simp only [hslash, hread, Except.map]

/-- The text of steps that are read as one item. -/
def groupText (group : List Step) : List Char :=
  group.flatMap fun next => '/' :: writtenStep next

/-- All steps after the first one are read back, and nothing behind them. -/
theorem furtherSteps_written {steps : List Step} (h : ∀ next ∈ steps, StepReadable next)
    (hn : (writtenSteps ['/'] steps).length ≤ n) (hrest : Follows 2 rest) {s : List Char}
    (hs : dropSpace s = dropSpace (writtenSteps ['/'] steps ++ rest)) :
    ∃ left, furtherSteps n (exprAt n) s = (steps, left) ∧ dropSpace left = dropSpace rest := by
  -- What is repeated is read as a list of steps, since `//` brings two.
  have htext : writtenSteps ['/'] steps = (steps.map fun next => [next]).flatMap groupText := by
    rw [writtenSteps_eq]
    simp [groupText, List.flatMap_map]
  have hsingle : ∀ group ∈ steps.map fun next => [next], ∃ next ∈ steps, group = [next] := by
    intro group hgroup
    obtain ⟨next, hnext, rfl⟩ := List.mem_map.1 hgroup
    exact ⟨next, hnext, rfl⟩
  rw [htext] at hn hs
  obtain ⟨left, hread, hleft⟩ : ∃ left,
      many (furtherStep n (exprAt n)) n s = (steps.map fun next => [next], left) ∧
        dropSpace left = dropSpace rest := by
    refine many_reads groupText (Follows 1) (fun s t => dropSpace s = dropSpace t) ?_ ?_
      (hrest.mono (by omega)) ?_ ?_ hs
    · intro group hgroup s tail htail hs
      have hlength := (length_le_of_mem (f := groupText) hgroup).trans hn
      obtain ⟨next, hnext, rfl⟩ := hsingle group hgroup
      simp only [groupText, List.flatMap_cons, List.flatMap_nil, List.append_nil,
        List.length_cons] at hlength hs
      exact furtherStep_written (h next hnext) (by omega) htail hs
    · intro s hs
      refine ⟨s, ?_⟩
      rw [furtherStep, skipSpaced_congr hs, skipSpaced_congr hs,
        hrest.skipSpaced_slash (Nat.le_refl 2), hrest.skipSpaced_slash (Nat.le_refl 2)]
    · intro group hgroup tail
      obtain ⟨next, -, rfl⟩ := hsingle group hgroup
      simp only [groupText, List.flatMap_cons, List.cons_append]
      exact .slash (by omega) _
    · refine (length_le_length_flatMap (f := groupText) fun group hgroup => ?_).trans hn
      obtain ⟨next, -, rfl⟩ := hsingle group hgroup
      simp [groupText]
  refine ⟨left, ?_, hleft⟩
  have hflatten : (steps.map fun next => [next]).flatten = steps := by
    rw [← List.flatMap_def]
    exact List.flatMap_singleton' steps
  simp only [furtherSteps, hread, hflatten]

/-! ## Paths -/

/-- Nothing that a path may start with starts with the word of an axis. -/
theorem filtered_word (axis : Axis) (s : List Char) :
    filtered n (exprAt n) (axis.word ++ ':' :: ':' :: s) = none := by
  have hprimary : primary n (exprAt n) (axis.word ++ ':' :: ':' :: s) = none := by
    cases axis <;> rfl
  simp [filtered, hprimary]

theorem starts_step (k : Nat) (next : Step) (s : List Char) : Starts k (writtenStep next ++ s) := by
  obtain ⟨axis, tail, haxis⟩ := exists_axis next s
  rw [haxis]
  cases axis <;> exact ⟨_, _, rfl, by decide, fun _ => by decide⟩

/-- Neither a step nor another slash follows a path to the root. -/
theorem step_follows (hrest : Follows 2 rest) :
    skip ['/'] rest = none ∧ ∃ place, step n (exprAt n) rest = .error place := by
  cases hrest with
  | nil => exact ⟨rfl, _, rfl⟩
  | close h s => obtain rfl | rfl | rfl := h <;> exact ⟨rfl, _, rfl⟩
  | op o h s => exact ⟨rfl, _, rfl⟩
  | slash h s => omega
  | bracket h s => omega

/-- A location path is read where nothing can be read that a path may start with. -/
theorem path_of_locationPath {s left : List Char} {e : Expr} (hs : dropSpace s = s)
    (hfiltered : filtered n (exprAt n) s = none)
    (h : locationPath n (exprAt n) s = .ok (e, left)) :
    readerAt n 2 s = .ok (e, dropSpace left) := by
  show path n (exprAt n) s = _
  simp only [path, hs, hfiltered, h, Except.map]

/-- Steps are read up to what may follow a path. -/
theorem steps_written {next : Step} {others : List Step} (hnext : StepReadable next)
    (hothers : ∀ step ∈ others, StepReadable step)
    (hn : (writtenSteps [] (next :: others)).length ≤ n) (hrest : Follows 2 rest) :
    ∃ middle left, step n (exprAt n) (writtenSteps [] (next :: others) ++ rest) = .ok (next, middle) ∧
      furtherSteps n (exprAt n) middle = (others, left) ∧ dropSpace left = dropSpace rest := by
  simp only [writtenSteps, List.nil_append, List.length_append, List.append_assoc] at hn ⊢
  have hfollows : Follows 1 (writtenSteps ['/'] others ++ rest) := by
    cases others with
    | nil => exact hrest.mono (by omega)
    | cons step steps => exact .slash (by omega) _
  have hlength : (writtenSteps ['/'] others).length ≤ n := by omega
  obtain ⟨middle, hread, hmiddle⟩ := step_written hnext (n := n) (by omega) hfollows
  obtain ⟨left, hgo, hleft⟩ := furtherSteps_written hothers hlength hrest hmiddle
  exact ⟨middle, left, hread, hgo, hleft⟩

/-- A path from the context node is read back. -/
theorem reads_context {next : Step} {others : List Step} (hnext : StepReadable next)
    (hothers : ∀ step ∈ others, StepReadable step)
    (hn : (Expr.path .context (next :: others)).written.length ≤ n) :
    Reads n 2 (Expr.path .context (next :: others)).written (.path .context (next :: others)) := by
  intro rest hrest
  have htext : (Expr.path .context (next :: others)).written = writtenSteps [] (next :: others) := rfl
  rw [htext] at hn ⊢
  obtain ⟨middle, left, hread, hgo, hleft⟩ := steps_written hnext hothers hn hrest
  rw [← hleft]
  obtain ⟨axis, tail, haxis⟩ : ∃ (axis : Axis) (tail : List Char),
      writtenSteps [] (next :: others) ++ rest = axis.word ++ ':' :: ':' :: tail := by
    simp only [writtenSteps, List.nil_append, List.append_assoc]
    exact exists_axis next _
  rw [haxis] at hread ⊢
  have hslash : skip ['/', '/'] (axis.word ++ ':' :: ':' :: tail) = none ∧
      skip ['/'] (axis.word ++ ':' :: ':' :: tail) = none := by
    cases axis <;> exact ⟨rfl, rfl⟩
  refine path_of_locationPath (by cases axis <;> rfl) (filtered_word axis tail) ?_
  simp only [locationPath, hslash, hread, hgo, bind, Except.bind, pure, Except.pure]

/-- A path from the root, or the root itself, is read back. -/
theorem reads_root {steps : List Step} (hsteps : ∀ step ∈ steps, StepReadable step)
    (hn : (Expr.path .root steps).written.length ≤ n) :
    Reads n 2 (Expr.path .root steps).written (.path .root steps) := by
  intro rest hrest
  have htext : (Expr.path .root steps).written = '/' :: writtenSteps [] steps := rfl
  rw [htext, List.length_cons] at hn
  rw [htext, List.cons_append]
  have hslash (s : List Char) : skip ['/'] ('/' :: s) = some s := by simp
  cases steps with
  | nil =>
      obtain ⟨hnone, place, hplace⟩ := step_follows (n := n) hrest
      have hdouble : skip ['/', '/'] ('/' :: rest) = none := by rw [skip_cons, hnone]
      refine path_of_locationPath (dropSpace_cons (by decide) _) rfl ?_
      simp only [writtenSteps, List.nil_append, locationPath, hdouble, hslash, hplace]
  | cons next others =>
      have hothers : ∀ step ∈ others, StepReadable step := fun step hstep =>
        hsteps step (List.mem_cons_of_mem next hstep)
      obtain ⟨middle, left, hread, hgo, hleft⟩ :=
        steps_written (n := n) (hsteps next List.mem_cons_self) hothers (by omega) hrest
      rw [← hleft]
      have hdouble : skip ['/', '/'] ('/' :: (writtenSteps [] (next :: others) ++ rest)) = none := by
        simp only [writtenSteps, List.nil_append, List.append_assoc]
        obtain ⟨axis, tail, haxis⟩ := exists_axis next (writtenSteps ['/'] others ++ rest)
        rw [haxis]
        cases axis <;> rfl
      refine path_of_locationPath (dropSpace_cons (by decide) _) rfl ?_
      simp only [locationPath, hdouble, hslash, hread, hgo]

/-- A path from the nodes of an expression is read back. -/
theorem reads_value {start : Expr} {steps : List Step} (hstart : start.Readable)
    (hne : steps ≠ []) (hsteps : ∀ step ∈ steps, StepReadable step)
    (hn : (Expr.path (.value start) steps).written.length ≤ n) :
    Reads n 2 (Expr.path (.value start) steps).written (.path (.value start) steps) := by
  intro rest hrest
  have htext : (Expr.path (.value start) steps).written =
      start.bracket 1 start.written ++ writtenSteps ['/'] steps := rfl
  rw [htext, List.length_append] at hn
  rw [htext, List.append_assoc]
  have hfollows : Follows 1 (writtenSteps ['/'] steps ++ rest) := by
    cases steps with
    | nil => exact absurd rfl hne
    | cons step steps => exact .slash (by omega) _
  obtain ⟨middle, hread, hmiddle⟩ :=
    hstart.reads_bracket (n := n) (k := 1) (by omega) _ hfollows
  have hlength : (writtenSteps ['/'] steps).length ≤ n := by omega
  obtain ⟨left, hgo, hleft⟩ := furtherSteps_written hsteps hlength hrest hmiddle
  have hempty : steps.isEmpty = false := by simpa using hne
  show path n (exprAt n) _ = _
  rw [path, (hstart.starts_bracket 1).dropSpace_append]
  simp only [hread, hgo, hempty, hleft, Bool.false_eq_true, if_false]

/-! ## How the texts of steps end -/

theorem ends_nodeTest {test : NodeTest} (h : test.isWritable = true) : Ends test.written := by
  cases test with
  | any => exact ends_append_singleton (by decide) []
  | name test =>
      refine ends_of_forall fun c hc => ?_
      obtain hc | rfl := isNameChar_or_colon (show isQName test.toList = true from h) c hc
      · exact not_isBlank_of_isNameChar hc
      · decide
  | qualified qualifier =>
      rw [NodeTest.written_qualified, show [':', '*'] = [':'] ++ ['*'] from rfl,
        ← List.append_assoc]
      exact ends_append_singleton (by decide) _
  | instruction target => exact ends_append_singleton (by decide) _
  | text => exact ends_append_singleton (by decide) "text(".toList
  | node => exact ends_append_singleton (by decide) "node(".toList
  | comment => exact ends_append_singleton (by decide) "comment(".toList

theorem ends_predicates (es : List Expr) : Ends (writtenPredicates es) := by
  rw [writtenPredicates_eq]
  exact ends_flatMap fun e _ => ends_append_singleton (by decide) ('[' :: e.written)

theorem ends_step {next : Step} (h : StepReadable next) : Ends (writtenStep next) := by
  obtain ⟨axis, test, predicates⟩ := next
  have hcolons : Ends (axis.word ++ [':'] ++ [':']) := ends_append_singleton (by decide) _
  have htest : Ends test.written := ends_nodeTest h.1
  simpa [writtenStep] using (hcolons.append htest).append (ends_predicates predicates)

theorem ends_steps {steps : List Step} (h : ∀ next ∈ steps, StepReadable next) {lead : List Char}
    (hlead : Ends lead) : Ends (writtenSteps lead steps) := by
  induction steps generalizing lead with
  | nil => simp [writtenSteps, Ends]
  | cons next steps ih =>
      have hothers := ih (fun step hstep => h step (List.mem_cons_of_mem next hstep))
        (ends_append_singleton (c := '/') (by decide) [])
      exact (hlead.append (ends_step (h next List.mem_cons_self))).append hothers

end Restyle
