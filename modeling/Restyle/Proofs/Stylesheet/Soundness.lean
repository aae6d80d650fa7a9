import Mathlib
import Restyle.Proofs.Stylesheet.Constructs
import Restyle.Proofs.Stylesheet.Steps

/-!
# Restyle.Proofs.Stylesheet.Soundness

What every step of an assembly keeps.

Two lists are kept of what is open, the constructs and their instructions, and every step changes
them together.  A construct is opened only inside one that takes what it makes, and at its end it
finds that one again, so nothing gets lost.

* `Grounded`, `Assembly.Sound` — the invariant of the steps;
* `Assembly.Sound.push`, `Assembly.Sound.amend`, `Assembly.Sound.emit` — what steps are made of;
* `Assembly.Sound.start`, `Assembly.Sound.text`, `Assembly.Sound.stop` — one step.
-/

namespace Restyle

open Markup (Place)

/-! ## What is open -/

/-- Constructs stand inside ones that take what they make, and all stand in a document. -/
def Grounded : List OpenConstruct → Prop
  | [] => False
  | [bottom] => bottom.construct = .document
  | inner :: outer :: others =>
    outer.construct.takes inner.construct = true ∧ Grounded (outer :: others)

theorem Grounded.getLast? {opened : List OpenConstruct} (h : Grounded opened) :
    opened.getLast?.map OpenConstruct.construct = some .document := by
  induction opened with
  | nil => exact absurd h id
  | cons inner outer ih =>
      cases outer with
      | nil => exact congrArg some h
      | cons next others =>
          rw [List.getLast?_cons_cons]
          exact ih h.2

namespace Assembly

/-- What is true of a stylesheet in the making. -/
structure Sound (a : Assembly) : Prop where
  /-- There are instructions for each open construct. -/
  inStep : a.bodies.length = a.opened.length
  grounded : Grounded a.opened
  constructs : ∀ element ∈ a.opened, element.construct.Sound
  bodies : ∀ body ∈ a.bodies, ∀ part ∈ body, part.Tested
  made : (Stylesheet.mk a.rules a.globals a.output).WellFormed

theorem sound_empty : empty.Sound := by
  refine ⟨rfl, rfl, fun element helement => ?_, fun body hbody => ?_,
    ⟨List.nodup_nil, nofun, nofun⟩⟩
  · obtain rfl := List.mem_singleton.1 helement
    exact ⟨nofun, trivial⟩
  · obtain rfl := List.mem_singleton.1 hbody
    exact nofun

variable {a : Assembly}

theorem Sound.exists_opened (h : a.Sound) : ∃ inner outer, a.opened = inner :: outer := by
  cases hopened : a.opened with
  | nil =>
      have hground := h.grounded
      rw [hopened] at hground
      exact hground.elim
  | cons inner outer => exact ⟨inner, outer, rfl⟩

theorem Sound.parent (h : a.Sound) : a.parent.Sound := by
  obtain ⟨inner, outer, hopened⟩ := h.exists_opened
  rw [Assembly.parent, hopened]
  exact h.constructs inner (hopened ▸ List.mem_cons_self)

@[simp] theorem length_opened_amend (a : Assembly) (change : Construct → Construct) :
    (a.amend change).opened.length = a.opened.length := by
  unfold amend
  split
  · rfl
  · next hopened => simp [hopened]

@[simp] theorem opened_emit (a : Assembly) (instruction : Instruction) :
    (a.emit instruction).opened = a.opened := by
  unfold emit
  split <;> rfl

theorem Sound.push (h : a.Sound) {construct : Construct} (hconstruct : construct.Sound)
    (htakes : a.parent.takes construct = true) (place : Place) :
    (a.push construct place).Sound := by
  obtain ⟨inner, outer, hopened⟩ := h.exists_opened
  have hgrounded : Grounded (⟨construct, place⟩ :: a.opened) := by
    have hground := h.grounded
    rw [Assembly.parent, hopened] at htakes
    rw [hopened] at hground ⊢
    exact ⟨htakes, hground⟩
  refine ⟨congrArg (· + 1) h.inStep, hgrounded, fun element helement => ?_, fun body hbody => ?_,
    h.made⟩
  · obtain rfl | helement := List.mem_cons.1 helement
    · exact hconstruct
    · exact h.constructs element helement
  · obtain rfl | hbody := List.mem_cons.1 hbody
    · exact List.forall_mem_nil _
    · exact h.bodies body hbody

theorem Sound.amend (h : a.Sound) {change : Construct → Construct}
    (hreplaces : (change a.parent).Replaces a.parent) (hsound : (change a.parent).Sound) :
    (a.amend change).Sound := by
  obtain ⟨inner, outer, hopened⟩ := h.exists_opened
  have hparent : a.parent = inner.construct := by rw [Assembly.parent, hopened]
  have hamend : a.amend change =
      { a with opened := ⟨change inner.construct, inner.place⟩ :: outer } := by
    rw [Assembly.amend, hopened]
  rw [hparent] at hreplaces hsound
  have hground := h.grounded
  rw [hopened] at hground
  rw [hamend]
  refine ⟨?_, ?_, fun element helement => ?_, h.bodies, h.made⟩
  · rw [h.inStep, hopened]
    rfl
  · cases outer with
    | nil => exact hreplaces.document hground
    | cons next others => exact ⟨(hreplaces.taken _).trans hground.1, hground.2⟩
  · obtain rfl | helement := List.mem_cons.1 helement
    · exact hsound
    · exact h.constructs element (hopened ▸ List.mem_cons_of_mem _ helement)

theorem Sound.emit (h : a.Sound) {instruction : Instruction} (htested : instruction.Tested) :
    (a.emit instruction).Sound := by
  unfold Assembly.emit
  split
  · exact h
  · next body outer hbodies =>
    refine ⟨?_, h.grounded, h.constructs, fun other hother => ?_, h.made⟩
    · rw [← h.inStep, hbodies]
      rfl
    · obtain rfl | hother := List.mem_cons.1 hother
      · refine List.forall_mem_cons.2 ⟨htested, h.bodies body (hbodies ▸ List.mem_cons_self)⟩
      · exact h.bodies other (hbodies ▸ List.mem_cons_of_mem _ hother)

/-- An assembly is sound and so many constructs are open. -/
def Reaches (count : Nat) (a : Assembly) : Prop := a.Sound ∧ a.opened.length = count

/-- The innermost construct gives way to a sound one of the same kind. -/
theorem Sound.replace (h : a.Sound) {old new : Construct} (hparent : a.parent = old)
    (hcall : new.isCall = old.isCall) (hchoice : new.isChoice = old.isChoice)
    (htemplate : new.isTemplate = old.isTemplate)
    (hnew : ∀ outer : Construct, outer.takes new = true)
    (hold : ∀ outer : Construct, outer.takes old = true) (hsound : new.Sound) :
    Reaches a.opened.length (a.amend fun _ => new) := by
  subst hparent
  exact ⟨h.amend (Construct.replaces_of_kind hcall hchoice htemplate hnew hold) hsound,
    length_opened_amend a _⟩

theorem Sound.push_fresh (h : a.Sound) {construct : Construct} (hfresh : construct.Fresh)
    (place : Place) : Reaches (a.opened.length + 1) (a.push construct place) :=
  ⟨h.push hfresh.sound (hfresh.taken _) place, rfl⟩

/-! ## Start tags -/

variable (tag : StyleTag)

theorem yields_expectTop (element : String) (parent : Construct) :
    Yields (fun _ => True) (expectTop tag element parent) := by
  unfold expectTop
  split
  · exact .ok trivial
  · exact tag.yields_problem _

theorem yields_expectChoice (element : String) (parent : Construct) :
    Yields (fun _ => parent.isChoice = true) (expectChoice tag element parent) := by
  unfold expectChoice
  split
  · exact .ok rfl
  · exact tag.yields_problem _
  · exact tag.yields_problem _

theorem Sound.begin (h : a.Sound) (element : String) :
    Yields (Reaches a.opened.length) (a.begin tag element) := by
  obtain ⟨inner, outer, hopened⟩ := h.exists_opened
  unfold Assembly.begin
  rw [hopened]
  dsimp only
  split
  · refine .ok ⟨h.amend (Construct.replaces_markContent _) h.parent.markContent, ?_⟩
    rw [length_opened_amend, hopened]
  · exact tag.yields_problem _

theorem Sound.startParam (h : a.Sound) :
    Yields (Reaches (a.opened.length + 1)) (a.startParam tag) := by
  have hpush (isGlobal : Bool) (htakes : ∀ name select,
      a.parent.takes (.param name select isGlobal) = true) :
      Yields (Reaches (a.opened.length + 1)) (do
        let named ← tag.nameAndSelect "xsl:param"
        return a.push (.param named.1 named.2 isGlobal) tag.place) :=
    (tag.yields_nameAndSelect _).bind fun _ _ =>
      .ok ⟨h.push (Construct.sound_of_empty (.param _ _ _) rfl trivial) (htakes _ _) _, rfl⟩
  unfold Assembly.startParam
  dsimp only
  split
  · exact hpush true fun _ _ => rfl
  · next hparent => exact hpush false fun _ _ => by rw [hparent]; rfl
  · exact tag.yields_problem _
  · exact tag.yields_problem _

theorem Sound.startVariable (h : a.Sound) :
    Yields (Reaches (a.opened.length + 1)) (a.startVariable tag) := by
  have hpush (begun : Assembly) (hbegun : Reaches a.opened.length begun) (isGlobal : Bool) :
      Yields (Reaches (a.opened.length + 1)) (do
        let named ← tag.nameAndSelect "xsl:variable"
        return begun.push (.variable named.1 named.2 isGlobal) tag.place) := by
    refine (tag.yields_nameAndSelect _).bind fun named _ => .ok ?_
    rw [← hbegun.2]
    exact hbegun.1.push_fresh (Construct.fresh_of_empty (.variable _ _ _) rfl trivial fun _ => rfl)
      tag.place
  unfold Assembly.startVariable
  dsimp only
  split
  · exact hpush a ⟨h, rfl⟩ true
  · exact (h.begin tag _).bind fun begun hbegun => hpush begun hbegun false

theorem Sound.startWithParam (h : a.Sound) :
    Yields (Reaches (a.opened.length + 1)) (a.startWithParam tag) := by
  have hpush (htakes : a.parent.isCall = true) : Yields (Reaches (a.opened.length + 1)) (do
      let named ← tag.nameAndSelect "xsl:with-param"
      return a.push (.withParam named.1 named.2) tag.place) :=
    (tag.yields_nameAndSelect _).bind fun _ _ =>
      .ok ⟨h.push (Construct.sound_of_empty (.withParam _ _) rfl trivial) htakes _, rfl⟩
  unfold Assembly.startWithParam
  dsimp only
  split
  · next hparent => exact hpush (by rw [hparent]; rfl)
  · next hparent => exact hpush (by rw [hparent]; rfl)
  · exact tag.yields_problem _

theorem Sound.addSort (h : a.Sound) (key : SortKey) :
    Yields (Reaches a.opened.length) (a.addSort tag key) := by
  obtain ⟨inner, outer, hopened⟩ := h.exists_opened
  have hinner : inner.construct = a.parent := by rw [Assembly.parent, hopened]
  have hsound := h.parent
  unfold Assembly.addSort
  rw [hopened]
  dsimp only
  rw [hinner, ← hopened]
  split
  · next hparent =>
    rw [hparent] at hsound
    exact .ok (h.replace hparent rfl rfl rfl (fun _ => rfl) (fun _ => rfl)
      ⟨hsound.tested, trivial⟩)
  · next hparent =>
    rw [hparent] at hsound
    exact .ok (h.replace hparent rfl rfl rfl (fun _ => rfl) (fun _ => rfl)
      ⟨hsound.tested, trivial⟩)
  · exact tag.yields_problem _
  · exact tag.yields_problem _

theorem Sound.startSort (h : a.Sound) :
    Yields (Reaches (a.opened.length + 1)) (a.startSort tag) := by
  refine tag.yields_sortKey.bind fun key _ => (h.addSort tag key).bind fun sorted hsorted => .ok ?_
  rw [← hsorted.2]
  exact hsorted.1.push_fresh (Construct.fresh_of_empty (.empty _ none) rfl trivial fun _ => rfl)
    tag.place

theorem Sound.startInstruction (h : a.Sound) (element : String) {read : Except Failure Construct}
    (hread : Yields Construct.Fresh read) :
    Yields (Reaches (a.opened.length + 1)) (do
      let begun ← a.begin tag element
      return begun.push (← read) tag.place) := by
  refine (h.begin tag element).bind fun begun hbegun => hread.bind fun construct hfresh => .ok ?_
  rw [← hbegun.2]
  exact hbegun.1.push_fresh hfresh tag.place

theorem Sound.startLanguage (h : a.Sound) (localPart : String) :
    Yields (Reaches (a.opened.length + 1)) (a.startLanguage tag localPart) := by
  have hempty (name : String) : Construct.Fresh (.empty name none) :=
    Construct.fresh_of_empty _ rfl trivial fun _ => rfl
  unfold Assembly.startLanguage
  split
  · exact (yields_expectTop tag _ _).bind fun _ _ =>
      tag.yields_templateConstruct.bind fun construct hfresh => .ok (h.push_fresh hfresh tag.place)
  · refine (yields_expectTop tag _ _).bind fun _ _ =>
      tag.yields_outputForm.bind fun form _ => .ok ?_
    have hform : ({ a with output := form } : Assembly).Sound :=
      ⟨h.inStep, h.grounded, h.constructs, h.bodies, h.made.globals, h.made.values,
        h.made.templates⟩
    exact hform.push_fresh (hempty _) tag.place
  · exact (yields_expectTop tag _ _).bind fun _ _ => .ok (h.push_fresh (hempty _) tag.place)
  · exact (yields_expectTop tag _ _).bind fun _ _ => .ok (h.push_fresh (hempty _) tag.place)
  · exact h.startParam tag
  · exact h.startVariable tag
  · exact h.startWithParam tag
  · exact h.startSort tag
  · exact (yields_expectChoice tag _ _).bind fun _ hchoice =>
      (tag.yields_requiredExpr _ _).bind fun _ _ =>
        .ok ⟨h.push (Construct.sound_of_empty (.when _) rfl trivial) hchoice tag.place, rfl⟩
  · exact (yields_expectChoice tag _ _).bind fun _ hchoice =>
      .ok ⟨h.push (Construct.sound_of_empty .otherwise rfl trivial) hchoice tag.place, rfl⟩
  · split
    · next hconstruct =>
      exact h.startInstruction tag _ (tag.yields_instructionConstruct? hconstruct)
    · exact tag.yields_problem _

/-- A start tag opens one more construct. -/
theorem Sound.start (h : a.Sound) : Yields (Reaches (a.opened.length + 1)) (a.start tag) := by
  have hignored : Reaches (a.opened.length + 1) (a.push .ignored tag.place) :=
    h.push_fresh (Construct.fresh_of_empty .ignored rfl trivial fun _ => rfl) tag.place
  unfold Assembly.start
  split
  · exact .ok hignored
  · unfold startDocument
    split
    · split
      · exact .ok (h.push_fresh
          (Construct.fresh_of_empty .stylesheet rfl trivial fun _ => rfl) tag.place)
      · exact tag.yields_problem _
    · exact tag.yields_problem _
  · exact h.startLanguage tag _
  · exact .ok hignored
  · exact h.startInstruction tag _ (tag.yields_literalConstruct _)

/-! ## Text -/

theorem tested_text (content : String) : Instruction.Tested (.text content) := .intro nofun nofun

/-- Text changes nothing but the instructions of what is open. -/
theorem Sound.text (h : a.Sound) (content : String) (place : Place) :
    Yields (Reaches a.opened.length) (a.text content place) := by
  obtain ⟨inner, outer, hopened⟩ := h.exists_opened
  unfold Assembly.text
  split
  · refine .ok ⟨h.emit (tested_text content), ?_⟩
    rw [opened_emit]
  · exact .ok ⟨h, rfl⟩
  · split
    · exact .ok ⟨h, rfl⟩
    · rw [hopened]
      dsimp only
      rw [← hopened]
      split
      · have hmarked := h.amend (Construct.replaces_markContent _) h.parent.markContent
        refine .ok ⟨hmarked.emit (tested_text content), ?_⟩
        rw [opened_emit, length_opened_amend]
      · exact .error nofun

/-! ## End tags -/

theorem yields_valueSource (element : String) (place : Place) (select : Option Expr)
    (body : List Instruction) :
    Yields (fun value => ∀ part ∈ value.parts, part ∈ body)
      (valueSource element place select body) := by
  unfold valueSource
  split
  · exact .error nofun
  · exact .ok nofun
  · exact .ok nofun
  · exact .ok fun _ hpart => hpart

theorem Sound.addGlobal (h : a.Sound) (place : Place) {new : Global}
    (hnew : ∀ part ∈ new.value.parts, part.Tested) :
    Yields (Reaches a.opened.length) (a.addGlobal place new) := by
  unfold Assembly.addGlobal
  split
  · exact .error nofun
  · next hfresh =>
    have hmade : (Stylesheet.mk a.rules (a.globals ++ [new]) a.output).WellFormed := by
      refine ⟨?_, fun global hglobal => ?_, h.made.templates⟩
      · change ((a.globals ++ [new]).map Global.name).Nodup
        rw [List.map_append, List.map_singleton]
        refine List.nodup_append.2 ⟨h.made.globals, List.nodup_singleton _, ?_⟩
        simpa using hfresh
      · obtain hglobal | hlast := List.mem_append.1 hglobal
        · exact h.made.values global hglobal
        · rw [List.mem_singleton.1 hlast]
          exact hnew
    exact .ok ⟨⟨h.inStep, h.grounded, h.constructs, h.bodies, hmade⟩, rfl⟩

theorem Sound.addParam (h : a.Sound) (place : Place) (name : String)
    {value : ValueSource Instruction} (hvalue : ∀ part ∈ value.parts, part.Tested) :
    Yields (Reaches a.opened.length) (a.addParam place name value) := by
  have hsound := h.parent
  unfold Assembly.addParam
  split
  · next template pattern mode priority params hasContent hparent =>
    split
    · exact .error nofun
    · next hfresh =>
      rw [hparent] at hsound
      obtain ⟨hreachable, hmode, hnodup⟩ := hsound.declared
      refine .ok (h.replace hparent rfl rfl rfl (fun _ => rfl) (fun _ => rfl)
        ⟨fun part hpart => ?_, hreachable, hmode, ?_⟩)
      · rw [Construct.parts, List.flatMap_append, List.mem_append] at hpart
        obtain hpart | hpart := hpart
        · exact hsound.tested part hpart
        · exact hvalue part (by simpa using hpart)
      · rw [List.map_append, List.map_singleton]
        refine List.nodup_append.2 ⟨hnodup, List.nodup_singleton _, ?_⟩
        intro other hother added hadded heq
        obtain ⟨param, hparam, rfl⟩ := List.mem_map.1 hother
        rw [List.mem_singleton.1 hadded] at heq
        exact hfresh (List.any_eq_true.2 ⟨param, hparam, by simp [heq]⟩)
  · exact .ok ⟨h, rfl⟩

theorem Sound.addPassed (h : a.Sound) (htakes : a.parent.isCall = true) (name : String)
    {value : ValueSource Instruction} (hvalue : ∀ part ∈ value.parts, part.Tested) :
    Yields (Reaches a.opened.length) (a.addPassed name value) := by
  have hsound := h.parent
  have htested {passed : List (String × ValueSource Instruction)}
      (hpassed : ∀ part ∈ passed.flatMap fun value => value.2.parts, part.Tested) :
      ∀ part ∈ (passed ++ [(name, value)]).flatMap fun value => value.2.parts, part.Tested := by
    intro part hpart
    rw [List.flatMap_append, List.mem_append] at hpart
    obtain hpart | hpart := hpart
    · exact hpassed part hpart
    · exact hvalue part (by simpa using hpart)
  unfold Assembly.addPassed
  cases hparent : a.parent with
  | applyTemplates | callTemplate =>
      rw [hparent] at hsound
      exact .ok (h.replace hparent rfl rfl rfl (fun _ => rfl) (fun _ => rfl)
        ⟨htested hsound.tested, trivial⟩)
  | _ =>
      rw [hparent] at htakes
      cases htakes

theorem amend_eq (a : Assembly) (change : Construct → Construct) :
    a.amend change = a.amend fun _ => change a.parent := by
  unfold amend Assembly.parent
  split <;> rfl

/-- A branch goes to the choice it stands in. -/
theorem Sound.addBranch (h : a.Sound) (htakes : a.parent.isChoice = true)
    {change : Construct → Construct} {body : List Instruction}
    (hchange : ∀ whens last, ∃ whens' last', change (.choose whens last) = .choose whens' last' ∧
      ∀ part ∈ (Construct.choose whens' last').parts,
        part ∈ (Construct.choose whens last).parts ∨ part ∈ body)
    (hbody : ∀ part ∈ body, part.Tested) :
    Reaches a.opened.length (a.amend change) := by
  cases hparent : a.parent with
  | choose whens last =>
      have hsound := h.parent
      obtain ⟨whens', last', hchanged, hparts⟩ := hchange whens last
      rw [hparent] at hsound
      rw [amend_eq, hparent, hchanged]
      refine h.replace hparent rfl rfl rfl (fun _ => rfl) (fun _ => rfl)
        ⟨fun part hpart => ?_, trivial⟩
      exact (hparts part hpart).elim (hsound.tested part) (hbody part)
  | _ =>
      rw [hparent] at htakes
      cases htakes

theorem Sound.addTemplate (h : a.Sound) {name : Option String} {pattern : Option Pattern}
    {mode : Option String} {priority : Option Double}
    {params : List (String × ValueSource Instruction)} {hasContent : Bool}
    (hconstruct : (Construct.template name pattern mode priority params hasContent).Sound)
    {body : List Instruction} (hbody : ∀ part ∈ body, part.Tested) (place : Place) :
    Yields (Reaches a.opened.length)
      (a.close place body (.template name pattern mode priority params hasContent)) := by
  obtain ⟨hreachable, hmode, hnodup⟩ := hconstruct.declared
  have htemplate : (Template.mk name pattern mode priority params body).WellFormed :=
    ⟨hreachable, hmode, hnodup, fun param hparam part hpart =>
      hconstruct.tested part (List.mem_flatMap.2 ⟨param, hparam, hpart⟩), hbody⟩
  have hadded : Yields (fun rules => (Stylesheet.mk rules a.globals a.output).WellFormed)
      ((a.rules.add ⟨name, pattern, mode, priority, params, body⟩).mapError
        (.stylesheet · place)) := by
    cases hadd : a.rules.add ⟨name, pattern, mode, priority, params, body⟩ with
    | error problem => exact .error nofun
    | ok rules =>
        refine .ok ⟨h.made.globals, h.made.values, fun template hmem => ?_⟩
        obtain hold | rfl := Rules.mem_templates_add hadd hmem
        · exact h.made.templates template hold
        · exact htemplate
  exact hadded.bind fun rules hmade =>
    .ok ⟨⟨h.inStep, h.grounded, h.constructs, h.bodies, hmade⟩, rfl⟩

/-- Closing a construct inside one that takes it hands on what it made, and nothing else changes. -/
theorem Sound.close (h : a.Sound) {construct : Construct} (hconstruct : construct.Sound)
    (htakes : a.parent.takes construct = true) {body : List Instruction}
    (hbody : ∀ part ∈ body, part.Tested) (place : Place) :
    Yields (Reaches a.opened.length) (a.close place body construct) := by
  have hemit {instruction : Instruction} (htested : instruction.Tested) :
      Yields (Reaches a.opened.length) (.ok (a.emit instruction)) :=
    .ok ⟨h.emit htested, congrArg List.length (opened_emit a instruction)⟩
  have hsource (element : String) (select : Option Expr) :
      Yields (fun value => ∀ part ∈ value.parts, part.Tested)
        (valueSource element place select body) :=
    (yields_valueSource element place select body).mono fun value hvalue part hpart =>
      hbody part (hvalue part hpart)
  cases construct with
  | document => cases htakes
  | stylesheet | ignored => exact .ok ⟨h, rfl⟩
  | template => exact h.addTemplate hconstruct hbody place
  | param name select isGlobal =>
      refine (hsource _ select).bind fun value hvalue => ?_
      cases isGlobal with
      | true => exact h.addGlobal place hvalue
      | false => exact h.addParam place name hvalue
  | «variable» name select isGlobal =>
      refine (hsource _ select).bind fun value hvalue => ?_
      cases isGlobal with
      | true => exact h.addGlobal place hvalue
      | false => exact hemit (.intro nofun hvalue)
  | withParam name select =>
      exact (hsource _ select).bind fun value hvalue => h.addPassed htakes name hvalue
  | applyTemplates | callTemplate => exact hemit (.intro nofun hconstruct.tested)
  | forEach | ifThen | literal | element | attr | copy | comment | message =>
      exact hemit (.intro nofun hbody)
  | choose whens last =>
      simp only [Assembly.close]
      split
      · exact .error nofun
      · next hwhens =>
        have htested : Instruction.Tested (.choose whens last) := by
          refine .intro ?_ hconstruct.tested
          rintro whens' last' ⟨⟩
          simpa using hwhens
        exact hemit htested
  | «when» test =>
      refine .ok (h.addBranch htakes (fun whens last =>
        ⟨whens ++ [(test, body)], last, rfl, fun part hpart => ?_⟩) hbody)
      simp only [Construct.parts, List.flatMap_append, List.flatMap_singleton,
        List.mem_append] at hpart ⊢
      tauto
  | otherwise =>
      refine .ok (h.addBranch htakes (fun whens last =>
        ⟨whens, some body, rfl, fun part hpart => ?_⟩) hbody)
      simp only [Construct.parts, List.mem_append, Option.getD_some] at hpart ⊢
      tauto
  | text =>
      have hfold (instructions : List Instruction) (hall : ∀ part ∈ instructions, part.Tested) :
          ∀ a' : Assembly, Reaches a.opened.length a' →
            Reaches a.opened.length (instructions.foldl Assembly.emit a') := by
        induction instructions with
        | nil => exact fun _ h' => h'
        | cons instruction instructions ih =>
            intro a' h'
            obtain ⟨hfirst, hothers⟩ := List.forall_mem_cons.1 hall
            refine ih hothers _ ⟨h'.1.emit hfirst, ?_⟩
            rw [opened_emit, h'.2]
      exact .ok (hfold body hbody a ⟨h, rfl⟩)
  | empty name made =>
      cases made with
      | none => exact .ok ⟨h, rfl⟩
      | some instruction => exact hemit (hconstruct.tested instruction (List.mem_singleton.2 rfl))

/-- An end tag closes a construct, if any is open but the document. -/
theorem Sound.stop (h : a.Sound) {count : Nat} (hcount : a.opened.length = count + 2) :
    Yields (Reaches (count + 1)) a.stop := by
  obtain ⟨inner, outer, hopened⟩ := h.exists_opened
  have hground := h.grounded
  have hstep := h.inStep
  rw [hopened] at hcount hground hstep
  cases outer with
  | nil => simp at hcount
  | cons next others =>
      cases hbodies : a.bodies with
      | nil => simp [hbodies] at hstep
      | cons body bodies =>
          rw [hbodies] at hstep
          have hinner : inner ∈ a.opened := hopened ▸ List.mem_cons_self
          have hbody : ∀ part ∈ body.reverse, part.Tested := fun part hpart =>
            h.bodies body (hbodies ▸ List.mem_cons_self) part (List.mem_reverse.1 hpart)
          let outside : Assembly := { a with opened := next :: others, bodies := bodies }
          have houtside : outside.Sound :=
            ⟨Nat.succ.inj hstep, hground.2, fun element helement =>
              h.constructs element (hopened ▸ List.mem_cons_of_mem _ helement),
              fun other hother => h.bodies other (hbodies ▸ List.mem_cons_of_mem _ hother), h.made⟩
          have hclose := houtside.close (h.constructs inner hinner) hground.1 hbody inner.place
          have hlength : outside.opened.length = count + 1 := Nat.succ.inj hcount
          rw [hlength] at hclose
          unfold Assembly.stop
          rw [hopened, hbodies]
          exact hclose

end Assembly

end Restyle
