import Mathlib
import Restyle.Proofs.Rules
import Restyle.Proofs.Stylesheet.Readings

/-!
# Restyle.Proofs.Stylesheet.Constructs

What is true of the parts of a stylesheet, while they are open and when they are finished.

A finished stylesheet has tests in all its choices, templates that can be reached, and no name twice.
For an open construct it is known what it takes: each one hands what it makes to the construct around
it, and only some constructs can take it.

* `Instruction.Tested`, `Template.WellFormed`, `Stylesheet.WellFormed` — what a stylesheet has;
* `Construct.takes`, `Construct.Sound`, `Construct.Replaces` — what is known of open constructs;
* `StyleTag.yields_templateConstruct`, `StyleTag.yields_instructionConstruct?`,
  `StyleTag.yields_literalConstruct` — the constructs that tags open.
-/

namespace Restyle

/-! ## What a stylesheet has -/

/-- The instructions right inside the source of a value. -/
def ValueSource.parts : ValueSource Instruction → List Instruction
  | .empty | .select _ => []
  | .content body => body

/-- The instructions right inside an instruction. -/
def Instruction.parts : Instruction → List Instruction
  | .text _ | .valueOf _ | .copyOf _ => []
  | .literal _ _ _ body | .forEach _ _ body | .ifThen _ body | .element _ body | .attr _ body
  | .copy body | .comment body | .message _ body => body
  | .applyTemplates _ _ _ passed | .callTemplate _ passed =>
    passed.flatMap fun value => value.2.parts
  | .choose whens otherwise => whens.flatMap Prod.snd ++ otherwise.getD []
  | .variable _ value => value.parts

/-- Every choice in an instruction, however deep inside, has a test. -/
inductive Instruction.Tested : Instruction → Prop
  | intro {instruction : Instruction} :
    (∀ whens otherwise, instruction = .choose whens otherwise → whens ≠ []) →
    (∀ part ∈ instruction.parts, part.Tested) → instruction.Tested

/-- A template is reached by its pattern or its name, a mode goes with a pattern, and parameters
have different names. -/
structure Template.WellFormed (template : Template) : Prop where
  reachable : template.name.isSome ∨ template.pattern.isSome
  mode : template.mode.isSome → template.pattern.isSome
  params : (template.params.map Prod.fst).Nodup
  defaults : ∀ param ∈ template.params, ∀ part ∈ param.2.parts, part.Tested
  body : ∀ part ∈ template.body, part.Tested

/-- The variables and parameters of the whole have different names, and templates are
well-formed. -/
structure Stylesheet.WellFormed (stylesheet : Stylesheet) : Prop where
  globals : (stylesheet.globals.map Global.name).Nodup
  values : ∀ global ∈ stylesheet.globals, ∀ part ∈ global.value.parts, part.Tested
  templates : ∀ template ∈ stylesheet.rules.templates, template.WellFormed

/-! ## Constructs -/

namespace Construct

/-- Whether values may be passed on in a construct. -/
def isCall : Construct → Bool
  | .applyTemplates .. | .callTemplate .. => true
  | _ => false

/-- Whether a construct is a choice. -/
def isChoice : Construct → Bool
  | .choose .. => true
  | _ => false

/-- Whether a construct is a template. -/
def isTemplate : Construct → Bool
  | .template .. => true
  | _ => false

/-- Whether a construct takes what another one makes at its end. -/
def takes (outer : Construct) : Construct → Bool
  | .document => false
  | .withParam .. => outer.isCall
  | .when _ | .otherwise => outer.isChoice
  | .param _ _ isGlobal => isGlobal || outer.isTemplate
  | _ => true

/-- The finished instructions that a construct holds besides its body. -/
def parts : Construct → List Instruction
  | .template _ _ _ _ params _ => params.flatMap fun param => param.2.parts
  | .applyTemplates _ _ _ passed | .callTemplate _ passed =>
    passed.flatMap fun value => value.2.parts
  | .choose whens last => whens.flatMap Prod.snd ++ last.getD []
  | .empty _ made => made.toList
  | _ => []

/-- Whether a construct that is a template can become a well-formed one. -/
def Declared : Construct → Prop
  | .template name pattern mode _ params _ =>
    (name.isSome ∨ pattern.isSome) ∧ (mode.isSome → pattern.isSome) ∧ (params.map Prod.fst).Nodup
  | _ => True

/-- What is true of every open construct. -/
structure Sound (construct : Construct) : Prop where
  tested : ∀ part ∈ construct.parts, part.Tested
  declared : construct.Declared

/-- A construct may stand for another one: it takes the same, and is taken by the same. -/
structure Replaces (new old : Construct) : Prop where
  takes : ∀ inner, new.takes inner = old.takes inner
  taken : ∀ outer : Construct, outer.takes new = outer.takes old
  document : old = .document → new = .document

/-- A construct that may be opened anywhere. -/
structure Fresh (construct : Construct) : Prop where
  sound : construct.Sound
  taken : ∀ outer : Construct, outer.takes construct = true

theorem replaces_markContent (construct : Construct) :
    construct.markContent.Replaces construct := by
  constructor
  · intro inner
    cases construct <;> cases inner <;> rfl
  · intro outer
    cases construct <;> rfl
  · rintro rfl
    rfl

/-- A construct of the same kind that may be opened anywhere stands for another one. -/
theorem replaces_of_kind {new old : Construct} (hcall : new.isCall = old.isCall)
    (hchoice : new.isChoice = old.isChoice) (htemplate : new.isTemplate = old.isTemplate)
    (hnew : ∀ outer : Construct, outer.takes new = true)
    (hold : ∀ outer : Construct, outer.takes old = true) : new.Replaces old := by
  refine ⟨fun inner => ?_, fun outer => (hnew outer).trans (hold outer).symm, ?_⟩
  · cases inner <;> simp only [Construct.takes, hcall, hchoice, htemplate]
  · rintro rfl
    cases hold .stylesheet

theorem Sound.markContent {construct : Construct} (h : construct.Sound) :
    construct.markContent.Sound := by
  cases construct <;> exact ⟨h.tested, h.declared⟩

theorem sound_of_empty (construct : Construct) (hparts : construct.parts = [])
    (hdeclared : construct.Declared) : construct.Sound :=
  ⟨fun part hpart => by simp [hparts] at hpart, hdeclared⟩

theorem fresh_of_empty (construct : Construct) (hparts : construct.parts = [])
    (hdeclared : construct.Declared) (htaken : ∀ outer : Construct, outer.takes construct = true) :
    construct.Fresh :=
  ⟨sound_of_empty construct hparts hdeclared, htaken⟩

end Construct

/-! ## Reading constructs -/

namespace StyleTag

open Construct (Fresh fresh_of_empty)

variable (tag : StyleTag)

theorem yields_templateConstruct : Yields Fresh tag.templateConstruct := by
  have hfresh (pattern : Option Pattern) (priority : Option Double)
      (hreachable : (tag.attr? "name").isSome ∨ pattern.isSome)
      (hmode : (tag.attr? "mode").isSome → pattern.isSome) :
      Fresh (.template (tag.attr? "name") pattern (tag.attr? "mode") priority [] false) :=
    fresh_of_empty _ rfl ⟨hreachable, hmode, List.nodup_nil⟩ fun _ => rfl
  unfold templateConstruct
  cases hmatch : tag.attr? "match" with
  | some text =>
      simp only [Option.isNone_some, Bool.and_false, Bool.false_and, Bool.false_eq_true, if_false]
      refine tag.yields_priority.bind fun priority _ => ?_
      have hread : Yields (fun pattern => pattern.isSome = true)
          ((Pattern.parse Function.names text).map some) :=
        (Pattern.yields_parse _ _).map fun _ _ => rfl
      exact hread.bind fun pattern hsome =>
        .ok (hfresh pattern priority (.inr hsome) fun _ => hsome)
  | none =>
      dsimp only
      split
      · exact tag.yields_problem _
      · next hname =>
        split
        · exact tag.yields_problem _
        · next hmode =>
          refine tag.yields_priority.bind fun priority _ => ?_
          refine .ok (hfresh none priority (.inl ?_) fun hsome => ?_)
          · exact Option.isSome_iff_ne_none.2 (by simpa using hname)
          · simp [hsome] at hmode

theorem yields_instructionConstruct? {localPart : String} {read : Except Failure Construct}
    (h : tag.instructionConstruct? localPart = some read) : Yields Fresh read := by
  have hmade (name : String) {instruction : Instruction} (hparts : instruction.parts = [])
      (hchoice : ∀ whens last, instruction ≠ .choose whens last) :
      Fresh (.empty name (some instruction)) := by
    refine ⟨⟨fun part hpart => ?_, trivial⟩, fun _ => rfl⟩
    obtain rfl := List.mem_singleton.1 hpart
    exact .intro (fun whens last heq => absurd heq (hchoice whens last)) (by simp [hparts])
  unfold instructionConstruct? at h
  split at h
  case h_14 => cases h
  all_goals obtain rfl := Option.some.inj h
  · exact (tag.yields_exprIn _).bind fun _ _ => .ok (fresh_of_empty _ rfl trivial fun _ => rfl)
  · exact (tag.yields_required _ _).bind fun _ _ => .ok (fresh_of_empty _ rfl trivial fun _ => rfl)
  · exact (tag.yields_requiredExpr _ _).bind fun _ _ =>
      .ok (fresh_of_empty _ rfl trivial fun _ => rfl)
  · exact (tag.yields_requiredExpr _ _).bind fun _ _ =>
      .ok (fresh_of_empty _ rfl trivial fun _ => rfl)
  · exact .ok (fresh_of_empty _ rfl trivial fun _ => rfl)
  · exact .ok (fresh_of_empty _ rfl trivial fun _ => rfl)
  · exact (tag.yields_requiredExpr _ _).bind fun _ _ => .ok (hmade _ rfl nofun)
  · exact (tag.yields_requiredExpr _ _).bind fun _ _ => .ok (hmade _ rfl nofun)
  · exact .ok (fresh_of_empty _ rfl trivial fun _ => rfl)
  · exact (tag.yields_required _ _).bind fun _ _ => (yields_styleTemplate _).bind fun _ _ =>
      .ok (fresh_of_empty _ rfl trivial fun _ => rfl)
  · exact (tag.yields_required _ _).bind fun _ _ => (yields_styleTemplate _).bind fun _ _ =>
      .ok (fresh_of_empty _ rfl trivial fun _ => rfl)
  · exact .ok (fresh_of_empty _ rfl trivial fun _ => rfl)
  · exact (tag.yields_flag _ _).bind fun _ _ => .ok (fresh_of_empty _ rfl trivial fun _ => rfl)

theorem yields_literalConstruct (name : QName) : Yields Fresh (tag.literalConstruct name) := by
  refine Yields.bind (Yields.mapM (fun attr => ?_) tag.attributes) fun _ _ => ?_
  · exact (yields_styleTemplate attr.value).bind fun _ _ => .ok trivial
  · exact .ok (fresh_of_empty _ rfl trivial fun _ => rfl)

end StyleTag

end Restyle
