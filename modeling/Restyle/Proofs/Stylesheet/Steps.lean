import Restyle.Stylesheet.Assembly

/-!
# Restyle.Proofs.Stylesheet.Steps

What the steps of an assembly do to what is open.

* `Assembly.parent_push`, `Assembly.parent_amend` — the innermost construct after a step;
* `Assembly.begin_of_holds`, `Assembly.start_instruction`, `Assembly.text_of_holds` — where
  instructions may stand, instructions and texts are met without a failure.
-/

namespace Restyle

open Markup (Place)

namespace Construct

theorem markContent_markContent (construct : Construct) :
    construct.markContent.markContent = construct.markContent := by
  cases construct <;> rfl

theorem holdsInstructions_markContent (construct : Construct) :
    construct.markContent.holdsInstructions = construct.holdsInstructions := by
  cases construct <;> rfl

end Construct

namespace Assembly

/-! ## What is open -/

@[simp] theorem parent_push (a : Assembly) (construct : Construct) (place : Place) :
    (a.push construct place).parent = construct := rfl

@[simp] theorem parent_emit (a : Assembly) (instruction : Instruction) :
    (a.emit instruction).parent = a.parent := by
  unfold emit
  split <;> rfl

theorem parent_amend {a : Assembly} {inner : OpenConstruct} {outer : List OpenConstruct}
    (h : a.opened = inner :: outer) (change : Construct → Construct) :
    (a.amend change).parent = change a.parent := by
  simp [amend, parent, h]

theorem exists_opened_of_holds {a : Assembly} (h : a.parent.holdsInstructions = true) :
    ∃ inner outer, a.opened = inner :: outer ∧ inner.construct.holdsInstructions = true := by
  unfold parent at h
  split at h
  · cases h
  · next inner outer hopened => exact ⟨inner, outer, hopened, h⟩

/-! ## Where instructions may stand -/

theorem begin_of_holds {a : Assembly} (h : a.parent.holdsInstructions = true) (tag : StyleTag)
    (element : String) : a.begin tag element = .ok (a.amend Construct.markContent) := by
  obtain ⟨inner, outer, hopened, hholds⟩ := exists_opened_of_holds h
  simp [begin, hopened, hholds]

theorem holds_markContent {a : Assembly} (h : a.parent.holdsInstructions = true) :
    (a.amend Construct.markContent).parent.holdsInstructions = true := by
  obtain ⟨inner, outer, hopened, -⟩ := exists_opened_of_holds h
  rw [parent_amend hopened, Construct.holdsInstructions_markContent, h]

/-- An instruction is opened where instructions may stand. -/
theorem start_instruction {a : Assembly} {tag : StyleTag} {localPart : String}
    {construct : Construct} (hname : tag.name = .language localPart)
    (hholds : a.parent.holdsInstructions = true)
    (hconstruct : tag.instructionConstruct? localPart = some (.ok construct)) :
    a.start tag = .ok ((a.amend Construct.markContent).push construct tag.place) := by
  have hlanguage : a.startLanguage tag localPart =
      .ok ((a.amend Construct.markContent).push construct tag.place) := by
    unfold startLanguage
    split
    -- all other names are those of elements that are no instructions
    case h_11 =>
      rw [hconstruct]
      simp only [begin_of_holds hholds]
      rfl
    all_goals cases hconstruct
  unfold start
  rw [hname]
  cases hparent : a.parent with
  | ignored | document =>
      rw [hparent] at hholds
      cases hholds
  | _ => exact hlanguage

/-- A literal element is opened where instructions may stand. -/
theorem start_literal {a : Assembly} {tag : StyleTag} {name : QName} {construct : Construct}
    (hname : tag.name = .literal name) (hholds : a.parent.holdsInstructions = true)
    (hconstruct : tag.literalConstruct name = .ok construct) :
    a.start tag = .ok ((a.amend Construct.markContent).push construct tag.place) := by
  have hliteral : a.startLiteral tag name =
      .ok ((a.amend Construct.markContent).push construct tag.place) := by
    simp only [startLiteral, begin_of_holds hholds, hconstruct]
    rfl
  unfold start
  rw [hname]
  cases hparent : a.parent with
  | ignored | document | stylesheet =>
      rw [hparent] at hholds
      cases hholds
  | _ => exact hliteral

/-- Text with something to see in it is an instruction where instructions may stand. -/
theorem text_of_holds {a : Assembly} (h : a.parent.holdsInstructions = true) {content : String}
    (hcontent : content.toList.all Text.isBlank = false) (place : Place) :
    a.text content place = .ok ((a.amend Construct.markContent).emit (.text content)) := by
  obtain ⟨inner, outer, hopened, hholds⟩ := exists_opened_of_holds h
  unfold text
  split
  · next heq =>
    rw [heq] at h
    cases h
  · next heq =>
    rw [heq] at h
    cases h
  · simp [hcontent, hopened, hholds]

end Assembly

end Restyle
