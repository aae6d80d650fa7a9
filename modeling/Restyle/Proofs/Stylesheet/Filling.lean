import Mathlib
import Restyle.Proofs.Stylesheet.Layout

/-!
# Restyle.Proofs.Stylesheet.Filling

What is met in an open construct.

While an element of a stylesheet is read, a construct stands open for it; what is met inside it goes
there and nowhere else.  At its end tag the construct hands what it has to the one around it.  So what
comes of an element, of everything inside it and of its end is known from the construct around it
alone, and it has the layout of the markup.

* `Assembly.within`, `Assembly.Lays` — one construct, and what has been met in it;
* `Assembly.opens_of_start`, `Assembly.lays_of_text`, `Assembly.lays_of_close` — one step;
* `Assembly.lays_ofItem`, `Assembly.lays_ofItems` — whole elements, by induction on the markup.
-/

namespace Restyle

open Markup (Item Tag Place)
open Layout (language laidOut)

namespace Assembly

/-! ## Inside an open construct -/

/-- An assembly inside which one more construct is open, where `body` are the instructions met in it,
last first. -/
def within (a : Assembly) (construct : Construct) (place : Place) (body : List Instruction) :
    Assembly :=
  { a with opened := ⟨construct, place⟩ :: a.opened, bodies := body :: a.bodies }

variable {a a' : Assembly} {c k : Construct} {p place : Place} {b : List Instruction}
  {tag : StyleTag}

@[simp] theorem parent_within : (a.within c p b).parent = c := rfl

theorem push_eq_within : a.push c p = a.within c p [] := rfl

theorem amend_within (change : Construct → Construct) :
    (a.within c p b).amend change = a.within (change c) p b := rfl

theorem emit_within (instruction : Instruction) :
    (a.within c p b).emit instruction = a.within c p (instruction :: b) := rfl

theorem foldl_emit_within (body : List Instruction) :
    body.foldl emit (a.within c p b) = a.within c p (body.reverse ++ b) := by
  induction body generalizing b with
  | nil => rfl
  | cons instruction body ih =>
      rw [List.foldl_cons, emit_within, ih, List.reverse_cons, List.append_assoc]
      rfl

/-- In an assembly in which a construct is innermost, more has been met, and nothing else has
changed. -/
def Lays (a : Assembly) (p : Place) (c : Construct) (b : List Instruction) (new : List Layout)
    (a' : Assembly) : Prop :=
  ∃ c' b', a' = a.within c' p b' ∧ c.Grows c' ∧ c'.Fits b' ∧
    c'.inside b'.reverse = c.inside b.reverse ++ new

theorem lays_nil (hfits : c.Fits b) : a.Lays p c b [] (a.within c p b) :=
  ⟨c, b, rfl, .refl, hfits, (List.append_nil _).symm⟩

/-- What has been met since a construct became another one has been met since before. -/
theorem Lays.of_grows {c' : Construct} {new : List Layout} (h : a.Lays p c' b new a')
    (hgrows : c.Grows c') (hinside : c'.inside b.reverse = c.inside b.reverse) :
    a.Lays p c b new a' := by
  obtain ⟨d, b', rfl, hgrows', hfits, hnew⟩ := h
  exact ⟨d, b', rfl, hgrows.trans hgrows', hfits, hinside ▸ hnew⟩

/-- An instruction is met in a construct in which content has begun. -/
theorem lays_emit (hholds : c.holdsInstructions = true) (hmarked : c.markContent = c)
    (instruction : Instruction) :
    a.Lays p c b [instruction.layout] ((a.within c p b).emit instruction) := by
  refine ⟨c, instruction :: b, emit_within instruction, .refl, ?_, ?_⟩
  · rw [← hmarked]
    exact c.fits_markContent _
  · rw [List.reverse_cons, Construct.inside_append (.inl hholds)]
    simp only [bodyLayouts]

/-! ## Start tags -/

/-- An element opens a construct in another one. -/
structure Opens (c : Construct) (b : List Instruction) (name : StyleName) (c' k : Construct) :
    Prop where
  grows : c.Grows c'
  fits : c'.Fits b
  inside : c'.inside b.reverse = c.inside b.reverse
  counts : c.counts = Text.holdsOther Text.isBlank
  admits : c'.Admits k
  isFor : k.IsFor name
  fresh : k.inside [] = []

theorem begin_eq_ok {element : String} (h : (a.within c p b).begin tag element = .ok a') :
    c.holdsInstructions = true ∧ a' = a.within c.markContent p b := by
  unfold begin at h
  dsimp only [within] at h
  split at h
  · next hholds => exact ⟨hholds, (Except.ok.inj h).symm⟩
  · cases h

theorem counts_of_holds (h : c.holdsInstructions = true) :
    c.counts = Text.holdsOther Text.isBlank := by
  cases c <;> first | rfl | cases h

/-- An instruction opens its construct where instructions may stand. -/
theorem opens_instruction {name : StyleName} (hholds : c.holdsInstructions = true)
    (hisFor : k.IsFor name) (hinstruction : k.isInstruction = true) (hfresh : k.inside [] = []) :
    Opens c b name c.markContent k where
  grows := c.grows_markContent
  fits := c.fits_markContent b
  inside := c.inside_markContent _
  counts := counts_of_holds hholds
  admits := .instruction (by rw [Construct.holdsInstructions_markContent, hholds])
    c.markContent_markContent hinstruction
  isFor := hisFor
  fresh := hfresh

theorem expectTop_eq_ok {element : String} (h : expectTop tag element c = .ok ()) :
    c = .stylesheet := by
  unfold expectTop at h
  split at h
  · rfl
  · cases h

theorem expectChoice_eq_ok {element : String} (h : expectChoice tag element c = .ok ()) :
    ∃ whens, c = .choose whens none := by
  unfold expectChoice at h
  split at h
  · exact ⟨_, rfl⟩
  · cases h
  · cases h

theorem isFor_of_instructionConstruct? {localPart : String} {read : Except Failure Construct}
    (h : tag.instructionConstruct? localPart = some read) (hread : read = .ok k) :
    k.IsFor (.language localPart) ∧ k.isInstruction = true ∧ k.inside [] = [] := by
  unfold StyleTag.instructionConstruct? at h
  split at h
  case h_14 => cases h
  all_goals obtain rfl := Option.some.inj h
  case h_1 =>
    obtain ⟨select, -, hmade⟩ := bind_eq_ok.1 hread
    obtain rfl := Except.ok.inj hmade
    exact ⟨.applyTemplates, rfl, rfl⟩
  case h_2 =>
    obtain ⟨name, -, hmade⟩ := bind_eq_ok.1 hread
    obtain rfl := Except.ok.inj hmade
    exact ⟨.callTemplate, rfl, rfl⟩
  case h_3 =>
    obtain ⟨select, -, hmade⟩ := bind_eq_ok.1 hread
    obtain rfl := Except.ok.inj hmade
    exact ⟨.forEach, rfl, rfl⟩
  case h_4 =>
    obtain ⟨test, -, hmade⟩ := bind_eq_ok.1 hread
    obtain rfl := Except.ok.inj hmade
    exact ⟨.ifThen, rfl, rfl⟩
  case h_5 =>
    obtain rfl := Except.ok.inj hread
    exact ⟨.choose, rfl, rfl⟩
  case h_6 =>
    obtain rfl := Except.ok.inj hread
    exact ⟨.text, rfl, rfl⟩
  case h_7 =>
    obtain ⟨select, -, hmade⟩ := bind_eq_ok.1 hread
    obtain rfl := Except.ok.inj hmade
    exact ⟨.valueOf, rfl, rfl⟩
  case h_8 =>
    obtain ⟨select, -, hmade⟩ := bind_eq_ok.1 hread
    obtain rfl := Except.ok.inj hmade
    exact ⟨.copyOf, rfl, rfl⟩
  case h_9 =>
    obtain rfl := Except.ok.inj hread
    exact ⟨.copy, rfl, rfl⟩
  case h_10 =>
    obtain ⟨name, -, hmade⟩ := bind_eq_ok.1 hread
    obtain ⟨template, -, hmade⟩ := bind_eq_ok.1 hmade
    obtain rfl := Except.ok.inj hmade
    exact ⟨.element, rfl, rfl⟩
  case h_11 =>
    obtain ⟨name, -, hmade⟩ := bind_eq_ok.1 hread
    obtain ⟨template, -, hmade⟩ := bind_eq_ok.1 hmade
    obtain rfl := Except.ok.inj hmade
    exact ⟨.attr, rfl, rfl⟩
  case h_12 =>
    obtain rfl := Except.ok.inj hread
    exact ⟨.comment, rfl, rfl⟩
  case h_13 =>
    obtain ⟨terminate, -, hmade⟩ := bind_eq_ok.1 hread
    obtain rfl := Except.ok.inj hmade
    exact ⟨.message, rfl, rfl⟩

theorem opens_param (h : (a.within c p b).startParam tag = .ok a') (hc : c.isInner = true)
    (hfits : c.Fits b) : ∃ k, a' = (a.within c p b).within k tag.place [] ∧
      Opens c b (.language "param") c k := by
  unfold startParam at h
  dsimp only [parent_within] at h
  split at h
  · cases hc
  · obtain ⟨isGlobal, hglobal, h⟩ := bind_eq_ok.1 h
    obtain rfl := Except.ok.inj hglobal
    obtain ⟨named, -, h⟩ := bind_eq_ok.1 h
    obtain rfl := Except.ok.inj h
    exact ⟨_, push_eq_within, .refl, hfits, rfl, rfl, .param, .param, rfl⟩
  · cases h
  · cases h

theorem opens_variable (h : (a.within c p b).startVariable tag = .ok a') (hc : c.isInner = true) :
    ∃ k, a' = (a.within c.markContent p b).within k tag.place [] ∧
      Opens c b (.language "variable") c.markContent k := by
  unfold startVariable at h
  dsimp only [parent_within] at h
  split at h
  · cases hc
  · obtain ⟨begun, hbegun, h⟩ := bind_eq_ok.1 h
    obtain ⟨hholds, rfl⟩ := begin_eq_ok hbegun
    obtain ⟨named, -, h⟩ := bind_eq_ok.1 h
    obtain rfl := Except.ok.inj h
    exact ⟨_, push_eq_within, opens_instruction hholds .variable rfl rfl⟩

theorem opens_withParam (h : (a.within c p b).startWithParam tag = .ok a') (hfits : c.Fits b) :
    ∃ k, a' = (a.within c p b).within k tag.place [] ∧
      Opens c b (.language "with-param") c k := by
  unfold startWithParam at h
  dsimp only [parent_within] at h
  split at h
  · obtain ⟨named, -, h⟩ := bind_eq_ok.1 h
    obtain rfl := Except.ok.inj h
    exact ⟨_, push_eq_within, .refl, hfits, rfl, rfl, .appliedParam, .withParam, rfl⟩
  · obtain ⟨named, -, h⟩ := bind_eq_ok.1 h
    obtain rfl := Except.ok.inj h
    exact ⟨_, push_eq_within, .refl, hfits, rfl, rfl, .calledParam, .withParam, rfl⟩
  · cases h

theorem opens_sort (h : (a.within c p b).startSort tag = .ok a') :
    ∃ c' k, a' = (a.within c' p b).within k tag.place [] ∧
      Opens c b (.language "sort") c' k := by
  obtain ⟨key, -, h⟩ := bind_eq_ok.1 h
  obtain ⟨sorted, hsorted, h⟩ := bind_eq_ok.1 h
  obtain rfl := Except.ok.inj h
  unfold addSort at hsorted
  dsimp only [within] at hsorted
  split at hsorted
  · obtain rfl := Except.ok.inj hsorted
    exact ⟨_, _, push_eq_within, .applyTemplates, trivial, rfl, rfl, .sort, .sort, rfl⟩
  · obtain rfl := Except.ok.inj hsorted
    exact ⟨_, _, push_eq_within, .forEach, trivial, rfl, rfl, .sort, .sort, rfl⟩
  · cases hsorted
  · cases hsorted

/-- A start tag opens a construct for its element. -/
theorem opens_of_start (h : (a.within c p b).start tag = .ok a') (hc : c.isInner = true)
    (hfits : c.Fits b) : ∃ c' k, a' = (a.within c' p b).within k tag.place [] ∧
      Opens c b tag.name c' k := by
  have hlanguage {localPart : String}
      (h : (a.within c p b).startLanguage tag localPart = .ok a') :
      ∃ c' k, a' = (a.within c' p b).within k tag.place [] ∧
        Opens c b (.language localPart) c' k := by
    have htop {element : String} (htop : expectTop tag element c = .ok ()) : False := by
      obtain rfl := expectTop_eq_ok htop
      cases hc
    unfold startLanguage at h
    split at h
    · obtain ⟨⟨⟩, hexpect, -⟩ := bind_eq_ok.1 h
      exact (htop hexpect).elim
    · obtain ⟨⟨⟩, hexpect, -⟩ := bind_eq_ok.1 h
      exact (htop hexpect).elim
    · obtain ⟨⟨⟩, hexpect, -⟩ := bind_eq_ok.1 h
      exact (htop hexpect).elim
    · obtain ⟨⟨⟩, hexpect, -⟩ := bind_eq_ok.1 h
      exact (htop hexpect).elim
    · obtain ⟨k, hk⟩ := opens_param h hc hfits
      exact ⟨c, k, hk⟩
    · obtain ⟨k, hk⟩ := opens_variable h hc
      exact ⟨c.markContent, k, hk⟩
    · obtain ⟨k, hk⟩ := opens_withParam h hfits
      exact ⟨c, k, hk⟩
    · exact opens_sort h
    · obtain ⟨⟨⟩, hexpect, h⟩ := bind_eq_ok.1 h
      obtain ⟨whens, rfl⟩ := expectChoice_eq_ok hexpect
      obtain ⟨test, -, h⟩ := bind_eq_ok.1 h
      obtain rfl := Except.ok.inj h
      exact ⟨_, _, push_eq_within, .refl, hfits, rfl, rfl, .when, .when, rfl⟩
    · obtain ⟨⟨⟩, hexpect, h⟩ := bind_eq_ok.1 h
      obtain ⟨whens, rfl⟩ := expectChoice_eq_ok hexpect
      obtain rfl := Except.ok.inj h
      exact ⟨_, _, push_eq_within, .refl, hfits, rfl, rfl, .otherwise, .otherwise, rfl⟩
    · split at h
      · next construct hconstruct =>
        obtain ⟨begun, hbegun, h⟩ := bind_eq_ok.1 h
        obtain ⟨hholds, rfl⟩ := begin_eq_ok hbegun
        obtain ⟨k, hk, h⟩ := bind_eq_ok.1 h
        obtain rfl := Except.ok.inj h
        obtain ⟨hisFor, hinstruction, hfresh⟩ := isFor_of_instructionConstruct? hconstruct hk
        exact ⟨_, _, push_eq_within, opens_instruction hholds hisFor hinstruction hfresh⟩
      · cases h
  have hliteral {name : QName} (h : (a.within c p b).startLiteral tag name = .ok a') :
      ∃ c' k, a' = (a.within c' p b).within k tag.place [] ∧ Opens c b (.literal name) c' k := by
    obtain ⟨begun, hbegun, h⟩ := bind_eq_ok.1 h
    obtain ⟨hholds, rfl⟩ := begin_eq_ok hbegun
    obtain ⟨k, hk, h⟩ := bind_eq_ok.1 h
    obtain rfl := Except.ok.inj h
    obtain ⟨attributes, -, hk⟩ := bind_eq_ok.1 hk
    obtain rfl := Except.ok.inj hk
    exact ⟨_, _, push_eq_within, opens_instruction hholds .literal rfl rfl⟩
  unfold start at h
  rw [parent_within] at h
  split at h
  · cases hc
  · cases hc
  · next hname =>
    rw [hname]
    exact hlanguage h
  · cases hc
  · next hname =>
    rw [hname]
    exact hliteral h

/-! ## End tags -/

theorem begun_of_admits (h : c.Admits k) (hinstruction : k.isInstruction = true) :
    c.holdsInstructions = true ∧ c.markContent = c := by
  cases h with
  | instruction hholds hmarked _ => exact ⟨hholds, hmarked⟩
  | _ => cases hinstruction

theorem laidOut_of_ne {name : StyleName} (htext : name ≠ .language "text")
    (hsort : name ≠ .language "sort") (inside : List Layout) :
    laidOut name inside = [.element name inside] := by
  rw [laidOut, if_neg htext, if_neg hsort]

/-- A parameter comes after those before it, since no content has begun. -/
theorem lays_addParam {template : Option String} {pattern : Option Pattern} {mode : Option String}
    {priority : Option Double} {params : List (String × ValueSource Instruction)} {name : String}
    {value : ValueSource Instruction}
    (hfits : (Construct.template template pattern mode priority params false).Fits b)
    (h : (a.within (.template template pattern mode priority params false) p b).addParam place
      name value = .ok a') :
    a.Lays p (.template template pattern mode priority params false) b
      [language "param" (sourceLayouts value)] a' := by
  obtain rfl : b = [] := hfits
  unfold addParam at h
  dsimp only [parent_within] at h
  split at h
  · cases h
  · obtain rfl := Except.ok.inj h
    refine ⟨_, _, amend_within _, .template, Construct.fits_nil _, ?_⟩
    simp only [Construct.inside, List.reverse_nil, passedLayouts_append, passedLayouts, bodyLayouts,
      List.append_nil]

theorem lays_addPassed {name : String} {value : ValueSource Instruction}
    (h : (a.within c p b).addPassed name value = .ok a') :
    a.Lays p c b [language "with-param" (sourceLayouts value)] a' := by
  unfold addPassed at h
  rw [parent_within] at h
  split at h
  · obtain rfl := Except.ok.inj h
    refine ⟨_, _, amend_within _, .applyTemplates, trivial, ?_⟩
    simp only [Construct.inside, passedLayouts_append, passedLayouts]
  · obtain rfl := Except.ok.inj h
    refine ⟨_, _, amend_within _, .callTemplate, trivial, ?_⟩
    simp only [Construct.inside, passedLayouts_append, passedLayouts]
  · cases h

/-- What a construct makes, closed as an instruction where content has begun. -/
theorem lays_emit_of_admits {instruction : Instruction} (hadmits : c.Admits k)
    (hinstruction : k.isInstruction = true)
    (h : Except.ok (ε := Failure) ((a.within c p b).emit instruction) = .ok a') :
    a.Lays p c b [instruction.layout] a' := by
  obtain ⟨hholds, hmarked⟩ := begun_of_admits hadmits hinstruction
  obtain rfl := Except.ok.inj h
  exact lays_emit hholds hmarked instruction

/-- Closing a construct hands what has been met in it to the one around it. -/
theorem lays_of_close {name : StyleName} {body : List Instruction} (hadmits : c.Admits k)
    (hisFor : k.IsFor name) (hfits : c.Fits b)
    (h : (a.within c p b).close place body k = .ok a') :
    a.Lays p c b (laidOut name (k.inside body)) a' := by
  cases hisFor with
  | literal | forEach | ifThen | element | attr | copy | comment | message | applyTemplates
  | callTemplate | valueOf | copyOf =>
      rw [laidOut_of_ne (by simp) (by simp)]
      have hlays := lays_emit_of_admits hadmits rfl h
      simp only [Instruction.layout] at hlays
      exact hlays
  | @«variable» name select isGlobal =>
      rw [laidOut_of_ne (by simp) (by simp)]
      obtain ⟨value, hvalue, h⟩ := bind_eq_ok.1 h
      cases isGlobal with
      | true =>
          cases hadmits with
          | instruction _ _ hinner => cases hinner
      | false =>
          have hlays := lays_emit_of_admits hadmits rfl h
          simp only [Instruction.layout, sourceLayouts_of_valueSource hvalue] at hlays
          exact hlays
  | @choose whens last =>
      rw [laidOut_of_ne (by simp) (by simp)]
      simp only [close] at h
      split at h
      · cases h
      · have hlays := lays_emit_of_admits hadmits rfl h
        cases last <;> simp only [Instruction.layout] at hlays <;> exact hlays
  | text =>
      obtain ⟨hholds, hmarked⟩ := begun_of_admits hadmits rfl
      obtain rfl := Except.ok.inj h
      refine ⟨c, body.reverse ++ b, foldl_emit_within body, .refl, ?_, ?_⟩
      · rw [← hmarked]
        exact c.fits_markContent _
      · rw [List.reverse_append, List.reverse_reverse, Construct.inside_append (.inl hholds)]
        rfl
  | sort =>
      obtain rfl := Except.ok.inj h
      exact lays_nil hfits
  | @param name select isGlobal =>
      rw [laidOut_of_ne (by simp) (by simp)]
      obtain ⟨value, hvalue, h⟩ := bind_eq_ok.1 h
      cases hadmits with
      | instruction _ _ hinner => cases hinner
      | param =>
          have hlays := lays_addParam hfits h
          rwa [sourceLayouts_of_valueSource hvalue] at hlays
  | withParam =>
      rw [laidOut_of_ne (by simp) (by simp)]
      obtain ⟨value, hvalue, h⟩ := bind_eq_ok.1 h
      have hlays := lays_addPassed h
      rwa [sourceLayouts_of_valueSource hvalue] at hlays
  | «when» =>
      rw [laidOut_of_ne (by simp) (by simp)]
      cases hadmits with
      | instruction _ _ hinner => cases hinner
      | «when» =>
          obtain rfl := Except.ok.inj h
          refine ⟨_, _, amend_within _, .choose, trivial, ?_⟩
          simp only [Construct.inside, whenLayouts_append, whenLayouts]
  | otherwise =>
      rw [laidOut_of_ne (by simp) (by simp)]
      cases hadmits with
      | instruction _ _ hinner => cases hinner
      | otherwise =>
          obtain rfl := Except.ok.inj h
          refine ⟨_, _, amend_within _, .choose, trivial, ?_⟩
          simp only [Construct.inside]

/-! ## Text -/

/-- A text is met as an instruction if it counts, and leaves nothing if it does not. -/
theorem lays_of_text {content : String} (hc : c.isInner = true) (hfits : c.Fits b)
    (h : (a.within c p b).text content place = .ok a') :
    a.Lays p c b (if c.counts content then [.text content] else []) a' := by
  unfold text at h
  rw [parent_within] at h
  split at h
  · obtain rfl := Except.ok.inj h
    refine ⟨_, _, emit_within _, .refl, trivial, ?_⟩
    rw [List.reverse_cons, Construct.inside_append (.inr rfl)]
    rfl
  · cases hc
  · next htext hignored =>
    have hcounts : c.counts content = !content.toList.all Text.isBlank := by
      cases c <;> first | rfl | exact (htext rfl).elim
    rw [hcounts]
    split at h
    · next hblank =>
      obtain rfl := Except.ok.inj h
      rw [hblank]
      exact lays_nil hfits
    · next hblank =>
      rw [Bool.eq_false_iff.2 hblank]
      dsimp only [within] at h
      split at h
      · next hholds =>
        obtain rfl := Except.ok.inj h
        have hmarked : c.markContent.holdsInstructions = true := by
          rw [Construct.holdsInstructions_markContent, hholds]
        have hlays : a.Lays p c.markContent b [Instruction.layout (.text content)] _ :=
          lays_emit hmarked c.markContent_markContent (.text content)
        simp only [Instruction.layout] at hlays
        exact hlays.of_grows c.grows_markContent (c.inside_markContent _)
      · cases h

/-! ## Elements with all that is inside them -/

/-- What is met after something else. -/
theorem Lays.append {c' : Construct} {b' : List Instruction} {first second : List Layout}
    (hgrows : c.Grows c') (hfirst : c'.inside b'.reverse = c.inside b.reverse ++ first)
    (hsecond : a.Lays p c' b' second a') : a.Lays p c b (first ++ second) a' := by
  obtain ⟨d, b'', rfl, hgrows', hfits, hnew⟩ := hsecond
  refine ⟨d, b'', rfl, hgrows.trans hgrows', hfits, ?_⟩
  rw [hnew, hfirst, List.append_assoc]

mutual

/-- What is met of a part of a stylesheet is laid out as it stands in the markup. -/
theorem lays_ofItem (excluded : List String) (outer : List Markup.Namespace) :
    ∀ (item : Item) {a a' : Assembly} {c : Construct} {p : Place} {b : List Instruction},
      c.isInner = true → c.Fits b →
      (StyleEvent.ofItem excluded outer item).foldlM meet (a.within c p b) = .ok a' →
      a.Lays p c b (item.layouts c.counts) a'
  | .element tag children, a, a', c, p, b, hc, hfits, h => by
      rw [StyleEvent.ofItem, List.foldlM_cons] at h
      obtain ⟨opened, hopened, h⟩ := bind_eq_ok.1 h
      obtain ⟨c', k, rfl, hopens⟩ := opens_of_start hopened hc hfits
      rw [StyleEvent.name_styleTag] at hopens
      rw [List.foldlM_append] at h
      obtain ⟨filled, hfilled, h⟩ := bind_eq_ok.1 h
      obtain ⟨k', body, rfl, hgrows, -, hinside⟩ :=
        lays_ofItems excluded _ children hopens.isFor.isInner k.fits_nil hfilled
      rw [List.foldlM_cons] at h
      obtain ⟨closed, hclosed, h⟩ := bind_eq_ok.1 h
      obtain rfl := Except.ok.inj h
      change (a.within c' p b).close _ body.reverse k' = .ok closed at hclosed
      have hlays := lays_of_close (hopens.admits.grows hgrows) (hopens.isFor.grows hgrows)
        hopens.fits hclosed
      rw [hinside, List.reverse_nil, hopens.fresh, List.nil_append, hopens.isFor.counts_eq,
        ← hopens.counts] at hlays
      rw [Item.layouts]
      exact hlays.of_grows hopens.grows hopens.inside
  | .text content place, a, a', c, p, b, hc, hfits, h => by
      rw [StyleEvent.ofItem, List.foldlM_cons] at h
      obtain ⟨met, hmet, h⟩ := bind_eq_ok.1 h
      obtain rfl := Except.ok.inj h
      rw [Item.layouts]
      exact lays_of_text hc hfits hmet
  | .comment content, a, a', c, p, b, hc, hfits, h => by
      obtain rfl := Except.ok.inj h
      exact lays_nil hfits
  | .instruction target content, a, a', c, p, b, hc, hfits, h => by
      obtain rfl := Except.ok.inj h
      exact lays_nil hfits

/-- What is met of parts of a stylesheet is laid out as they stand in the markup. -/
theorem lays_ofItems (excluded : List String) (outer : List Markup.Namespace) :
    ∀ (items : List Item) {a a' : Assembly} {c : Construct} {p : Place} {b : List Instruction},
      c.isInner = true → c.Fits b →
      (StyleEvent.ofItems excluded outer items).foldlM meet (a.within c p b) = .ok a' →
      a.Lays p c b (Markup.layoutsIn c.counts items) a'
  | [], a, a', c, p, b, hc, hfits, h => by
      obtain rfl := Except.ok.inj h
      exact lays_nil hfits
  | item :: items, a, a', c, p, b, hc, hfits, h => by
      rw [StyleEvent.ofItems, List.foldlM_append] at h
      obtain ⟨met, hmet, h⟩ := bind_eq_ok.1 h
      obtain ⟨c', b', rfl, hgrows, hfits', hinside⟩ := lays_ofItem excluded outer item hc hfits hmet
      have hlays := lays_ofItems excluded outer items (hgrows.isInner_eq.trans hc) hfits' h
      rw [hgrows.counts_eq] at hlays
      rw [Markup.layoutsIn]
      exact hlays.append hgrows hinside

end

end Assembly

end Restyle
