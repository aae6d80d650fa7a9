import Restyle.Proofs.Stylesheet.Steps
import Restyle.Proofs.Success

/-!
# Restyle.Proofs.Stylesheet.Layout

Where the elements and the texts of a stylesheet stand.

A `Layout` is what the markup of a stylesheet and its compiled form have in common: elements by name
and texts, each in its place.  The markup has one for every text that counts, and so has the compiled
form; an open construct has the layout of what has been met in it so far.

* `Instruction.layout`, `Template.layout`, `Global.layout` — the layout of the compiled form;
* `Markup.Item.layouts` — the layout of the markup, by which texts count;
* `Construct.inside` — the layout of what has been met in an open construct;
* `Construct.IsFor`, `Construct.Grows`, `Construct.Admits` — which construct an element opens, what
  becomes of it while others are met in it, and where it can be closed.
-/

namespace Restyle

open Markup (Item Tag Place)

/-- An element of a stylesheet with what is inside it, or a text. -/
inductive Layout where
  | text (content : String)
  | element (name : StyleName) (inside : List Layout)

namespace Layout

mutual

/-- Whether two layouts are the same. -/
def decEq : (a b : Layout) → Decidable (a = b)
  | .text content, .text content' => decidable_of_iff (content = content') (by simp)
  | .element name inside, .element name' inside' =>
    letI := decEqAll inside inside'
    decidable_of_iff (name = name' ∧ inside = inside') (by simp)
  | .text _, .element .. => isFalse nofun
  | .element .., .text _ => isFalse nofun

/-- Whether two lists of layouts are the same. -/
def decEqAll : (as bs : List Layout) → Decidable (as = bs)
  | [], [] => isTrue rfl
  | a :: as, b :: bs =>
    letI := decEq a b
    letI := decEqAll as bs
    decidable_of_iff (a = b ∧ as = bs) (by simp)
  | [], _ :: _ => isFalse nofun
  | _ :: _, [] => isFalse nofun

end

instance : DecidableEq Layout := decEq

/-- An element of the stylesheet language. -/
abbrev language (localPart : String) (inside : List Layout) : Layout :=
  .element (.language localPart) inside

/-- Whether this is an element of the language with one of these names. -/
def isAmong (names : List String) : Layout → Bool
  | .element (.language localPart) _ => names.contains localPart
  | _ => false

/-- What an element leaves where it stands.  `xsl:text` leaves what is inside it, and a sort key is a
part of the element around it. -/
def laidOut (name : StyleName) (inside : List Layout) : List Layout :=
  if name = .language "text" then inside
  else if name = .language "sort" then []
  else [.element name inside]

end Layout

open Layout (language laidOut)

/-! ## The compiled form -/

mutual

/-- The layout of an instruction. -/
def Instruction.layout : Instruction → Layout
  | .text content => .text content
  | .literal name _ _ body => .element (.literal name) (bodyLayouts body)
  | .valueOf _ => language "value-of" []
  | .copyOf _ => language "copy-of" []
  | .applyTemplates _ _ _ passed =>
    language "apply-templates" (passedLayouts "with-param" passed)
  | .callTemplate _ passed => language "call-template" (passedLayouts "with-param" passed)
  | .forEach _ _ body => language "for-each" (bodyLayouts body)
  | .ifThen _ body => language "if" (bodyLayouts body)
  | .choose whens none => language "choose" (whenLayouts whens)
  | .choose whens (some body) =>
    language "choose" (whenLayouts whens ++ [language "otherwise" (bodyLayouts body)])
  | .variable _ value => language "variable" (sourceLayouts value)
  | .element _ body => language "element" (bodyLayouts body)
  | .attr _ body => language "attribute" (bodyLayouts body)
  | .copy body => language "copy" (bodyLayouts body)
  | .comment body => language "comment" (bodyLayouts body)
  | .message _ body => language "message" (bodyLayouts body)

/-- The layouts of the instructions of a body. -/
def bodyLayouts : List Instruction → List Layout
  | [] => []
  | instruction :: others => instruction.layout :: bodyLayouts others

/-- The layouts of what the source of a value holds. -/
def sourceLayouts : ValueSource Instruction → List Layout
  | .empty => []
  | .select _ => []
  | .content body => bodyLayouts body

/-- The layouts of values, each in an element with this name. -/
def passedLayouts (element : String) : List (String × ValueSource Instruction) → List Layout
  | [] => []
  | (_, value) :: others => language element (sourceLayouts value) :: passedLayouts element others

/-- The layouts of the branches of a choice that have a test. -/
def whenLayouts : List (Expr × List Instruction) → List Layout
  | [] => []
  | (_, body) :: others => language "when" (bodyLayouts body) :: whenLayouts others

end

/-- The layout of a template: its parameters, and then its body. -/
def Template.layout (template : Template) : Layout :=
  language "template" (passedLayouts "param" template.params ++ bodyLayouts template.body)

/-- The layout of a variable or parameter of the whole stylesheet. -/
def Global.layout (new : Global) : Layout :=
  language (if new.isParam then "param" else "variable") (sourceLayouts new.value)

theorem bodyLayouts_append (body others : List Instruction) :
    bodyLayouts (body ++ others) = bodyLayouts body ++ bodyLayouts others := by
  induction body with
  | nil => rfl
  | cons instruction body ih => simp only [List.cons_append, bodyLayouts, ih]

theorem passedLayouts_append (element : String)
    (passed others : List (String × ValueSource Instruction)) :
    passedLayouts element (passed ++ others) =
      passedLayouts element passed ++ passedLayouts element others := by
  induction passed with
  | nil => rfl
  | cons value passed ih =>
      obtain ⟨name, value⟩ := value
      simp only [List.cons_append, passedLayouts, ih]

theorem whenLayouts_append (whens others : List (Expr × List Instruction)) :
    whenLayouts (whens ++ others) = whenLayouts whens ++ whenLayouts others := by
  induction whens with
  | nil => rfl
  | cons branch whens ih =>
      obtain ⟨test, body⟩ := branch
      simp only [List.cons_append, whenLayouts, ih]

/-- Where there is an expression there is no content, so the layout is that of the content. -/
theorem sourceLayouts_of_valueSource {element : String} {place : Place} {select : Option Expr}
    {body : List Instruction} {value : ValueSource Instruction}
    (h : Assembly.valueSource element place select body = .ok value) :
    sourceLayouts value = bodyLayouts body := by
  unfold Assembly.valueSource at h
  split at h
  · cases h
  · obtain rfl := Except.ok.inj h
    simp only [sourceLayouts, bodyLayouts]
  · obtain rfl := Except.ok.inj h
    simp only [sourceLayouts, bodyLayouts]
  · obtain rfl := Except.ok.inj h
    simp only [sourceLayouts]

/-! ## The markup -/

/-- Whether a text holds a character outside a class. -/
def Text.holdsOther (p : Char → Bool) (content : String) : Bool :=
  !content.toList.all p

/-- What an element of a stylesheet is. -/
def StyleEvent.nameOf (tag : Tag) : StyleName :=
  if isLanguage tag then .language tag.name.localPart
  else .literal (Tag.qualified tag.scope tag.name)

theorem StyleEvent.name_styleTag (excluded : List String) (outer : List Markup.Namespace)
    (tag : Tag) : (styleTag excluded outer tag).name = nameOf tag := by
  unfold styleTag nameOf
  split <;> rfl

/-- Which texts count inside an element, where `counts` says so outside it: in `xsl:text` all do. -/
def countsIn (name : StyleName) (counts : String → Bool) (content : String) : Bool :=
  name = .language "text" || counts content

mutual

/-- The layouts of a part of a stylesheet. -/
def Markup.Item.layouts (counts : String → Bool) : Item → List Layout
  | .element tag children =>
    laidOut (StyleEvent.nameOf tag)
      (layoutsIn (countsIn (StyleEvent.nameOf tag) counts) children)
  | .text content _ => if counts content then [.text content] else []
  | .comment _ => []
  | .instruction _ _ => []

/-- The layouts of parts of a stylesheet, one after another. -/
def Markup.layoutsIn (counts : String → Bool) : List Item → List Layout
  | [] => []
  | item :: items => item.layouts counts ++ layoutsIn counts items

end

/-- What stands in the document element of a marked-up text. -/
def Markup.documentChildren : List Item → List Item
  | [] => []
  | .element _ children :: _ => children
  | _ :: items => documentChildren items

/-! ## Open constructs -/

namespace Construct

/-- The layout of what has been met in a construct, where `body` are the instructions met. -/
def inside : Construct → List Instruction → List Layout
  | .template _ _ _ _ params _, body => passedLayouts "param" params ++ bodyLayouts body
  | .applyTemplates _ _ _ passed, _ => passedLayouts "with-param" passed
  | .callTemplate _ passed, _ => passedLayouts "with-param" passed
  | .choose whens none, _ => whenLayouts whens
  | .choose whens (some last), _ =>
    whenLayouts whens ++ [language "otherwise" (bodyLayouts last)]
  | .empty _ _, _ => []
  | _, body => bodyLayouts body

/-- Which texts count in a construct: all of them, or those that hold a character which is not
white space. -/
def counts : Construct → String → Bool
  | .text, _ => true
  | _, content => Text.holdsOther Text.isBlank content

/-- Whether a construct stands somewhere inside a stylesheet and means something. -/
def isInner : Construct → Bool
  | .document | .stylesheet | .ignored => false
  | _ => true

/-- Whether a construct is an instruction, or the text for one. -/
def isInstruction : Construct → Bool
  | .variable _ _ false | .applyTemplates .. | .callTemplate .. | .forEach .. | .ifThen _
  | .choose .. | .literal .. | .element _ | .attr _ | .copy | .comment | .message _ | .text
  | .empty _ (some _) => true
  | _ => false

/-- The construct that an element with this name opens inside another one, with whatever has been
met in it. -/
inductive IsFor : StyleName → Construct → Prop where
  | param {name select isGlobal} : IsFor (.language "param") (.param name select isGlobal)
  | variable {name select isGlobal} : IsFor (.language "variable") (.variable name select isGlobal)
  | withParam {name select} : IsFor (.language "with-param") (.withParam name select)
  | applyTemplates {select mode sorts passed} :
    IsFor (.language "apply-templates") (.applyTemplates select mode sorts passed)
  | callTemplate {name passed} : IsFor (.language "call-template") (.callTemplate name passed)
  | forEach {select sorts hasContent} :
    IsFor (.language "for-each") (.forEach select sorts hasContent)
  | ifThen {test} : IsFor (.language "if") (.ifThen test)
  | choose {whens last} : IsFor (.language "choose") (.choose whens last)
  | when {test} : IsFor (.language "when") (.when test)
  | otherwise : IsFor (.language "otherwise") .otherwise
  | literal {name namespaces attributes} : IsFor (.literal name) (.literal name namespaces attributes)
  | element {name} : IsFor (.language "element") (.element name)
  | attr {name} : IsFor (.language "attribute") (.attr name)
  | copy : IsFor (.language "copy") .copy
  | comment : IsFor (.language "comment") .comment
  | message {terminate} : IsFor (.language "message") (.message terminate)
  | text : IsFor (.language "text") .text
  | valueOf {element select} :
    IsFor (.language "value-of") (.empty element (some (.valueOf select)))
  | copyOf {element select} : IsFor (.language "copy-of") (.empty element (some (.copyOf select)))
  | sort {element} : IsFor (.language "sort") (.empty element none)

/-- A construct in which others are met becomes one of the same kind. -/
inductive Grows : Construct → Construct → Prop where
  | refl {construct} : Grows construct construct
  | template {name pattern mode priority params params' hasContent hasContent'} :
    Grows (.template name pattern mode priority params hasContent)
      (.template name pattern mode priority params' hasContent')
  | applyTemplates {select mode sorts sorts' passed passed'} :
    Grows (.applyTemplates select mode sorts passed) (.applyTemplates select mode sorts' passed')
  | callTemplate {name passed passed'} :
    Grows (.callTemplate name passed) (.callTemplate name passed')
  | forEach {select sorts sorts' hasContent hasContent'} :
    Grows (.forEach select sorts hasContent) (.forEach select sorts' hasContent')
  | choose {whens whens' last last'} : Grows (.choose whens last) (.choose whens' last')

/-- Whether a construct can be closed in another one, as it stands, and hand over what it made. -/
inductive Admits : Construct → Construct → Prop where
  | param {template pattern mode priority params name select} :
    Admits (.template template pattern mode priority params false) (.param name select false)
  | appliedParam {select mode sorts passed name select'} :
    Admits (.applyTemplates select mode sorts passed) (.withParam name select')
  | calledParam {template passed name select} :
    Admits (.callTemplate template passed) (.withParam name select)
  | sort {outer element} : Admits outer (.empty element none)
  | when {whens test} : Admits (.choose whens none) (.when test)
  | otherwise {whens} : Admits (.choose whens none) .otherwise
  | instruction {outer inner : Construct} (hholds : outer.holdsInstructions = true)
    (hmarked : outer.markContent = outer) (hinner : inner.isInstruction = true) :
    Admits outer inner

/-- A template in which content has not begun has no instructions. -/
def Fits : Construct → List Instruction → Prop
  | .template _ _ _ _ _ false, body => body = []
  | _, _ => True

variable {c d e inner outer : Construct} {body : List Instruction} {name : StyleName}

theorem Grows.trans (h : c.Grows d) (h' : d.Grows e) : c.Grows e := by
  cases h with
  | refl => exact h'
  | template =>
      cases h' with
      | refl => exact .template
      | template => exact .template
  | applyTemplates =>
      cases h' with
      | refl => exact .applyTemplates
      | applyTemplates => exact .applyTemplates
  | callTemplate =>
      cases h' with
      | refl => exact .callTemplate
      | callTemplate => exact .callTemplate
  | forEach =>
      cases h' with
      | refl => exact .forEach
      | forEach => exact .forEach
  | choose =>
      cases h' with
      | refl => exact .choose
      | choose => exact .choose

theorem Grows.counts_eq (h : c.Grows d) : d.counts = c.counts := by
  cases h <;> rfl

theorem Grows.isInner_eq (h : c.Grows d) : d.isInner = c.isInner := by
  cases h <;> rfl

theorem Grows.isInstruction_eq (h : c.Grows d) : d.isInstruction = c.isInstruction := by
  cases h <;> rfl

theorem IsFor.grows (h : IsFor name c) (hgrows : c.Grows d) : IsFor name d := by
  cases hgrows with
  | refl => exact h
  | template => cases h
  | applyTemplates => cases h; exact .applyTemplates
  | callTemplate => cases h; exact .callTemplate
  | forEach => cases h; exact .forEach
  | choose => cases h; exact .choose

theorem Admits.grows (h : outer.Admits c) (hgrows : c.Grows d) : outer.Admits d := by
  cases h with
  | instruction hholds hmarked hinner =>
      exact .instruction hholds hmarked (hgrows.isInstruction_eq.trans hinner)
  | param => cases hgrows; exact .param
  | appliedParam => cases hgrows; exact .appliedParam
  | calledParam => cases hgrows; exact .calledParam
  | sort => cases hgrows; exact .sort
  | «when» => cases hgrows; exact .when
  | otherwise => cases hgrows; exact .otherwise

theorem IsFor.isInner (h : IsFor name c) : c.isInner = true := by
  cases h <;> rfl

theorem IsFor.counts_eq (h : IsFor name c) :
    c.counts = countsIn name (Text.holdsOther Text.isBlank) := by
  funext content
  cases h <;> simp [counts, countsIn]

theorem fits_nil (c : Construct) : c.Fits [] := by
  cases c with
  | template _ _ _ _ _ hasContent =>
      cases hasContent with
      | false => rfl
      | true => trivial
  | _ => trivial

theorem fits_markContent (c : Construct) (body : List Instruction) : c.markContent.Fits body := by
  cases c <;> trivial

theorem grows_markContent (c : Construct) : c.Grows c.markContent := by
  cases c with
  | template => exact .template
  | forEach => exact .forEach
  | _ => exact .refl

theorem inside_markContent (c : Construct) (body : List Instruction) :
    c.markContent.inside body = c.inside body := by
  cases c <;> rfl

/-- An instruction is laid out after those that were met before it. -/
theorem inside_append (h : c.holdsInstructions = true ∨ c = .text) (body others : List Instruction) :
    c.inside (body ++ others) = c.inside body ++ bodyLayouts others := by
  cases c with
  | template => simp only [inside, bodyLayouts_append, List.append_assoc]
  | param | «variable» | withParam | forEach | ifThen | «when» | otherwise | literal | element | attr
  | copy | comment | message | text => exact bodyLayouts_append body others
  | _ =>
      obtain h | h := h
      · cases h
      · cases h

end Construct

end Restyle
