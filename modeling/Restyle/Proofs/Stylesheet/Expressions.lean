import Mathlib
import Restyle.Proofs.Expr.Calls
import Restyle.Proofs.Rules
import Restyle.Proofs.Run.Expressions
import Restyle.Proofs.Stylesheet.Readings

/-!
# Restyle.Proofs.Stylesheet.Expressions

Where the expressions of a stylesheet come from.

A stylesheet is put together from what tags say and from nothing else.  So whatever is true of all
expressions that are read, and of the one that stands for a missing sort key, is true of every
expression in the stylesheet, wherever it ends up.

* `Stylesheet.exprs` — the expressions in a stylesheet;
* `Gives` — what a computation gives if it succeeds;
* `ReadAs` — what is true of all that is read;
* `Assembly.Only` — the invariant of the steps;
* `Stylesheet.forall_exprs_of_ofText` — the main result;
* `Stylesheet.known_of_ofText` — the case of the functions called.
-/

namespace Restyle

open Markup (Place)

/-! ## Expressions -/

theorem bodyExprs_eq_flatMap (body : List Instruction) :
    bodyExprs body = body.flatMap Instruction.exprs := by
  induction body with
  | nil => rfl
  | cons instruction others ih => rw [bodyExprs, ih, List.flatMap_cons]

theorem passedExprs_append (passed others : List (String × ValueSource Instruction)) :
    passedExprs (passed ++ others) = passedExprs passed ++ passedExprs others := by
  induction passed with
  | nil => rfl
  | cons value passed ih =>
      obtain ⟨name, source⟩ := value
      simp [passedExprs, ih]

theorem whenExprs_append (whens others : List (Expr × List Instruction)) :
    whenExprs (whens ++ others) = whenExprs whens ++ whenExprs others := by
  induction whens with
  | nil => rfl
  | cons when whens ih =>
      obtain ⟨test, body⟩ := when
      simp [whenExprs, ih]

/-- The expressions in a stylesheet: in global values, in templates and in the patterns of rules. -/
def Stylesheet.exprs (stylesheet : Stylesheet) : List Expr :=
  (stylesheet.globals.flatMap fun new => sourceExprs new.value) ++
    (stylesheet.rules.templates.flatMap Template.exprs ++
      stylesheet.rules.ranked.flatMap fun rule => rule.path.predicates)

/-- The expressions that an open construct holds besides its body. -/
def Construct.exprs : Construct → List Expr
  | .template _ pattern _ _ params _ =>
    (pattern.map Pattern.predicates).getD [] ++ passedExprs params
  | .param _ select _ | .variable _ select _ | .withParam _ select => select.toList
  | .applyTemplates select _ sorts passed =>
    select.toList ++ (sorts.map SortKey.select ++ passedExprs passed)
  | .callTemplate _ passed => passedExprs passed
  | .forEach select sorts _ => select :: sorts.map SortKey.select
  | .ifThen test | .when test => [test]
  | .choose whens last => (Instruction.choose whens last).exprs
  | .literal _ _ attributes => attributes.flatMap fun attr => attr.2.exprs
  | .element name | .attr name => name.exprs
  | .empty _ made => (made.map Instruction.exprs).getD []
  | .document | .stylesheet | .ignored | .otherwise | .copy | .comment | .message _ | .text => []

theorem Construct.exprs_choose (whens : List (Expr × List Instruction))
    (last : Option (List Instruction)) :
    (Construct.choose whens last).exprs = whenExprs whens ++ (last.map bodyExprs).getD [] := by
  cases last <;> simp [Construct.exprs, Instruction.exprs]

theorem Construct.exprs_markContent (construct : Construct) :
    construct.markContent.exprs = construct.exprs := by
  cases construct <;> rfl

/-! ## Computations -/

/-- What a computation gives, if it succeeds, has a property. -/
def Gives {ε α : Type} (P : α → Prop) (x : Except ε α) : Prop := ∀ a, x = .ok a → P a

section Gives

variable {ε α β : Type} {P : α → Prop} {Q : β → Prop}

theorem gives_ok {a : α} (h : P a) : Gives P (.ok a : Except ε α) := by
  rintro a ⟨⟩
  exact h

theorem gives_error (error : ε) : Gives P (.error error) := nofun

theorem gives_any (x : Except ε α) : Gives (fun _ => True) x := fun _ _ => trivial

theorem Gives.bind {x : Except ε α} {f : α → Except ε β} (hx : Gives P x)
    (hf : ∀ a, P a → Gives Q (f a)) : Gives Q (x >>= f) := by
  intro b h
  obtain ⟨a, ha, h⟩ := bind_eq_ok.1 h
  exact hf a (hx a ha) b h

theorem Gives.map {x : Except ε α} {f : α → β} (hx : Gives P x) (hf : ∀ a, P a → Q (f a)) :
    Gives Q (x.map f) := by
  intro b h
  obtain ⟨a, ha, rfl⟩ := map_eq_ok.1 h
  exact hf a (hx a ha)

end Gives

/-! ## What is read -/

/-- What is true of the expressions that are read for a stylesheet: of those in attributes, of those
in patterns, and of the context node, which stands for a sort key that is not there. -/
structure ReadAs (E : Expr → Prop) : Prop where
  expr (source : String) : Gives E (styleExpr source)
  pattern (text : String) :
    Gives (fun pattern => ∀ e ∈ pattern.predicates, E e) (Pattern.parse Function.names text)
  contextNode : E .contextNode

variable {E : Expr → Prop} (hread : ReadAs E)

theorem exprs_consText (text : List Char) (parts : TextTemplate) :
    TextTemplate.exprs (TextTemplate.consText text parts) = parts.exprs := by
  unfold TextTemplate.consText
  split <;> rfl

section Readings

include hread

theorem ReadAs.template (text : String) :
    Gives (fun template => ∀ e ∈ template.exprs, E e) (styleTemplate text) := by
  have hsegments (segments : List TextTemplate.Segment) : ∀ before,
      Gives (fun template => ∀ e ∈ template.exprs, E e)
        (TextTemplate.ofSegments Function.names text before segments) := by
    induction segments with
    | nil =>
        intro before
        refine gives_ok ?_
        rw [exprs_consText]
        exact List.forall_mem_nil E
    | cons segment segments ih =>
        intro before
        cases segment with
        | char c => exact ih (c :: before)
        | source cs =>
            refine (hread.expr _).bind fun e he => (ih []).bind fun parts hparts => gives_ok ?_
            rw [exprs_consText]
            exact List.forall_mem_cons.2 ⟨he, hparts⟩
        | unclosed | unopened => exact gives_error _
  exact hsegments _ []

namespace StyleTag

variable (tag : StyleTag)

theorem gives_exprIn (name : String) :
    Gives (fun select => ∀ e ∈ select.toList, E e) (tag.exprIn name) := by
  unfold exprIn
  split
  · exact (hread.expr _).map fun _ he => List.forall_mem_singleton.2 he
  · exact gives_ok (List.forall_mem_nil E)

theorem gives_requiredExpr (name element : String) : Gives E (tag.requiredExpr name element) :=
  (gives_any _).bind fun source _ => hread.expr source

theorem gives_nameAndSelect (element : String) :
    Gives (fun named => ∀ e ∈ named.2.toList, E e) (tag.nameAndSelect element) :=
  (gives_any _).bind fun _ _ => (tag.gives_exprIn hread "select").bind fun _ hselect =>
    gives_ok hselect

theorem gives_sortKey : Gives (fun key => E key.select) tag.sortKey := by
  unfold sortKey
  refine (tag.gives_exprIn hread "select").bind fun select hselect => ?_
  have hkey : E (select.getD Expr.contextNode) := by
    cases select with
    | none => exact hread.contextNode
    | some e => exact List.forall_mem_singleton.1 hselect
  dsimp only
  split
  case h_3 => exact gives_error _
  -- the type is read alike for both orders
  all_goals
    refine Gives.bind (P := fun _ => True) (gives_any _) fun order _ => ?_
    split
    · exact gives_ok hkey
    · exact gives_ok hkey
    · exact gives_error _

theorem gives_templateConstruct :
    Gives (fun construct => ∀ e ∈ construct.exprs, E e) tag.templateConstruct := by
  have hconstruct (priority : Option Double) {pattern : Option Pattern}
      (hpattern : ∀ e ∈ (pattern.map Pattern.predicates).getD [], E e) :
      ∀ e ∈ (Construct.template (tag.attr? "name") pattern (tag.attr? "mode") priority []
        false).exprs, E e := by
    simpa only [Construct.exprs, passedExprs, List.append_nil] using hpattern
  unfold templateConstruct
  cases tag.attr? "match" with
  | some text =>
      simp only [Option.isNone_some, Bool.and_false, Bool.false_and, Bool.false_eq_true, if_false]
      refine (gives_any tag.priority).bind fun priority _ => ?_
      have hpattern := (hread.pattern text).map (f := some)
        (Q := fun pattern => ∀ e ∈ (pattern.map Pattern.predicates).getD [], E e) fun _ h => h
      exact hpattern.bind fun pattern hpattern => gives_ok (hconstruct priority hpattern)
  | none =>
      dsimp only
      split
      · exact gives_error _
      · split
        · exact gives_error _
        · exact (gives_any tag.priority).bind fun priority _ =>
            gives_ok (hconstruct priority (List.forall_mem_nil E))

theorem gives_instructionConstruct? {localPart : String} {read : Except Failure Construct}
    (h : tag.instructionConstruct? localPart = some read) :
    Gives (fun construct => ∀ e ∈ construct.exprs, E e) read := by
  have hnone {construct : Construct} (hexprs : construct.exprs = []) :
      ∀ e ∈ construct.exprs, E e := by
    rw [hexprs]
    exact List.forall_mem_nil E
  unfold instructionConstruct? at h
  split at h
  case h_14 => cases h
  all_goals obtain rfl := Option.some.inj h
  · refine (tag.gives_exprIn hread _).bind fun select hselect => gives_ok ?_
    simpa only [Construct.exprs, passedExprs, List.map_nil, List.append_nil] using hselect
  · exact (gives_any _).bind fun _ _ =>
      gives_ok (hnone (by simp only [Construct.exprs, passedExprs]))
  · exact (tag.gives_requiredExpr hread _ _).bind fun _ he =>
      gives_ok (List.forall_mem_singleton.2 he)
  · exact (tag.gives_requiredExpr hread _ _).bind fun _ he =>
      gives_ok (List.forall_mem_singleton.2 he)
  · exact gives_ok (hnone (by simp only [Construct.exprs, Instruction.exprs, whenExprs]))
  · exact gives_ok (hnone rfl)
  · refine (tag.gives_requiredExpr hread _ _).bind fun _ he => gives_ok ?_
    simpa only [Construct.exprs, Option.map_some, Option.getD_some, Instruction.exprs] using
      List.forall_mem_singleton.2 he
  · refine (tag.gives_requiredExpr hread _ _).bind fun _ he => gives_ok ?_
    simpa only [Construct.exprs, Option.map_some, Option.getD_some, Instruction.exprs] using
      List.forall_mem_singleton.2 he
  · exact gives_ok (hnone rfl)
  · exact (gives_any _).bind fun _ _ => (hread.template _).bind fun _ hname => gives_ok hname
  · exact (gives_any _).bind fun _ _ => (hread.template _).bind fun _ hname => gives_ok hname
  · exact gives_ok (hnone rfl)
  · exact (gives_any _).bind fun _ _ => gives_ok (hnone rfl)

theorem gives_literalConstruct (name : QName) :
    Gives (fun construct => ∀ e ∈ construct.exprs, E e) (tag.literalConstruct name) := by
  have hattributes (attributes : List Attribute) :
      Gives (fun made : List (QName × TextTemplate) =>
          ∀ e ∈ made.flatMap fun attr => attr.2.exprs, E e)
        (attributes.mapM fun attr => do return (attr.name, ← styleTemplate attr.value)) := by
    intro made hmade e he
    obtain ⟨attr, hattr, hmem⟩ := List.mem_flatMap.1 he
    obtain ⟨source, -, hread'⟩ := (mem_of_mapM_eq_ok hmade).1 hattr
    obtain ⟨template, htemplate, hpair⟩ := bind_eq_ok.1 hread'
    obtain rfl := Except.ok.inj hpair
    exact hread.template source.value template htemplate e hmem
  exact (hattributes tag.attributes).bind fun _ hmade => gives_ok hmade

end StyleTag

end Readings

/-! ## Assemblies -/

theorem mem_sourceExprs {e : Expr} {value : ValueSource Instruction} {select : Option Expr}
    {body : List Instruction} {element : String} {place : Place}
    (hvalue : Assembly.valueSource element place select body = .ok value)
    (he : e ∈ sourceExprs value) : e ∈ select.toList ∨ e ∈ bodyExprs body := by
  unfold Assembly.valueSource at hvalue
  split at hvalue
  · cases hvalue
  · obtain rfl := Except.ok.inj hvalue
    exact .inl (by simpa [sourceExprs] using he)
  · obtain rfl := Except.ok.inj hvalue
    simp [sourceExprs] at he
  · obtain rfl := Except.ok.inj hvalue
    exact .inr (by simpa [sourceExprs] using he)

namespace Assembly

/-- Nothing but expressions of one sort is held by what is open, stands in the instructions met so
far or has gone into the stylesheet. -/
structure Only (E : Expr → Prop) (a : Assembly) : Prop where
  constructs : ∀ element ∈ a.opened, ∀ e ∈ element.construct.exprs, E e
  bodies : ∀ body ∈ a.bodies, ∀ e ∈ bodyExprs body, E e
  globals : ∀ new ∈ a.globals, ∀ e ∈ sourceExprs new.value, E e
  templates : ∀ template ∈ a.rules.templates, ∀ e ∈ template.exprs, E e
  patterns : ∀ rule ∈ a.rules.ranked, ∀ e ∈ rule.path.predicates, E e

theorem only_empty : empty.Only E := by
  refine ⟨fun element helement => ?_, fun body hbody => ?_, List.forall_mem_nil _,
    List.forall_mem_nil _, List.forall_mem_nil _⟩
  · obtain rfl := List.mem_singleton.1 helement
    exact List.forall_mem_nil E
  · obtain rfl := List.mem_singleton.1 hbody
    rw [bodyExprs]
    exact List.forall_mem_nil E

variable {a : Assembly}

theorem Only.parent (h : a.Only E) : ∀ e ∈ a.parent.exprs, E e := by
  unfold Assembly.parent
  split
  · exact List.forall_mem_nil E
  · next inner outer hopened => exact h.constructs inner (hopened ▸ List.mem_cons_self)

theorem Only.push (h : a.Only E) (construct : Construct) (hconstruct : ∀ e ∈ construct.exprs, E e)
    (place : Place) : (a.push construct place).Only E where
  constructs := List.forall_mem_cons.2 ⟨hconstruct, h.constructs⟩
  bodies := List.forall_mem_cons.2 ⟨by rw [bodyExprs]; exact List.forall_mem_nil E, h.bodies⟩
  globals := h.globals
  templates := h.templates
  patterns := h.patterns

theorem Only.amend (h : a.Only E) {change : Construct → Construct}
    (hchange : ∀ e ∈ (change a.parent).exprs, E e) : (a.amend change).Only E := by
  unfold Assembly.amend
  split
  · exact h
  · next inner outer hopened =>
    rw [Assembly.parent, hopened] at hchange
    refine ⟨List.forall_mem_cons.2 ⟨hchange, fun element helement => ?_⟩, h.bodies, h.globals,
      h.templates, h.patterns⟩
    exact h.constructs element (hopened ▸ List.mem_cons_of_mem _ helement)

theorem Only.emit (h : a.Only E) {instruction : Instruction}
    (hinstruction : ∀ e ∈ instruction.exprs, E e) : (a.emit instruction).Only E := by
  unfold Assembly.emit
  split
  · exact h
  · next body outer hbodies =>
    have hold := h.bodies
    rw [hbodies] at hold
    obtain ⟨hbody, houter⟩ := List.forall_mem_cons.1 hold
    refine ⟨h.constructs, List.forall_mem_cons.2 ⟨?_, houter⟩, h.globals, h.templates, h.patterns⟩
    rw [bodyExprs]
    exact List.forall_mem_append.2 ⟨hinstruction, hbody⟩

theorem Only.emitAll (h : a.Only E) {body : List Instruction} (hbody : ∀ e ∈ bodyExprs body, E e) :
    (body.foldl Assembly.emit a).Only E := by
  induction body generalizing a with
  | nil => exact h
  | cons instruction others ih =>
      rw [bodyExprs, List.forall_mem_append] at hbody
      exact ih (h.emit hbody.1) hbody.2

/-! ### Start tags -/

theorem Only.markContent (h : a.Only E) : (a.amend Construct.markContent).Only E :=
  h.amend (by rw [Construct.exprs_markContent]; exact h.parent)

theorem Only.begin (h : a.Only E) (tag : StyleTag) (element : String) :
    Gives (Only E) (a.begin tag element) := by
  unfold Assembly.begin
  split
  · exact gives_error _
  · split
    · exact gives_ok h.markContent
    · exact gives_error _

section Tags

include hread

variable (tag : StyleTag)

theorem Only.startParam (h : a.Only E) : Gives (Only E) (a.startParam tag) := by
  have hpush (isGlobal : Bool) : Gives (Only E) (do
      let named ← tag.nameAndSelect "xsl:param"
      return a.push (.param named.1 named.2 isGlobal) tag.place) :=
    (tag.gives_nameAndSelect hread _).bind fun _ hselect =>
      gives_ok (h.push (.param _ _ _) hselect _)
  unfold Assembly.startParam
  dsimp only
  split
  · exact hpush true
  · exact hpush false
  · exact gives_error _
  · exact gives_error _

theorem Only.startVariable (h : a.Only E) : Gives (Only E) (a.startVariable tag) := by
  have hpush {begun : Assembly} (hbegun : begun.Only E) (isGlobal : Bool) : Gives (Only E) (do
      let named ← tag.nameAndSelect "xsl:variable"
      return begun.push (.variable named.1 named.2 isGlobal) tag.place) :=
    (tag.gives_nameAndSelect hread _).bind fun _ hselect =>
      gives_ok (hbegun.push (.variable _ _ _) hselect _)
  unfold Assembly.startVariable
  dsimp only
  split
  · exact hpush h true
  · exact (h.begin tag _).bind fun _ hbegun => hpush hbegun false

theorem Only.startWithParam (h : a.Only E) : Gives (Only E) (a.startWithParam tag) := by
  have hpush : Gives (Only E) (do
      let named ← tag.nameAndSelect "xsl:with-param"
      return a.push (.withParam named.1 named.2) tag.place) :=
    (tag.gives_nameAndSelect hread _).bind fun _ hselect =>
      gives_ok (h.push (.withParam _ _) hselect _)
  unfold Assembly.startWithParam
  dsimp only
  split
  · exact hpush
  · exact hpush
  · exact gives_error _

omit hread in
theorem Only.addSort (h : a.Only E) {key : SortKey} (hkey : E key.select) :
    Gives (Only E) (a.addSort tag key) := by
  have hparent := h.parent
  have hsorted {sorts : List SortKey} (hsorts : ∀ e ∈ sorts.map SortKey.select, E e) :
      ∀ e ∈ (sorts ++ [key]).map SortKey.select, E e := by
    rw [List.map_append]
    exact List.forall_mem_append.2 ⟨hsorts, List.forall_mem_singleton.2 hkey⟩
  unfold Assembly.addSort
  cases hopened : a.opened with
  | nil => exact gives_error _
  | cons inner outer =>
      rw [Assembly.parent, hopened] at hparent
      dsimp only at hparent ⊢
      split
      · next hinner =>
        rw [hinner, Construct.exprs, List.forall_mem_append, List.forall_mem_append] at hparent
        obtain ⟨hselect, hsorts, hpassed⟩ := hparent
        refine gives_ok (h.amend ?_)
        rw [Construct.exprs, List.forall_mem_append, List.forall_mem_append]
        exact ⟨hselect, hsorted hsorts, hpassed⟩
      · next hinner =>
        rw [hinner, Construct.exprs, List.forall_mem_cons] at hparent
        refine gives_ok (h.amend ?_)
        rw [Construct.exprs, List.forall_mem_cons]
        exact ⟨hparent.1, hsorted hparent.2⟩
      · exact gives_error _
      · exact gives_error _

theorem Only.startSort (h : a.Only E) : Gives (Only E) (a.startSort tag) :=
  (tag.gives_sortKey hread).bind fun _ hkey => (h.addSort tag hkey).bind fun _ hsorted =>
    gives_ok (hsorted.push (.empty _ none) (List.forall_mem_nil E) _)

omit hread in
theorem Only.startInstruction (h : a.Only E) (element : String) {read : Except Failure Construct}
    (hconstruct : Gives (fun construct => ∀ e ∈ construct.exprs, E e) read) :
    Gives (Only E) (do
      let begun ← a.begin tag element
      return begun.push (← read) tag.place) :=
  (h.begin tag element).bind fun _ hbegun => hconstruct.bind fun _ hexprs =>
    gives_ok (hbegun.push _ hexprs _)

theorem Only.startLanguage (h : a.Only E) (localPart : String) :
    Gives (Only E) (a.startLanguage tag localPart) := by
  have hempty {a' : Assembly} (h' : a'.Only E) (name : String) :
      Gives (Only E) (.ok (a'.push (.empty name none) tag.place) : Except Failure Assembly) :=
    gives_ok (h'.push (.empty name none) (List.forall_mem_nil E) _)
  unfold Assembly.startLanguage
  split
  · exact (gives_any _).bind fun _ _ => (tag.gives_templateConstruct hread).bind
      fun _ hexprs => gives_ok (h.push _ hexprs _)
  · have hform (form : OutputForm) : ({ a with output := form } : Assembly).Only E :=
      ⟨h.constructs, h.bodies, h.globals, h.templates, h.patterns⟩
    exact (gives_any _).bind fun _ _ => (gives_any _).bind fun form _ => hempty (hform form) _
  · exact (gives_any _).bind fun _ _ => hempty h _
  · exact (gives_any _).bind fun _ _ => hempty h _
  · exact h.startParam hread tag
  · exact h.startVariable hread tag
  · exact h.startWithParam hread tag
  · exact h.startSort hread tag
  · exact (gives_any _).bind fun _ _ => (tag.gives_requiredExpr hread _ _).bind fun _ he =>
      gives_ok (h.push (.when _) (List.forall_mem_singleton.2 he) _)
  · exact (gives_any _).bind fun _ _ => gives_ok (h.push .otherwise (List.forall_mem_nil E) _)
  · split
    · next hconstruct =>
      exact h.startInstruction tag _ (tag.gives_instructionConstruct? hread hconstruct)
    · exact gives_error _

theorem Only.start (h : a.Only E) : Gives (Only E) (a.start tag) := by
  unfold Assembly.start
  split
  · exact gives_ok (h.push .ignored (List.forall_mem_nil E) _)
  · unfold startDocument
    split
    · split
      · exact gives_ok (h.push .stylesheet (List.forall_mem_nil E) _)
      · exact gives_error _
    · exact gives_error _
  · exact h.startLanguage hread tag _
  · exact gives_ok (h.push .ignored (List.forall_mem_nil E) _)
  · exact h.startInstruction tag _ (tag.gives_literalConstruct hread _)

end Tags

/-! ### Text and end tags -/

theorem Only.text (h : a.Only E) (content : String) (place : Place) :
    Gives (Only E) (a.text content place) := by
  have hemit {a' : Assembly} (h' : a'.Only E) : (a'.emit (.text content)).Only E :=
    h'.emit (by rw [Instruction.exprs]; exact List.forall_mem_nil E)
  unfold Assembly.text
  split
  · exact gives_ok (hemit h)
  · exact gives_ok h
  · split
    · exact gives_ok h
    · split
      · exact gives_error _
      · split
        · exact gives_ok (hemit h.markContent)
        · exact gives_error _

theorem Only.addGlobal (h : a.Only E) (place : Place) {new : Global}
    (hnew : ∀ e ∈ sourceExprs new.value, E e) : Gives (Only E) (a.addGlobal place new) := by
  unfold Assembly.addGlobal
  split
  · exact gives_error _
  · exact gives_ok ⟨h.constructs, h.bodies,
      List.forall_mem_append.2 ⟨h.globals, List.forall_mem_singleton.2 hnew⟩, h.templates,
      h.patterns⟩

theorem Only.addParam (h : a.Only E) (place : Place) (name : String)
    {value : ValueSource Instruction} (hvalue : ∀ e ∈ sourceExprs value, E e) :
    Gives (Only E) (a.addParam place name value) := by
  have hparent := h.parent
  unfold Assembly.addParam
  split
  · next hopen =>
    rw [hopen, Construct.exprs, List.forall_mem_append] at hparent
    split
    · exact gives_error _
    · refine gives_ok (h.amend ?_)
      rw [Construct.exprs, passedExprs_append, List.forall_mem_append, List.forall_mem_append]
      exact ⟨hparent.1, hparent.2, by simpa [passedExprs] using hvalue⟩
  · exact gives_ok h

theorem Only.addPassed (h : a.Only E) (name : String) {value : ValueSource Instruction}
    (hvalue : ∀ e ∈ sourceExprs value, E e) : Gives (Only E) (a.addPassed name value) := by
  have hparent := h.parent
  have hpassed {passed : List (String × ValueSource Instruction)}
      (hold : ∀ e ∈ passedExprs passed, E e) :
      ∀ e ∈ passedExprs (passed ++ [(name, value)]), E e := by
    rw [passedExprs_append, List.forall_mem_append]
    exact ⟨hold, by simpa [passedExprs] using hvalue⟩
  unfold Assembly.addPassed
  split
  · next hopen =>
    rw [hopen, Construct.exprs, List.forall_mem_append, List.forall_mem_append] at hparent
    obtain ⟨hselect, hsorts, hold⟩ := hparent
    refine gives_ok (h.amend ?_)
    rw [Construct.exprs, List.forall_mem_append, List.forall_mem_append]
    exact ⟨hselect, hsorts, hpassed hold⟩
  · next hopen =>
    rw [hopen] at hparent
    exact gives_ok (h.amend (hpassed hparent))
  · exact gives_error _

/-- A finished template goes among the others with what it holds. -/
theorem Only.addTemplate (h : a.Only E) {template : Template}
    (htemplate : ∀ e ∈ template.exprs, E e)
    (hpattern : ∀ path ∈ template.paths, ∀ e ∈ path.predicates, E e) {rules : Rules}
    (hadd : a.rules.add template = .ok rules) : ({ a with rules := rules } : Assembly).Only E := by
  refine ⟨h.constructs, h.bodies, h.globals, fun other hother => ?_, fun rule hrule => ?_⟩
  · obtain hold | rfl := Rules.mem_templates_add hadd hother
    · exact h.templates other hold
    · exact htemplate
  · have hranked : rules.ranked = _ := (Rules.of_add_eq_ok hadd).1
    rw [show ({ a with rules := rules } : Assembly).rules.ranked = rules.ranked from rfl,
      hranked] at hrule
    obtain hold | ⟨-, hpath⟩ := Rules.mem_addPaths hrule
    · exact h.patterns rule hold
    · exact hpattern rule.path hpath

/-- What a construct makes is made of what it holds and of its body. -/
theorem Only.close (h : a.Only E) {construct : Construct} (hconstruct : ∀ e ∈ construct.exprs, E e)
    {body : List Instruction} (hbody : ∀ e ∈ bodyExprs body, E e) (place : Place) :
    Gives (Only E) (a.close place body construct) := by
  have hsource (element : String) {select : Option Expr} (hselect : ∀ e ∈ select.toList, E e) :
      Gives (fun value => ∀ e ∈ sourceExprs value, E e)
        (valueSource element place select body) := fun value hvalue e he =>
    (mem_sourceExprs hvalue he).elim (hselect e) (hbody e)
  have hemit {instruction : Instruction} (hexprs : ∀ e ∈ instruction.exprs, E e) :
      Gives (Only E) (.ok (a.emit instruction) : Except Failure Assembly) :=
    gives_ok (h.emit hexprs)
  have hbranch {change : Construct → Construct}
      (hchange : ∀ outer : Construct, (∀ e ∈ outer.exprs, E e) → ∀ e ∈ (change outer).exprs, E e) :
      Gives (Only E) (.ok (a.amend change) : Except Failure Assembly) :=
    gives_ok (h.amend (hchange a.parent h.parent))
  cases construct with
  | document => exact gives_error _
  | stylesheet | ignored => exact gives_ok h
  | template name pattern mode priority params hasContent =>
      rw [Construct.exprs, List.forall_mem_append] at hconstruct
      intro a' hclosed
      obtain ⟨rules, hadd, hclosed⟩ := bind_eq_ok.1 hclosed
      obtain rfl := Except.ok.inj hclosed
      refine h.addTemplate (List.forall_mem_append.2 ⟨hconstruct.2, hbody⟩)
        (fun path hpath e he => hconstruct.1 e ?_) (mapError_eq_ok.1 hadd)
      cases pattern with
      | none => exact absurd hpath List.not_mem_nil
      | some pattern => exact List.mem_flatMap.2 ⟨path, hpath, he⟩
  | param name select isGlobal =>
      refine (hsource _ hconstruct).bind fun value hvalue => ?_
      cases isGlobal with
      | true => exact h.addGlobal place hvalue
      | false => exact h.addParam place name hvalue
  | «variable» name select isGlobal =>
      refine (hsource _ hconstruct).bind fun value hvalue => ?_
      cases isGlobal with
      | true => exact h.addGlobal place hvalue
      | false => exact hemit (by rw [Instruction.exprs]; exact hvalue)
  | withParam name select =>
      exact (hsource _ hconstruct).bind fun value hvalue => h.addPassed name hvalue
  | applyTemplates select mode sorts passed =>
      exact hemit (by rw [Instruction.exprs]; exact hconstruct)
  | callTemplate name passed => exact hemit (by rw [Instruction.exprs]; exact hconstruct)
  | forEach select sorts hasContent =>
      refine hemit ?_
      rw [Construct.exprs, List.forall_mem_cons] at hconstruct
      rw [Instruction.exprs, List.forall_mem_cons, List.forall_mem_append]
      exact ⟨hconstruct.1, hconstruct.2, hbody⟩
  | ifThen test =>
      refine hemit ?_
      rw [Instruction.exprs, List.forall_mem_cons]
      exact ⟨List.forall_mem_singleton.1 hconstruct, hbody⟩
  | choose whens last =>
      simp only [Assembly.close]
      split
      · exact gives_error _
      · exact hemit hconstruct
  | «when» test =>
      refine hbranch fun outer houter => ?_
      cases outer with
      | choose whens last =>
          rw [Construct.exprs_choose, List.forall_mem_append] at houter
          rw [Construct.exprs_choose, whenExprs_append, List.forall_mem_append,
            List.forall_mem_append]
          refine ⟨⟨houter.1, ?_⟩, houter.2⟩
          rw [whenExprs, List.forall_mem_cons, List.forall_mem_append]
          exact ⟨List.forall_mem_singleton.1 hconstruct, hbody, by simp [whenExprs]⟩
      | _ => exact houter
  | otherwise =>
      refine hbranch fun outer houter => ?_
      cases outer with
      | choose whens last =>
          rw [Construct.exprs_choose, List.forall_mem_append] at houter ⊢
          exact ⟨houter.1, hbody⟩
      | _ => exact houter
  | literal name namespaces attributes =>
      exact hemit (by rw [Instruction.exprs]; exact List.forall_mem_append.2 ⟨hconstruct, hbody⟩)
  | element name | attr name =>
      exact hemit (by rw [Instruction.exprs]; exact List.forall_mem_append.2 ⟨hconstruct, hbody⟩)
  | copy | comment | message => exact hemit (by rw [Instruction.exprs]; exact hbody)
  | text => exact gives_ok (h.emitAll hbody)
  | empty name made =>
      cases made with
      | none => exact gives_ok h
      | some instruction => exact hemit hconstruct

theorem Only.stop (h : a.Only E) : Gives (Only E) a.stop := by
  unfold Assembly.stop
  split
  · exact gives_error _
  · next inner outer hopened =>
    have houtside : ({ a with opened := outer, bodies := a.bodies.tail } : Assembly).Only E :=
      ⟨fun element helement => h.constructs element (hopened ▸ List.mem_cons_of_mem _ helement),
        fun body hbody => h.bodies body (List.mem_of_mem_tail hbody), h.globals, h.templates,
        h.patterns⟩
    refine houtside.close (h.constructs inner (hopened ▸ List.mem_cons_self)) ?_ inner.place
    -- what was met last stands first
    rw [bodyExprs_eq_flatMap]
    intro e he
    obtain ⟨instruction, hmem, he⟩ := List.mem_flatMap.1 he
    rw [List.mem_reverse] at hmem
    cases hbodies : a.bodies with
    | nil => simp [hbodies] at hmem
    | cons body bodies =>
        rw [hbodies] at hmem
        refine h.bodies body (hbodies ▸ List.mem_cons_self) e ?_
        rw [bodyExprs_eq_flatMap]
        exact List.mem_flatMap.2 ⟨instruction, hmem, he⟩

/-! ### Whole stylesheets -/

include hread

theorem Only.meet (h : a.Only E) (event : StyleEvent) : Gives (Only E) (a.meet event) := by
  cases event with
  | start tag => exact h.start hread tag
  | text content place => exact h.text content place
  | stop => exact h.stop

theorem Only.foldlM_meet (h : a.Only E) (events : List StyleEvent) :
    Gives (Only E) (events.foldlM Assembly.meet a) := by
  induction events generalizing a with
  | nil => exact gives_ok h
  | cons event events ih =>
      rw [List.foldlM_cons]
      exact (h.meet hread event).bind fun _ hnext => ih hnext

end Assembly

namespace Stylesheet

/-- What is true of all that is read is true of every expression in the stylesheet. -/
theorem forall_exprs_of_ofText {E : Expr → Prop} (hread : ReadAs E) {text : String}
    {stylesheet : Stylesheet} (h : ofText text = .ok stylesheet) :
    ∀ e ∈ stylesheet.exprs, E e := by
  unfold ofText at h
  split at h
  · next events _ =>
    obtain ⟨a, hmet, hfinish⟩ := bind_eq_ok.1 h
    have honly := Assembly.only_empty.foldlM_meet hread events a hmet
    unfold Assembly.finish at hfinish
    split at hfinish
    · obtain rfl := Except.ok.inj hfinish
      simp only [exprs, List.forall_mem_append, List.forall_mem_flatMap]
      exact ⟨honly.globals, honly.templates, honly.patterns⟩
    · cases hfinish
  · cases h

/-- Every expression in a stylesheet that has been read is known. -/
theorem known_of_ofText {text : String} {stylesheet : Stylesheet}
    (h : ofText text = .ok stylesheet) : ∀ e ∈ stylesheet.exprs, e.Known := by
  refine forall_exprs_of_ofText ⟨fun source e => Expr.known_of_compile,
    fun text pattern => Pattern.known_of_parse, ?_⟩ h
  intro name hname
  simp [Expr.contextNode, Step.self, Expr.calls, callsStart, callsSteps, callsStep, callsAll]
    at hname

end Stylesheet

end Restyle
