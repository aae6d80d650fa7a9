import Restyle.Proofs.Result.Encoding
import Restyle.Proofs.Rules
import Restyle.Proofs.Run.Copying
import Restyle.Proofs.TextTemplate

/-!
# Restyle.Proofs.Run.Literals

Literal elements and text, from the markup of a stylesheet to the events of a result.

In a stylesheet, trees of elements and texts in no namespace are written as they are, but for the
curly brackets in the values of attributes, which are doubled.  What is met of a tree, one tag or
text after another, is put together to one instruction in the construct around it, and wherever
this instruction is carried out, it writes the events for the tree.  If there is something to see in
every text and no two texts stand side by side, all of these events are kept as they are.

* `Action.Writes` — what an action writes wherever it starts;
* `Tree.Spelled` — the markup of a tree in a stylesheet;
* `Tree.exists_assembled` — the instruction that a tree is put together to;
* `Tree.encodingThen_eq` — the encoding of trees whose texts stand apart;
* `Job.literals_reproduced` — the main result.
-/

namespace Restyle

open Markup (Item Tag Place)

/-! ## Actions that write the same everywhere -/

namespace Action

variable {α β : Type}

/-- Wherever an action starts, it ends with this value and reports these events. -/
def Gives (x : Action α) (a : α) (events : List Event) : Prop :=
  ∀ s, (x.run s).shown = (.ok a, events)

/-- Wherever an action starts, it succeeds and reports these events. -/
abbrev Writes (x : Action Unit) (events : List Event) : Prop := x.Gives () events

theorem gives_pure (a : α) : (pure a : Action α).Gives a [] := fun _ => rfl

theorem writes_report (events : List Event) : (report events).Writes events := shown_report events

theorem Gives.bind {x : Action α} {f : α → Action β} {a : α} {b : β} {first second : List Event}
    (hx : x.Gives a first) (hf : (f a).Gives b second) : (x >>= f).Gives b (first ++ second) := by
  intro s
  obtain ⟨hresult, hreport⟩ := Prod.mk.inj (hx s)
  obtain ⟨hresult', hreport'⟩ := Prod.mk.inj (hf (x.run s).state)
  rw [shown_bind_of_ok f hresult, hresult', hreport, hreport']

/-- What is written one after the other. -/
theorem Writes.append {x y : Action Unit} {first second : List Event} (hx : x.Writes first)
    (hy : y.Writes second) : Writes (x >>= fun _ => y) (first ++ second) :=
  hx.bind hy

theorem Writes.inScope {x : Action Unit} {events : List Event} (h : x.Writes events) :
    x.inScope.Writes events :=
  fun s => (shown_inScope x s).trans (h _)

theorem Writes.inElement {x : Action Unit} {events : List Event} (h : x.Writes events)
    (name : String) : (x.inElement name).Writes (.start name :: (events ++ [.stop])) :=
  fun s => shown_inElement (h s) name

end Action

/-! ## Plain text templates -/

namespace TextTemplate

/-- The template for a text without expressions. -/
def plain (content : String) : TextTemplate := consText content.toList []

/-- A text with every curly bracket doubled. -/
def doubled (content : String) : String := String.ofList (content.toList.flatMap escaped)

theorem parse_doubled (functions : List String) (content : String) :
    parse functions (doubled content) = .ok (plain content) := by
  have hsegments : segments (doubled content).toList = content.toList.map .char := by
    have hcut := segmentsFrom_text content.toList []
    rwa [List.append_nil, segmentsFrom, List.append_nil, ← String.toList_ofList
      (l := content.toList.flatMap escaped)] at hcut
  have hput := ofSegments_chars functions (doubled content) content.toList [] []
  rw [List.append_nil, List.append_nil, ofSegments, List.reverse_reverse] at hput
  rw [parse, hsegments, hput]
  rfl

end TextTemplate

namespace Job

variable (job : Job)

theorem gives_expand_plain (focus : Focus) (content : String) :
    (job.expand focus (.plain content)).Gives content [] := by
  unfold TextTemplate.plain TextTemplate.consText
  split
  · next hempty =>
    obtain rfl : content = "" := by simpa using hempty
    exact Action.gives_pure ""
  · rw [expand, expand, String.ofList_toList]
    have hvalue := (Action.gives_pure "").bind (f := fun rest => pure (content ++ rest))
      (Action.gives_pure (content ++ ""))
    rwa [String.append_empty] at hvalue

/-- Attributes without expressions are written as they are. -/
theorem writes_writeAttributes (focus : Focus) (attributes : List Attribute) :
    (job.writeAttributes focus (attributes.map fun attr => (attr.name, .plain attr.value))).Writes
      (attributes.map Attribute.event) := by
  induction attributes with
  | nil => exact Action.gives_pure ()
  | cons attr attributes ih =>
      rw [List.map_cons, writeAttributes]
      exact (job.gives_expand_plain focus attr.value).bind
        (Action.Writes.append (Action.writes_report [attr.event]) ih)

end Job

/-! ## Trees in a stylesheet -/

namespace Tree

mutual

/-- The markup of a tree in a stylesheet: the tree is an element or a text, its names are in no
namespace, and no namespaces are in scope but those that are never copied. -/
inductive Spelled : Tree → Item → Prop
  | element {name : String} (attributes : List (String × String)) {children : List Tree}
    {tag : Tag} {content : List Item} :
    tag.name = ⟨none, name⟩ →
    tag.attributes =
      attributes.map (fun attr => (⟨none, attr.1⟩, TextTemplate.doubled attr.2)) →
    (∀ ns ∈ tag.scope, ns.uri = languageUri ∨ ns.uri = Markup.xmlUri) →
    SpelledAll children content →
    Spelled (.element ⟨none, name⟩ (attributes.map fun attr => ⟨⟨none, attr.1⟩, attr.2⟩) children)
      (.element tag content)
  | text {content : String} {place : Place} : Spelled (.text content) (.text content place)

/-- The markup of trees in a stylesheet, one after another. -/
inductive SpelledAll : List Tree → List Item → Prop
  | nil : SpelledAll [] []
  | cons {tree : Tree} {trees : List Tree} {item : Item} {items : List Item} :
    Spelled tree item → SpelledAll trees items → SpelledAll (tree :: trees) (item :: items)

end

/-- Whether a tree is a text. -/
def isText : Tree → Bool
  | .text _ => true
  | _ => false

mutual

/-- Whether there is something to see in each text of a tree, and no two texts stand side by side
in it. -/
def Apart : Tree → Prop
  | .element _ _ children => ForestApart children
  | .text content => content.toList.all Text.isBlank = false
  | .comment _ | .instruction .. => True

/-- Whether there is something to see in each text of some trees, and no two texts stand side by
side. -/
def ForestApart : List Tree → Prop
  | [] => True
  | tree :: trees =>
    tree.Apart ∧ (∀ next ∈ trees.head?, ¬(tree.isText ∧ next.isText)) ∧ ForestApart trees

end

end Tree

/-! ## Put together to instructions -/

namespace Assembly

/-- Add an instruction that has been met whole to the innermost open construct. -/
def take (a : Assembly) (instruction : Instruction) : Assembly :=
  (a.amend Construct.markContent).emit instruction

/-- Instructions that are taken into a construct stand in it in reverse. -/
theorem foldl_take (a : Assembly) (construct : Construct) (place : Place)
    (body instructions : List Instruction) :
    instructions.foldl take
        { a with opened := ⟨construct, place⟩ :: a.opened, bodies := body :: a.bodies } =
      { a with
        opened := ⟨if instructions.isEmpty then construct else construct.markContent, place⟩ ::
          a.opened
        bodies := (instructions.reverse ++ body) :: a.bodies } := by
  induction instructions generalizing construct body with
  | nil => rfl
  | cons instruction instructions ih =>
      have htake : { a with
            opened := ⟨construct, place⟩ :: a.opened
            bodies := body :: a.bodies }.take instruction =
          { a with
            opened := ⟨construct.markContent, place⟩ :: a.opened
            bodies := (instruction :: body) :: a.bodies } := rfl
      rw [List.foldl_cons, htake, ih, Construct.markContent_markContent, ite_self]
      simp

/-- Whether instructions may stand in the innermost open construct. -/
def Holding (a : Assembly) : Prop := a.parent.holdsInstructions = true

theorem Holding.take {a : Assembly} (h : a.Holding) (instruction : Instruction) :
    (a.take instruction).Holding := by
  rw [Holding, Assembly.take, parent_emit]
  exact holds_markContent h

end Assembly

namespace Tree

open Assembly (Holding)

/-- The namespaces that are never copied are not declared in the result. -/
theorem declaredIn_eq_nil {tag : Tag}
    (h : ∀ ns ∈ tag.scope, ns.uri = languageUri ∨ ns.uri = Markup.xmlUri)
    (excluded : List String) (outer : List Markup.Namespace) :
    StyleEvent.declaredIn excluded outer tag = [] := by
  refine List.filter_eq_nil_iff.2 fun ns hns hdeclared => ?_
  obtain huri | huri := h ns hns <;> simp [huri] at hdeclared

/-- The start tag of an element in no namespace, as a stylesheet means it. -/
theorem styleTag_spelled {tag : Tag} {name : String} {attributes : List (String × String)}
    (hname : tag.name = ⟨none, name⟩)
    (hattributes : tag.attributes =
      attributes.map (fun attr => (⟨none, attr.1⟩, TextTemplate.doubled attr.2)))
    (hscope : ∀ ns ∈ tag.scope, ns.uri = languageUri ∨ ns.uri = Markup.xmlUri)
    (excluded : List String) (outer : List Markup.Namespace) :
    StyleEvent.styleTag excluded outer tag =
      ⟨.literal ⟨none, name⟩,
        attributes.map fun attr => ⟨⟨none, attr.1⟩, TextTemplate.doubled attr.2⟩, [],
        tag.place⟩ := by
  have hlanguage : StyleEvent.isLanguage tag = false := by
    rw [StyleEvent.isLanguage, hname]
    rfl
  have hkept : tag.attributes.filter (fun attr => attr.1.uri != some languageUri) =
      tag.attributes := by
    refine List.filter_eq_self.2 fun attr hattr => ?_
    rw [hattributes] at hattr
    obtain ⟨written, -, rfl⟩ := List.mem_map.1 hattr
    rfl
  unfold StyleEvent.styleTag
  rw [hlanguage, if_neg Bool.false_ne_true, hkept, declaredIn_eq_nil hscope, hattributes, hname,
    List.map_map]
  rfl

/-- The construct that a literal element without expressions opens. -/
theorem literalConstruct_doubled (name : QName) (attributes : List (String × String))
    (place : Place) :
    StyleTag.literalConstruct ⟨.literal name,
      attributes.map fun attr => ⟨⟨none, attr.1⟩, TextTemplate.doubled attr.2⟩, [], place⟩ name =
      .ok (.literal name [] ((attributes.map fun attr => Attribute.mk ⟨none, attr.1⟩ attr.2).map
        fun attr => (attr.name, .plain attr.value))) := by
  have hread : (attributes.map fun attr =>
      Attribute.mk ⟨none, attr.1⟩ (TextTemplate.doubled attr.2)).mapM (fun attr => do
        return (attr.name, ← styleTemplate attr.value)) =
      Except.ok (ε := Failure)
        ((attributes.map fun attr => Attribute.mk ⟨none, attr.1⟩ attr.2).map
          fun attr => (attr.name, TextTemplate.plain attr.value)) := by
    induction attributes with
    | nil => rfl
    | cons attr attributes ih =>
        rw [List.map_cons, List.mapM_cons, ih, styleTemplate, TextTemplate.parse_doubled]
        rfl
  unfold StyleTag.literalConstruct
  rw [hread]
  rfl

mutual

/-- What is met of a tree is put together to an instruction that writes the events for the tree. -/
theorem exists_assembled (excluded : List String) (outer : List Markup.Namespace) :
    (tree : Tree) → {item : Item} → tree.Spelled item → tree.Apart → ∃ instruction,
      (∀ a : Assembly, a.Holding → (StyleEvent.ofItem excluded outer item).foldlM Assembly.meet a =
        .ok (a.take instruction)) ∧
      ∀ (job : Job) enter focus, (job.perform enter focus instruction).Writes tree.events
  | .element _ _ children, _,
    @Spelled.element name attributes _ tag content hname hattributes hscope hcontent, hapart => by
      obtain ⟨body, hbody, hwrites⟩ :=
        exists_assembledAll excluded tag.scope children hcontent hapart
      let plain : List Attribute := attributes.map fun attr => ⟨⟨none, attr.1⟩, attr.2⟩
      let construct : Construct :=
        .literal ⟨none, name⟩ [] (plain.map fun attr => (attr.name, .plain attr.value))
      refine ⟨.literal ⟨none, name⟩ [] (plain.map fun attr => (attr.name, .plain attr.value)) body,
        fun a ha => ?_, fun job enter focus => ?_⟩
      · have hlanguage : StyleEvent.isLanguage tag = false := by
          rw [StyleEvent.isLanguage, hname]
          rfl
        let opened := (a.amend Construct.markContent).push construct tag.place
        have hstart : a.start (StyleEvent.styleTag excluded outer tag) = .ok opened := by
          rw [styleTag_spelled hname hattributes hscope]
          exact Assembly.start_literal rfl ha (literalConstruct_doubled _ attributes tag.place)
        have hinside : body.foldl Assembly.take opened = { a.amend Construct.markContent with
            opened := ⟨construct, tag.place⟩ :: (a.amend Construct.markContent).opened
            bodies := body.reverse :: (a.amend Construct.markContent).bodies } := by
          refine (Assembly.foldl_take (a.amend Construct.markContent) construct tag.place []
            body).trans ?_
          rw [List.append_nil, show construct.markContent = construct from rfl, ite_self]
        rw [StyleEvent.ofItem, hlanguage, List.foldlM_cons, Assembly.meet, hstart]
        change List.foldlM Assembly.meet opened _ = _
        rw [if_neg Bool.false_ne_true, List.foldlM_append, hbody opened rfl, hinside]
        change Except.ok ((a.amend Construct.markContent).emit
          (.literal ⟨none, name⟩ [] _ body.reverse.reverse)) = _
        rw [List.reverse_reverse]
        rfl
      · rw [Job.perform, Tree.events]
        have hattributes := job.writes_writeAttributes focus plain
        have hinside := (hwrites job enter focus).inScope
        have hall := (Action.writes_report []).append (hattributes.append hinside)
        have helement := hall.inElement name
        rw [List.nil_append, List.append_assoc] at helement
        exact helement
  | .text content, _, @Spelled.text _ place, hapart => by
      refine ⟨.text content, fun a ha => ?_, fun job enter focus => ?_⟩
      · rw [StyleEvent.ofItem, List.foldlM_cons, Assembly.meet, Assembly.text_of_holds ha hapart]
        rfl
      · rw [Job.perform, Tree.events]
        exact Action.writes_report _

/-- What is met of trees is put together to instructions that write the events for the trees. -/
theorem exists_assembledAll (excluded : List String) (outer : List Markup.Namespace) :
    (trees : List Tree) → {items : List Item} → SpelledAll trees items → ForestApart trees →
      ∃ body,
        (∀ a : Assembly, a.Holding →
          (StyleEvent.ofItems excluded outer items).foldlM Assembly.meet a =
            .ok (body.foldl Assembly.take a)) ∧
        ∀ (job : Job) enter focus, (job.performAll enter focus body).Writes (forestEvents trees)
  | [], _, .nil, _ => by
      refine ⟨[], fun a ha => ?_, fun job enter focus => ?_⟩
      · rw [StyleEvent.ofItems]
        rfl
      · rw [Job.performAll, forestEvents]
        exact Action.gives_pure ()
  | tree :: trees, _, .cons htree htrees, hapart => by
      obtain ⟨instruction, hinstruction, hwrites⟩ :=
        exists_assembled excluded outer tree htree hapart.1
      obtain ⟨body, hbody, hwritesAll⟩ :=
        exists_assembledAll excluded outer trees htrees hapart.2.2
      refine ⟨instruction :: body, fun a ha => ?_, fun job enter focus => ?_⟩
      · rw [StyleEvent.ofItems, List.foldlM_append, hinstruction a ha, List.foldl_cons]
        exact hbody _ (ha.take instruction)
      · rw [Job.performAll, forestEvents]
        exact (hwrites job enter focus).append (hwritesAll job enter focus)

end

/-! ## Kept as they are -/

/-- Text that does not stand in front of text stays by itself. -/
theorem joinText_eq {rest : List Event} (h : ∀ content, rest.head? ≠ some (.text content))
    (content : String) : Event.joinText content rest = .text content :: rest := by
  cases rest with
  | nil => rfl
  | cons event rest =>
      cases event with
      | text after => exact absurd rfl (h after)
      | _ => rfl

/-- The events for a tree that is no text do not begin with text. -/
theorem head?_events {tree : Tree} {item : Item} (h : tree.Spelled item)
    (htext : tree.isText = false) (rest : List Event) (content : String) :
    (tree.events ++ rest).head? ≠ some (.text content) := by
  cases h with
  | element =>
      rw [events]
      rintro ⟨⟩
  | text => cases htext

mutual

/-- In the encoding of a tree whose texts stand apart, every event is as it is for the tree. -/
theorem encodingThen_eq (rest : List Event) : (tree : Tree) → {item : Item} → tree.Spelled item →
    tree.Apart → (tree.isText → ∀ content, rest.head? ≠ some (.text content)) →
    tree.encodingThen rest = tree.events ++ rest
  | .element _ _ children, _, .element _ _ _ _ hcontent, hapart, _ => by
      rw [encodingThen, forestEncodingThen_eq (.stop :: rest) children hcontent hapart nofun,
        events, List.cons_append, List.append_assoc, List.append_assoc]
      rfl
  | .text content, _, .text, hapart, hrest => by
      have hnonempty : content.isEmpty = false := by
        rw [Bool.eq_false_iff]
        intro hempty
        obtain rfl : content = "" := by simpa using hempty
        cases hapart
      rw [encodingThen, events, Event.join, hnonempty, if_neg Bool.false_ne_true,
        joinText_eq (hrest rfl)]
      rfl

/-- In the encoding of trees whose texts stand apart, every event is as it is for the trees. -/
theorem forestEncodingThen_eq (rest : List Event) : (trees : List Tree) → {items : List Item} →
    SpelledAll trees items → ForestApart trees →
    (∀ content, rest.head? ≠ some (.text content)) →
    forestEncodingThen rest trees = forestEvents trees ++ rest
  | [], _, .nil, _, _ => by
      rw [forestEncodingThen, forestEvents]
      rfl
  | tree :: trees, _, .cons htree htrees, hapart, hrest => by
      have hnext : tree.isText → ∀ content,
          (forestEvents trees ++ rest).head? ≠ some (.text content) := by
        intro htext content
        cases htrees with
        | nil =>
            rw [forestEvents]
            exact hrest content
        | cons hnext _ =>
            rw [forestEvents, List.append_assoc]
            have hnot := hapart.2.1 _ rfl
            exact head?_events hnext (by simpa [htext] using hnot) _ content
      rw [forestEncodingThen, forestEncodingThen_eq rest trees htrees hapart.2.2 hrest,
        encodingThen_eq _ tree htree hapart.1 hnext, forestEvents, List.append_assoc]

end

/-- All events for trees whose texts stand apart are kept as they are. -/
theorem kept_forestEvents {trees : List Tree} {items : List Item} (h : SpelledAll trees items)
    (hapart : ForestApart trees) : Event.kept (forestEvents trees) = forestEvents trees := by
  rw [Event.kept_eq_joined (attributesPlaced_forestEvents trees), joinedThen_forestEvents,
    forestEncodingThen_eq [] trees h hapart nofun, List.append_nil]

end Tree

/-! ## A stylesheet with just a template for the root -/

/-- A template for the root that declares nothing. -/
def Template.forRoot (body : List Instruction) : Template :=
  ⟨none, some ⟨"/", [⟨true, []⟩]⟩, none, none, [], body⟩

namespace Stylesheet

section RootTemplate

variable {sheet template : StyleTag} (hsheet : sheet.name = .language "stylesheet")
  (htemplate : template.name = .language "template")
  (hattributes : template.attributes = [⟨⟨none, "match"⟩, "/"⟩])

include hsheet htemplate hattributes

theorem foldlM_rootTemplate :
    [StyleEvent.start sheet, .start template].foldlM Assembly.meet .empty =
    .ok ⟨[⟨.template none (some ⟨"/", [⟨true, []⟩]⟩) none none [] false, template.place⟩,
      ⟨.stylesheet, sheet.place⟩, ⟨.document, ⟨1, 1⟩⟩], [[], [], []], .empty, [], .standard⟩ := by
  have hpattern : Pattern.parse Function.names "/" = .ok ⟨"/", [⟨true, []⟩]⟩ := by cbv
  have hconstruct : template.templateConstruct =
      .ok (.template none (some ⟨"/", [⟨true, []⟩]⟩) none none [] false) := by
    obtain ⟨name, attributes, namespaces, place⟩ := template
    obtain rfl : attributes = _ := hattributes
    change (Pattern.parse Function.names "/").map some >>= _ = _
    rw [hpattern]
    rfl
  have hstart : Assembly.empty.start sheet = .ok (Assembly.empty.push .stylesheet sheet.place) := by
    change Assembly.empty.startDocument sheet = _
    unfold Assembly.startDocument
    rw [hsheet]
    rfl
  let outside : Assembly := Assembly.empty.push .stylesheet sheet.place
  have hopen : outside.start template =
      .ok (outside.push (.template none (some ⟨"/", [⟨true, []⟩]⟩) none none [] false)
        template.place) := by
    unfold Assembly.start
    rw [htemplate]
    change (Assembly.expectTop template "xsl:template" .stylesheet >>= fun _ => do
      return outside.push (← template.templateConstruct) template.place) = _
    rw [hconstruct]
    rfl
  rw [List.foldlM_cons, Assembly.meet, hstart]
  change (outside.start template >>= _) = _
  rw [hopen]
  rfl

/-- What is put together to a body inside a template for the root makes a stylesheet with this
template. -/
theorem ofEvents_rootTemplate {events : List StyleEvent} {body : List Instruction}
    (hbody : ∀ a : Assembly, a.Holding →
      events.foldlM Assembly.meet a = .ok (body.foldl Assembly.take a))
    {rules : Rules} (hrules : Rules.empty.add (.forRoot body) = .ok rules) :
    ofEvents ([.start sheet, .start template] ++ events ++ [.stop, .stop]) =
      .ok ⟨rules, [], .standard⟩ := by
  let construct : Construct := .template none (some ⟨"/", [⟨true, []⟩]⟩) none none [] false
  let outside : Assembly :=
    ⟨[⟨.stylesheet, sheet.place⟩, ⟨.document, ⟨1, 1⟩⟩], [[], []], .empty, [], .standard⟩
  have hinside : ([StyleEvent.start sheet, .start template] ++ events).foldlM Assembly.meet .empty =
      .ok (body.foldl Assembly.take (outside.push construct template.place)) := by
    rw [List.foldlM_append, foldlM_rootTemplate hsheet htemplate hattributes]
    exact hbody _ rfl
  have htaken : body.foldl Assembly.take (outside.push construct template.place) =
      ⟨[⟨.template none (some ⟨"/", [⟨true, []⟩]⟩) none none [] !body.isEmpty, template.place⟩,
        ⟨.stylesheet, sheet.place⟩, ⟨.document, ⟨1, 1⟩⟩], [body.reverse, [], []], .empty, [],
        .standard⟩ := by
    refine (outside.foldl_take construct template.place [] body).trans ?_
    rw [List.append_nil]
    cases body <;> rfl
  have hreversed : Rules.empty.add (.forRoot body.reverse.reverse) = .ok rules := by
    rw [List.reverse_reverse, hrules]
  exact ofEvents_template (hinside.trans (congrArg _ htaken)) hreversed

end RootTemplate

end Stylesheet

namespace Job

/-- **Literals are reproduced.**  Take a stylesheet with just a template for the root, whose content
is the markup of elements and texts in no namespace, with something to see in every text and no two
texts side by side.  It is put together without a failure, and whatever the document and the values
from outside, if one level may be opened, the run succeeds, and the events of the result are those
for the elements and texts. -/
theorem literals_reproduced {sheet template : Tag} {content : List Item} {forest : List Tree}
    (hsheet : sheet.name = ⟨some languageUri, "stylesheet"⟩)
    (htemplate : template.name = ⟨some languageUri, "template"⟩)
    (hmatch : template.attributes = [(⟨none, "match"⟩, "/")])
    (hspelled : Tree.SpelledAll forest content) (hapart : Tree.ForestApart forest)
    (document : Document) {settings : Settings} (hdepth : 1 ≤ settings.maxDepth) (params : Scope) :
    ∃ stylesheet,
      Stylesheet.ofEvents (StyleEvent.ofDocument [.element sheet [.element template content]]) =
        .ok stylesheet ∧
      Job.events ⟨stylesheet, document, settings⟩ params = .ok (Tree.forestEvents forest) := by
  let excluded := StyleEvent.excludedBy sheet
  obtain ⟨body, hbody, hwrites⟩ := Tree.exists_assembledAll excluded [] forest hspelled hapart
  obtain ⟨rules, hrules⟩ := Rules.empty.exists_add (.forRoot body) rfl
  let job : Job := ⟨⟨rules, [], .standard⟩, document, settings⟩
  have hsheetLanguage : StyleEvent.isLanguage sheet = true := by
    rw [StyleEvent.isLanguage, hsheet]
    rfl
  have htemplateLanguage : StyleEvent.isLanguage template = true := by
    rw [StyleEvent.isLanguage, htemplate]
    rfl
  have hevents : StyleEvent.ofDocument [.element sheet [.element template content]] =
      [.start (StyleEvent.styleTag excluded [] sheet),
        .start (StyleEvent.styleTag excluded [] template)] ++
          StyleEvent.ofItems excluded [] content ++ [.stop, .stop] := by
    rw [StyleEvent.ofDocument, StyleEvent.ofItem, hsheetLanguage, if_pos rfl, StyleEvent.ofItems,
      StyleEvent.ofItem, htemplateLanguage, if_pos rfl, StyleEvent.ofItems]
    simp [excluded]
  refine ⟨⟨rules, [], .standard⟩, ?_, ?_⟩
  · rw [hevents]
    refine Stylesheet.ofEvents_rootTemplate ?_ ?_ ?_ hbody hrules
    · rw [StyleEvent.styleTag, hsheetLanguage, if_pos rfl, hsheet]
    · rw [StyleEvent.styleTag, htemplateLanguage, if_pos rfl, htemplate]
    · rw [StyleEvent.styleTag, htemplateLanguage, if_pos rfl, hmatch]
      rfl
  · obtain ⟨left, s, hmain⟩ := @shown_main_rootTemplate job _ hdepth
      (Rules.onlyTemplate_of_add hrules rfl) rfl rfl rfl params
    obtain ⟨hresult, hreport⟩ := Prod.mk.inj (hmain.trans (hwrites job _ _ s))
    change job.events params = _
    unfold events
    dsimp only
    rw [hresult, hreport, Tree.kept_forestEvents hspelled hapart]
    rfl

/-- An element with curly brackets in an attribute and an empty one, and in it an element between
texts, and an empty element after it. -/
def literals : List Tree :=
  [.element ⟨none, "a"⟩ [⟨⟨none, "k"⟩, "{x}"⟩, ⟨⟨none, "m"⟩, ""⟩]
    [.text " y ", .element ⟨none, "b"⟩ [] [.text "z"], .text "w"], .element ⟨none, "c"⟩ [] []]

/-- A tag where only the namespace of the language is in scope. -/
def tagOf (name : Markup.ExpandedName) (attributes : List (Markup.ExpandedName × String)) : Tag :=
  ⟨name, attributes, [⟨some "xsl", languageUri⟩], ⟨1, 1⟩⟩

/-- The markup of these elements in a template. -/
def literalsMarkup : List Item :=
  [.element (tagOf ⟨none, "a"⟩ [(⟨none, "k"⟩, "{{x}}"), (⟨none, "m"⟩, "")])
    [.text " y " ⟨2, 1⟩, .element (tagOf ⟨none, "b"⟩ []) [.text "z" ⟨3, 1⟩], .text "w" ⟨4, 1⟩],
    .element (tagOf ⟨none, "c"⟩ []) []]

theorem spelled_literals : Tree.SpelledAll literals literalsMarkup := by
  have hscope : ∀ ns ∈ [Markup.Namespace.mk (some "xsl") languageUri],
      ns.uri = languageUri ∨ ns.uri = Markup.xmlUri := by
    intro ns hns
    obtain rfl := List.mem_singleton.1 hns
    exact .inl rfl
  have hinner : Tree.Spelled (.element ⟨none, "b"⟩ [] [.text "z"])
      (.element (tagOf ⟨none, "b"⟩ []) [.text "z" ⟨3, 1⟩]) :=
    .element [] rfl rfl hscope (.cons .text .nil)
  refine .cons (.element [("k", "{x}"), ("m", "")] rfl ?_ hscope
    (.cons .text (.cons hinner (.cons .text .nil)))) (.cons (.element [] rfl rfl hscope .nil) .nil)
  decide

/-- With one level, the elements are reproduced for an empty document. -/
theorem literals_reproduced_nested : ∃ stylesheet,
    Stylesheet.ofEvents (StyleEvent.ofDocument
      [.element (tagOf ⟨some languageUri, "stylesheet"⟩ [])
        [.element (tagOf ⟨some languageUri, "template"⟩ [(⟨none, "match"⟩, "/")])
          literalsMarkup]]) = .ok stylesheet ∧
    Job.events ⟨stylesheet, ⟨[]⟩, ⟨1, true⟩⟩ [] =
      .ok [.start "a", .attr "k" "{x}", .attr "m" "", .text " y ", .start "b", .text "z", .stop,
        .text "w", .stop, .start "c", .stop] := by
  have hapart : Tree.ForestApart literals := by
    simp only [literals, Tree.ForestApart, Tree.Apart]
    decide
  exact literals_reproduced rfl rfl rfl spelled_literals hapart ⟨[]⟩ (Nat.le_refl 1) []

end Job

end Restyle
