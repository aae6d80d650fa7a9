import Restyle.Stylesheet
import Restyle.Stylesheet.Event

/-!
# Restyle.Stylesheet.Assembly

A stylesheet put together from what is met in its markup.

An `Assembly` holds the elements that are still open, each as a `Construct`, and beside them the
instructions met in each so far.  A start tag opens a construct, checked against the one around it;
an end tag closes the innermost construct and hands what it made to the one around it.  Around the
document element stands a construct of its own, which is never closed.

* `Assembly.start`, `Assembly.text`, `Assembly.stop` — one step;
* `Assembly.finish` — the stylesheet when nothing is open any more;
* `Stylesheet.ofText` — the stylesheet for a text.
-/

namespace Restyle

open Markup (Place)

/-- An element of a stylesheet that has been opened, with what its tag and its finished children
say. -/
inductive Construct where
  /-- What the document element stands in. -/
  | document
  | stylesheet
  /-- An element at the top that means nothing here, or any element in one. -/
  | ignored
  | template (name : Option String) (pattern : Option Pattern) (mode : Option String)
    (priority : Option Double) (params : List (String × ValueSource Instruction))
    (hasContent : Bool)
  | param (name : String) (select : Option Expr) (isGlobal : Bool)
  | variable (name : String) (select : Option Expr) (isGlobal : Bool)
  | withParam (name : String) (select : Option Expr)
  | applyTemplates (select : Option Expr) (mode : Option String) (sorts : List SortKey)
    (passed : List (String × ValueSource Instruction))
  | callTemplate (name : String) (passed : List (String × ValueSource Instruction))
  | forEach (select : Expr) (sorts : List SortKey) (hasContent : Bool)
  | ifThen (test : Expr)
  | choose (whens : List (Expr × List Instruction)) (otherwise : Option (List Instruction))
  | when (test : Expr)
  | otherwise
  | literal (name : QName) (namespaces : List Markup.Namespace)
    (attributes : List (QName × TextTemplate))
  | element (name : TextTemplate)
  | attr (name : TextTemplate)
  | copy
  | comment
  | message (terminate : Bool)
  /-- An element that holds nothing but text, all of which counts. -/
  | text
  /-- An element that holds nothing; what it says is already known. -/
  | empty (name : String) (made : Option Instruction)

namespace Construct

/-- Whether instructions may stand in a construct. -/
def holdsInstructions : Construct → Bool
  | .template .. | .param .. | .variable .. | .withParam .. | .forEach .. | .ifThen _ | .when _
  | .otherwise | .literal .. | .element _ | .attr _ | .copy | .comment | .message _ => true
  | _ => false

/-- A construct in which instructions have begun. -/
def markContent : Construct → Construct
  | .template name pattern mode priority params _ =>
    .template name pattern mode priority params true
  | .forEach select sorts _ => .forEach select sorts true
  | construct => construct

/-- How messages refer to a construct. -/
def label : Construct → String
  | .document => "the document"
  | .stylesheet => "xsl:stylesheet"
  | .ignored => "an ignored element"
  | .template .. => "xsl:template"
  | .param .. => "xsl:param"
  | .variable .. => "xsl:variable"
  | .withParam .. => "xsl:with-param"
  | .applyTemplates .. => "xsl:apply-templates"
  | .callTemplate .. => "xsl:call-template"
  | .forEach .. => "xsl:for-each"
  | .ifThen _ => "xsl:if"
  | .choose .. => "xsl:choose"
  | .when _ => "xsl:when"
  | .otherwise => "xsl:otherwise"
  | .literal name .. => s!"<{name.text}>"
  | .element _ => "xsl:element"
  | .attr _ => "xsl:attribute"
  | .copy => "xsl:copy"
  | .comment => "xsl:comment"
  | .message _ => "xsl:message"
  | .text => "xsl:text"
  | .empty name _ => name

end Construct

/-! ## Attributes of the elements of the language -/

/-- Read an expression of a stylesheet. -/
def styleExpr (source : String) : Except Failure Expr := Expr.compile Function.names source

/-- Read a text template of a stylesheet. -/
def styleTemplate (text : String) : Except Failure TextTemplate :=
  TextTemplate.parse Function.names text

namespace StyleTag

/-- The value of an attribute without a prefix. -/
def attr? (tag : StyleTag) (name : String) : Option String :=
  (tag.attributes.find? fun attr => attr.name == ⟨none, name⟩).map Attribute.value

/-- The value of an attribute without white space at its ends. -/
def trimmed? (tag : StyleTag) (name : String) : Option String :=
  (tag.attr? name).map (Text.trimString Text.isBlank)

/-- The failure for a problem with this tag. -/
def problem (tag : StyleTag) (problem : StyleProblem) : Failure := .stylesheet problem tag.place

/-- The value of an attribute that an element must have. -/
def required (tag : StyleTag) (name element : String) : Except Failure String :=
  match tag.attr? name with
  | some value => .ok value
  | none => .error (tag.problem (.missing name element))

/-- The value of an attribute that says yes or no; no if it is missing. -/
def flag (tag : StyleTag) (name element : String) : Except Failure Bool :=
  match tag.trimmed? name with
  | none => .ok false
  | some value =>
    if value = "yes" then .ok true
    else if value = "no" then .ok false
    else .error (tag.problem (.notYesNo name element value))

/-- The expression in an attribute, if there is one. -/
def exprIn (tag : StyleTag) (name : String) : Except Failure (Option Expr) :=
  match tag.attr? name with
  | some source => (styleExpr source).map some
  | none => .ok none

/-- The expression in an attribute that an element must have. -/
def requiredExpr (tag : StyleTag) (name element : String) : Except Failure Expr := do
  styleExpr (← tag.required name element)

/-- The name and the expression of a variable or parameter. -/
def nameAndSelect (tag : StyleTag) (element : String) :
    Except Failure (String × Option Expr) := do
  let name ← tag.required "name" element
  return (name, ← tag.exprIn "select")

/-- The priority that a template states. -/
def priority (tag : StyleTag) : Except Failure (Option Double) :=
  match tag.attr? "priority" with
  | none => .ok none
  | some text =>
    if (readNumber text).isNaN then .error (tag.problem (.badPriority text))
    else .ok (some (readNumber text))

/-- The form of the result that a tag asks for. -/
def outputForm (tag : StyleTag) : Except Failure OutputForm := do
  let method ← match (tag.trimmed? "method").getD "xml" with
    | "xml" => pure OutputMethod.xml
    | "html" => pure .html
    | "text" => pure .text
    | other => throw (tag.problem (.badMethod other))
  let omitted ← tag.flag "omit-xml-declaration" "xsl:output"
  return ⟨method, method == .xml && !omitted⟩

/-- The sort key that a tag describes. -/
def sortKey (tag : StyleTag) : Except Failure SortKey := do
  let select := (← tag.exprIn "select").getD Expr.contextNode
  let order ← match (tag.trimmed? "order").getD "ascending" with
    | "ascending" => pure SortOrder.ascending
    | "descending" => pure .descending
    | other => throw (tag.problem (.badOrder other))
  let type ← match (tag.trimmed? "data-type").getD "text" with
    | "text" => pure SortType.text
    | "number" => pure .number
    | other => throw (tag.problem (.badDataType other))
  return ⟨select, order, type⟩

/-- The construct that a template opens. -/
def templateConstruct (tag : StyleTag) : Except Failure Construct := do
  let name := tag.attr? "name"
  let pattern := tag.attr? "match"
  let mode := tag.attr? "mode"
  if name.isNone && pattern.isNone then throw (tag.problem .unreachable)
  if pattern.isNone && mode.isSome then throw (tag.problem .modeWithoutMatch)
  let priority ← tag.priority
  let pattern ← match pattern with
    | some text => (Pattern.parse Function.names text).map some
    | none => pure none
  return .template name pattern mode priority [] false

/-- The construct that an instruction opens, for the local names of instructions. -/
def instructionConstruct? (tag : StyleTag) (localPart : String) :
    Option (Except Failure Construct) :=
  match localPart with
  | "apply-templates" => some do
    return .applyTemplates (← tag.exprIn "select") (tag.attr? "mode") [] []
  | "call-template" => some do
    return .callTemplate (← tag.required "name" "xsl:call-template") []
  | "for-each" => some do return .forEach (← tag.requiredExpr "select" "xsl:for-each") [] false
  | "if" => some do return .ifThen (← tag.requiredExpr "test" "xsl:if")
  | "choose" => some (.ok (.choose [] none))
  | "text" => some (.ok .text)
  | "value-of" => some do
    return .empty "xsl:value-of" (some (.valueOf (← tag.requiredExpr "select" "xsl:value-of")))
  | "copy-of" => some do
    return .empty "xsl:copy-of" (some (.copyOf (← tag.requiredExpr "select" "xsl:copy-of")))
  | "copy" => some (.ok .copy)
  | "element" => some do
    return .element (← styleTemplate (← tag.required "name" "xsl:element"))
  | "attribute" => some do
    return .attr (← styleTemplate (← tag.required "name" "xsl:attribute"))
  | "comment" => some (.ok .comment)
  | "message" => some do return .message (← tag.flag "terminate" "xsl:message")
  | _ => none

/-- The construct that a literal element opens. -/
def literalConstruct (tag : StyleTag) (name : QName) : Except Failure Construct := do
  let attributes ← tag.attributes.mapM fun attr => do
    return (attr.name, ← styleTemplate attr.value)
  return .literal name tag.namespaces attributes

end StyleTag

/-! ## Assemblies -/

/-- An open construct. -/
structure OpenConstruct where
  construct : Construct
  place : Place

/-- A stylesheet in the making. -/
structure Assembly where
  /-- The open constructs, innermost first. -/
  opened : List OpenConstruct
  /-- The instructions met in each open construct, last first. -/
  bodies : List (List Instruction)
  rules : Rules
  globals : List Global
  output : OutputForm

namespace Assembly

/-- Nothing met so far. -/
def empty : Assembly := ⟨[⟨.document, ⟨1, 1⟩⟩], [[]], .empty, [], .standard⟩

/-- Open a construct. -/
def push (a : Assembly) (construct : Construct) (place : Place) : Assembly :=
  { a with opened := ⟨construct, place⟩ :: a.opened, bodies := [] :: a.bodies }

/-- The innermost open construct. -/
def parent (a : Assembly) : Construct :=
  match a.opened with
  | [] => .document
  | inner :: _ => inner.construct

/-- Change the innermost open construct. -/
def amend (a : Assembly) (change : Construct → Construct) : Assembly :=
  match a.opened with
  | [] => a
  | inner :: outer => { a with opened := ⟨change inner.construct, inner.place⟩ :: outer }

/-- Add an instruction to the innermost open construct. -/
def emit (a : Assembly) (instruction : Instruction) : Assembly :=
  match a.bodies with
  | [] => a
  | body :: outer => { a with bodies := (instruction :: body) :: outer }

/-- The failure of an element inside a construct where it may not stand. -/
def misplaced (tag : StyleTag) (element : String) (parent : Construct) : Failure :=
  tag.problem (.misplaced element parent.label)

/-- Begin an instruction: it must stand where instructions may. -/
def begin (a : Assembly) (tag : StyleTag) (element : String) : Except Failure Assembly :=
  match a.opened with
  | [] => .error (.assembly .nothingOpen)
  | inner :: _ =>
    if inner.construct.holdsInstructions then .ok (a.amend Construct.markContent)
    else .error (misplaced tag element inner.construct)

/-- Refuse an element that may only stand at the top. -/
def expectTop (tag : StyleTag) (element : String) : Construct → Except Failure Unit
  | .stylesheet => .ok ()
  | parent => .error (misplaced tag element parent)

/-- Refuse an element that may only stand in a choice that is not over. -/
def expectChoice (tag : StyleTag) (element : String) : Construct → Except Failure Unit
  | .choose _ none => .ok ()
  | .choose _ (some _) => .error (tag.problem (.afterOtherwise element))
  | parent => .error (misplaced tag element parent)

/-- Add a variable or parameter of the whole stylesheet. -/
def addGlobal (a : Assembly) (place : Place) (new : Global) : Except Failure Assembly :=
  if a.globals.any fun old => old.name == new.name then
    .error (.stylesheet (.duplicateGlobal new.name) place)
  else .ok { a with globals := a.globals ++ [new] }

/-! ### Start tags -/

/-- Open a parameter: at the top, or in a template before its content. -/
def startParam (a : Assembly) (tag : StyleTag) : Except Failure Assembly := do
  let isGlobal ← match a.parent with
    | .stylesheet => pure true
    | .template _ _ _ _ _ false => pure false
    | .template _ _ _ _ _ true => throw (tag.problem .lateParam)
    | parent => throw (misplaced tag "xsl:param" parent)
  let (name, select) ← tag.nameAndSelect "xsl:param"
  return a.push (.param name select isGlobal) tag.place

/-- Open a variable: at the top or among instructions. -/
def startVariable (a : Assembly) (tag : StyleTag) : Except Failure Assembly := do
  let isGlobal := match a.parent with
    | .stylesheet => true
    | _ => false
  let a ← if isGlobal then pure a else a.begin tag "xsl:variable"
  let (name, select) ← tag.nameAndSelect "xsl:variable"
  return a.push (.variable name select isGlobal) tag.place

/-- Open a value passed to a template. -/
def startWithParam (a : Assembly) (tag : StyleTag) : Except Failure Assembly := do
  match a.parent with
  | .applyTemplates .. | .callTemplate .. => pure ()
  | parent => throw (misplaced tag "xsl:with-param" parent)
  let (name, select) ← tag.nameAndSelect "xsl:with-param"
  return a.push (.withParam name select) tag.place

/-- Add a sort key to the innermost open construct. -/
def addSort (a : Assembly) (tag : StyleTag) (key : SortKey) : Except Failure Assembly :=
  match a.opened with
  | [] => .error (.assembly .nothingOpen)
  | inner :: _ =>
    match inner.construct with
    | .applyTemplates select mode sorts passed =>
      .ok (a.amend fun _ => .applyTemplates select mode (sorts ++ [key]) passed)
    | .forEach select sorts false => .ok (a.amend fun _ => .forEach select (sorts ++ [key]) false)
    | .forEach _ _ true => .error (tag.problem .lateSort)
    | parent => .error (misplaced tag "xsl:sort" parent)

/-- Open a sort key, which stands for itself in the construct around it. -/
def startSort (a : Assembly) (tag : StyleTag) : Except Failure Assembly := do
  let key ← tag.sortKey
  let a ← a.addSort tag key
  return a.push (.empty "xsl:sort" none) tag.place

/-- Open an element of the language inside another element. -/
def startLanguage (a : Assembly) (tag : StyleTag) (localPart : String) : Except Failure Assembly :=
  match localPart with
  | "template" => do
    expectTop tag "xsl:template" a.parent
    return a.push (← tag.templateConstruct) tag.place
  | "output" => do
    expectTop tag "xsl:output" a.parent
    let form ← tag.outputForm
    return { a with output := form }.push (.empty "xsl:output" none) tag.place
  | "strip-space" | "preserve-space" => do
    expectTop tag ("xsl:" ++ localPart) a.parent
    return a.push (.empty ("xsl:" ++ localPart) none) tag.place
  | "param" => a.startParam tag
  | "variable" => a.startVariable tag
  | "with-param" => a.startWithParam tag
  | "sort" => a.startSort tag
  | "when" => do
    expectChoice tag "xsl:when" a.parent
    return a.push (.when (← tag.requiredExpr "test" "xsl:when")) tag.place
  | "otherwise" => do
    expectChoice tag "xsl:otherwise" a.parent
    return a.push .otherwise tag.place
  | _ =>
    match tag.instructionConstruct? localPart with
    | some construct => do
      let a ← a.begin tag ("xsl:" ++ localPart)
      return a.push (← construct) tag.place
    | none => .error (tag.problem (.unsupported localPart))

/-- Open a literal element inside another element. -/
def startLiteral (a : Assembly) (tag : StyleTag) (name : QName) : Except Failure Assembly := do
  let a ← a.begin tag name.text
  return a.push (← tag.literalConstruct name) tag.place

/-- Open the document element, which must be a stylesheet. -/
def startDocument (a : Assembly) (tag : StyleTag) : Except Failure Assembly :=
  match tag.name with
  | .language localPart =>
    if localPart = "stylesheet" || localPart = "transform" then
      .ok (a.push .stylesheet tag.place)
    else .error (tag.problem (.notStylesheet ("xsl:" ++ localPart)))
  | .literal name => .error (tag.problem (.notStylesheet name.text))

/-- Meet a start tag. -/
def start (a : Assembly) (tag : StyleTag) : Except Failure Assembly :=
  match a.parent, tag.name with
  | .ignored, _ => .ok (a.push .ignored tag.place)
  | .document, _ => a.startDocument tag
  | _, .language localPart => a.startLanguage tag localPart
  | .stylesheet, .literal _ => .ok (a.push .ignored tag.place)
  | _, .literal name => a.startLiteral tag name

/-! ### Text -/

/-- Meet text.  White space alone counts only where all text does. -/
def text (a : Assembly) (content : String) (place : Place) : Except Failure Assembly :=
  match a.parent with
  | .text => .ok (a.emit (.text content))
  | .ignored => .ok a
  | _ =>
    if content.toList.all Text.isBlank then .ok a
    else
      match a.opened with
      | [] => .error (.assembly .nothingOpen)
      | inner :: _ =>
        if inner.construct.holdsInstructions then
          .ok ((a.amend Construct.markContent).emit (.text content))
        else .error (.stylesheet (.textMisplaced inner.construct.label) place)

/-! ### End tags -/

/-- The source of a value for an optional expression and a body, of which at most one may be
there. -/
def valueSource (element : String) (place : Place) (select : Option Expr)
    (body : List Instruction) : Except Failure (ValueSource Instruction) :=
  match select, body with
  | some _, _ :: _ => .error (.stylesheet (.selectAndContent element) place)
  | some e, [] => .ok (.select e)
  | none, [] => .ok .empty
  | none, body => .ok (.content body)

/-- Add a declared parameter to the template around it. -/
def addParam (a : Assembly) (place : Place) (name : String) (value : ValueSource Instruction) :
    Except Failure Assembly :=
  match a.parent with
  | .template template pattern mode priority params hasContent =>
    if params.any fun param => param.1 == name then
      .error (.stylesheet (.duplicateParam name) place)
    else
      .ok (a.amend fun _ =>
        .template template pattern mode priority (params ++ [(name, value)]) hasContent)
  | _ => .ok a

/-- Add a passed value to the construct around it. -/
def addPassed (a : Assembly) (name : String) (value : ValueSource Instruction) :
    Except Failure Assembly :=
  match a.parent with
  | .applyTemplates select mode sorts passed =>
    .ok (a.amend fun _ => .applyTemplates select mode sorts (passed ++ [(name, value)]))
  | .callTemplate template passed =>
    .ok (a.amend fun _ => .callTemplate template (passed ++ [(name, value)]))
  | _ => .error (.assembly .lostPassed)

/-- Hand what a construct with a finished body made to the construct around it. -/
def close (a : Assembly) (place : Place) (body : List Instruction) :
    Construct → Except Failure Assembly
  | .document => .error (.assembly .strayEnd)
  | .stylesheet | .ignored => .ok a
  | .template name pattern mode priority params _ => do
    let rules ← (a.rules.add ⟨name, pattern, mode, priority, params, body⟩).mapError
      (.stylesheet · place)
    return { a with rules := rules }
  | .param name select isGlobal => do
    let value ← valueSource "xsl:param" place select body
    if isGlobal then a.addGlobal place ⟨name, value, true⟩ else a.addParam place name value
  | .variable name select isGlobal => do
    let value ← valueSource "xsl:variable" place select body
    if isGlobal then a.addGlobal place ⟨name, value, false⟩
    else return a.emit (.variable name value)
  | .withParam name select => do
    a.addPassed name (← valueSource "xsl:with-param" place select body)
  | .applyTemplates select mode sorts passed =>
    .ok (a.emit (.applyTemplates select mode sorts passed))
  | .callTemplate name passed => .ok (a.emit (.callTemplate name passed))
  | .forEach select sorts _ => .ok (a.emit (.forEach select sorts body))
  | .ifThen test => .ok (a.emit (.ifThen test body))
  | .choose whens otherwise =>
    if whens.isEmpty then .error (.stylesheet .emptyChoice place)
    else .ok (a.emit (.choose whens otherwise))
  | .when test => .ok (a.amend fun
    | .choose whens otherwise => .choose (whens ++ [(test, body)]) otherwise
    | construct => construct)
  | .otherwise => .ok (a.amend fun
    | .choose whens _ => .choose whens (some body)
    | construct => construct)
  | .literal name namespaces attributes =>
    .ok (a.emit (.literal name namespaces attributes body))
  | .element name => .ok (a.emit (.element name body))
  | .attr name => .ok (a.emit (.attr name body))
  | .copy => .ok (a.emit (.copy body))
  | .comment => .ok (a.emit (.comment body))
  | .message terminate => .ok (a.emit (.message terminate body))
  | .text => .ok (body.foldl emit a)
  | .empty _ made => .ok (made.elim a a.emit)

/-- Meet an end tag. -/
def stop (a : Assembly) : Except Failure Assembly :=
  match a.opened with
  | [] => .error (.assembly .strayEnd)
  | inner :: outer =>
    { a with opened := outer, bodies := a.bodies.tail }.close inner.place
      (a.bodies.headD []).reverse inner.construct

/-! ### Whole stylesheets -/

/-- Meet anything. -/
def meet (a : Assembly) : StyleEvent → Except Failure Assembly
  | .start tag => a.start tag
  | .text content place => a.text content place
  | .stop => a.stop

/-- The stylesheet when everything has been met. -/
def finish (a : Assembly) : Except Failure Stylesheet :=
  if a.opened.length = 1 then .ok ⟨a.rules, a.globals, a.output⟩
  else .error (.assembly (.unclosed (a.opened.length - 1)))

end Assembly

/-- The stylesheet for what is met in its markup. -/
def Stylesheet.ofEvents (events : List StyleEvent) : Except Failure Stylesheet := do
  (← events.foldlM Assembly.meet Assembly.empty).finish

/-- The stylesheet that a text stands for. -/
def Stylesheet.ofText (text : String) : Except Failure Stylesheet :=
  match StyleEvent.ofText? text with
  | some events => Stylesheet.ofEvents events
  | none => .error .stylesheetMarkup

end Restyle
