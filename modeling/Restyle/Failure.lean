import Restyle.Eval
import Restyle.Expr.Outline
import Restyle.Markup.Element
import Restyle.Text.Utf8

/-!
# Restyle.Failure

What can go wrong from reading a stylesheet to writing a result, each with its words.  Callers
branch on the class of a failure (`Failure.kind`), which is coarser than its cause.
-/

namespace Restyle

open Markup (Place)

/-- Why a text is not accepted as an expression, a pattern or a text template. -/
inductive SyntaxProblem where
  /-- It cannot be read as an expression. -/
  | unreadable (failure : ParseFailure)
  /-- It calls a function that does not exist. -/
  | unknownFunction (name : String)
  /-- A curly bracket is not closed. -/
  | openBracket
  /-- A curly bracket closes nothing. -/
  | strayBracket
  /-- A pattern starts with an expression that is no step. -/
  | filterStart
  /-- A pattern has `//` where a step should stand. -/
  | doubleSlash
  /-- A pattern uses an axis other than child and attribute. -/
  | axis (axis : Axis)
  /-- A pattern ends with `//`. -/
  | slashEnd
  /-- A pattern is not made of location paths. -/
  | notPath (e : Expr)

/-- The words for a problem. -/
def SyntaxProblem.message : SyntaxProblem → String
  | .unreadable failure => failure.message
  | .unknownFunction name => s!"Unknown XPath function '{name}'"
  | .openBracket => "Unterminated '\x7b' in attribute value template"
  | .strayBracket => "Unmatched '\x7d' in attribute value template"
  | .filterStart => "A pattern cannot start with a filter expression"
  | .doubleSlash => "Unexpected '//' in pattern"
  | .axis a => s!"The {a.label} axis is not allowed in a pattern"
  | .slashEnd => "A pattern cannot end with '//'"
  | .notPath e => s!"Only location paths are allowed in a pattern, found {e.outline}"

/-- What is wrong with the structure of a stylesheet. -/
inductive StyleProblem where
  | notUtf8 (error : Text.Utf8Error)
  /-- The document element is no stylesheet. -/
  | notStylesheet (found : String)
  | unsupported (name : String)
  | misplaced (element parent : String)
  | textMisplaced (parent : String)
  | missing (attr element : String)
  | notYesNo (attr element found : String)
  | badPriority (found : String)
  | badMethod (found : String)
  | badOrder (found : String)
  | badDataType (found : String)
  | unreachable
  | modeWithoutMatch
  | selectAndContent (element : String)
  | emptyChoice
  | afterOtherwise (element : String)
  | lateSort
  | lateParam
  | duplicateGlobal (name : String)
  | duplicateParam (name : String)
  | duplicateTemplate (name : String)
deriving DecidableEq, Repr

/-- The words for a problem. -/
def StyleProblem.message : StyleProblem → String
  | .notUtf8 error => s!"Stylesheet is not valid UTF-8: {error.message}"
  | .notStylesheet found =>
    s!"Not an XSLT stylesheet: the document element is <{found}>, expected xsl:stylesheet or " ++
      "xsl:transform"
  | .unsupported name => s!"Unsupported XSLT element 'xsl:{name}'"
  | .misplaced element parent => s!"'{element}' is not allowed inside {parent}"
  | .textMisplaced parent => s!"Text is not allowed inside {parent}"
  | .missing attr element => s!"Required attribute '{attr}' missing on element '{element}'"
  | .notYesNo attr element found =>
    s!"Attribute '{attr}' on element '{element}' must be 'yes' or 'no', found '{found}'"
  | .badPriority found => s!"Invalid template priority '{found}'"
  | .badMethod found => s!"Unsupported output method '{found}'"
  | .badOrder found => s!"Invalid sort order '{found}'"
  | .badDataType found => s!"Unsupported sort data-type '{found}'"
  | .unreachable => "xsl:template requires a 'match' or a 'name' attribute"
  | .modeWithoutMatch => "xsl:template with a 'mode' must also have a 'match' attribute"
  | .selectAndContent element => s!"'{element}' must be empty when it has a 'select' attribute"
  | .emptyChoice => "xsl:choose must contain at least one xsl:when"
  | .afterOtherwise element => s!"'{element}' cannot follow xsl:otherwise"
  | .lateSort => "xsl:sort must come before the other content of xsl:for-each"
  | .lateParam => "xsl:param must come before the other content of xsl:template"
  | .duplicateGlobal name => s!"Duplicate global variable or parameter '{name}'"
  | .duplicateParam name => s!"Duplicate template parameter '{name}'"
  | .duplicateTemplate name => s!"Duplicate named template '{name}'"

/-- Why what is met in a stylesheet cannot be put together.  None of this comes of markup that is
well-formed. -/
inductive AssemblyProblem where
  /-- Nothing is open, not even what the document element stands in. -/
  | nothingOpen
  /-- An end where no element is open. -/
  | strayEnd
  /-- A value to pass on, in nothing that passes values on. -/
  | lostPassed
  /-- Elements without an end. -/
  | unclosed (count : Nat)
deriving DecidableEq, Repr

/-- The words for a problem. -/
def AssemblyProblem.message : AssemblyProblem → String
  | .nothingOpen => "Builder state stack is empty"
  | .strayEnd => "Unbalanced end of element"
  | .lostPassed => "xsl:with-param lost its enclosing instruction"
  | .unclosed count => s!"Stylesheet ended with {count} unclosed elements"

/-- What is wrong with a parameter. -/
inductive ParamProblem where
  /-- The parameters are not an object but something of this kind. -/
  | notObject (kind : String)
  /-- The value is not a scalar but something of this kind. -/
  | notScalar (kind : String)
  /-- The template called does not declare it. -/
  | undeclared (template : String)
deriving DecidableEq, Repr

/-- The words for a problem. -/
def ParamProblem.message : ParamProblem → String
  | .notObject kind => s!"expected an object of named values, got {kind}"
  | .notScalar kind => s!"expected a string, number or boolean, got {kind}"
  | .undeclared template => s!"not declared by template {template}"

/-- What can go wrong while instructions are carried out. -/
inductive RunProblem where
  /-- An expression has no value. -/
  | expression (error : ExprError)
  /-- An instruction needs nodes and its expression has this value instead. -/
  | notNodes (instruction found : String)
  /-- A computed name is no name, or is reserved. -/
  | badName (name : String)

/-- The words for a problem. -/
def RunProblem.message : RunProblem → String
  | .expression error => error.message
  | .notNodes instruction found =>
    s!"Type error: The select expression of {instruction} must return a node-set, got '{found}'"
  | .badName name => s!"'{name}' is not a valid name for a result node"

/-- Why result events cannot be written as markup. -/
inductive EventProblem where
  /-- An attribute where no start tag is open. -/
  | strayAttribute (name : String)
  /-- An end where no element is open. -/
  | strayEnd
  /-- No end for an element. -/
  | unclosed (name : String)
deriving DecidableEq, Repr

/-- The words for a problem. -/
def EventProblem.message : EventProblem → String
  | .strayAttribute name => s!"Attribute '{name}' written outside a start tag"
  | .strayEnd => "End of element without a matching start"
  | .unclosed name => s!"Element '{name}' was never closed"

/-- The classes of failures. -/
inductive FailureKind where
  | stylesheetParse
  | documentParse
  | expressionSyntax
  | unboundReference
  | depthExceeded
  | parameterType
  | evaluation
  | internal
deriving DecidableEq, Repr

/-- A failure of compiling a stylesheet or of a transformation. -/
inductive Failure where
  /-- The stylesheet is not well-formed. -/
  | stylesheetMarkup
  | stylesheet (problem : StyleProblem) (place : Place)
  | assembly (problem : AssemblyProblem)
  /-- The document is not well-formed. -/
  | documentMarkup
  | documentEncoding (error : Text.Utf8Error)
  | expression (source : String) (problem : SyntaxProblem)
  | unbound (name : String)
  | noTemplate (name : String)
  /-- Templates are nested more than `limit` levels deep. -/
  | tooDeep (limit : Nat)
  | parameter (name : String) (problem : ParamProblem)
  | evaluation (problem : RunProblem)
  /-- The stylesheet asked for the end with a message. -/
  | terminated (text : String)
  | events (problem : EventProblem)

namespace Failure

/-- The class of a failure. -/
def kind : Failure → FailureKind
  | .stylesheetMarkup | .stylesheet .. => .stylesheetParse
  | .documentMarkup | .documentEncoding _ => .documentParse
  | .expression .. => .expressionSyntax
  | .unbound _ | .noTemplate _ => .unboundReference
  | .tooDeep _ => .depthExceeded
  | .parameter .. => .parameterType
  | .evaluation _ | .terminated _ => .evaluation
  | .assembly _ | .events _ => .internal

/-- The words for a failure. -/
def message : Failure → String
  | .stylesheetMarkup => "Stylesheet parse error: not well-formed"
  | .stylesheet problem place =>
    s!"Stylesheet parse error at line {place.line}, column {place.column}: {problem.message}"
  | .documentMarkup => "Document parse error: not well-formed"
  | .documentEncoding error =>
    s!"Document parse error: Document is not valid UTF-8: {error.message}"
  | .expression source problem => s!"XPath syntax error in '{source}': {problem.message}"
  | .unbound name => s!"Reference to unbound variable or parameter '${name}'"
  | .noTemplate name => s!"Named template '{name}' not found"
  | .tooDeep limit => s!"Template recursion exceeded the depth limit of {limit}"
  | .parameter name problem => s!"Invalid parameter '{name}': {problem.message}"
  | .evaluation problem => s!"Evaluation error: {problem.message}"
  | .terminated text => s!"Transformation terminated by xsl:message: {text}"
  | .assembly problem => s!"Internal error: {problem.message}"
  | .events problem => s!"Internal error: {problem.message}"

/-- The failure of a run for the failure of an expression. -/
def ofExprError : ExprError → Failure
  | .unbound name => .unbound name
  | .malformed source failure => .expression source (.unreadable failure)
  | other => .evaluation (.expression other)

end Failure

/-- Read an expression that may call the given functions. -/
def Expr.compile (functions : List String) (source : String) : Except Failure Expr :=
  match Expr.parse source with
  | .error failure => .error (.expression source (.unreadable failure))
  | .ok e =>
    match e.calls.find? fun name => !functions.contains name with
    | some name => .error (.expression source (.unknownFunction name))
    | none => .ok e

end Restyle
