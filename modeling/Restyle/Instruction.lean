import Restyle.Pattern
import Restyle.TextTemplate

/-!
# Restyle.Instruction

Instructions and templates in the form in which they are carried out.

A template is a body of instructions with declared parameters; it is found by its pattern, by its
name, or by both.  A variable, a parameter or a value passed to a template takes its value from a
`ValueSource`.
-/

namespace Restyle

/-- Where a variable or parameter takes its value from. -/
inductive ValueSource (ι : Type) where
  /-- Neither an expression nor content: the empty text. -/
  | empty
  /-- The value of an expression. -/
  | select (e : Expr)
  /-- The text that instructions write. -/
  | content (body : List ι)

/-- How the values of a sort key are compared. -/
inductive SortType where
  | text
  | number
deriving DecidableEq, Repr

/-- The direction of a sort key. -/
inductive SortOrder where
  | ascending
  | descending
deriving DecidableEq, Repr

/-- What nodes are sorted by. -/
structure SortKey where
  select : Expr
  order : SortOrder
  type : SortType

/-- The instructions of a template. -/
inductive Instruction where
  /-- Write text. -/
  | text (content : String)
  /-- Write an element with fixed names. -/
  | literal (name : QName) (namespaces : List Markup.Namespace)
    (attributes : List (QName × TextTemplate)) (body : List Instruction)
  /-- Write the text of a value. -/
  | valueOf (select : Expr)
  /-- Write nodes with all that is below them, or the text of any other value. -/
  | copyOf (select : Expr)
  /-- Hand nodes to the templates for them; the children of the context node by default. -/
  | applyTemplates (select : Option Expr) (mode : Option String) (sorts : List SortKey)
    (passed : List (String × ValueSource Instruction))
  /-- Carry out a named template. -/
  | callTemplate (name : String) (passed : List (String × ValueSource Instruction))
  /-- Carry out a body for each of some nodes. -/
  | forEach (select : Expr) (sorts : List SortKey) (body : List Instruction)
  /-- Carry out a body if a test holds. -/
  | ifThen (test : Expr) (body : List Instruction)
  /-- Carry out the body behind the first test that holds. -/
  | choose (whens : List (Expr × List Instruction)) (otherwise : Option (List Instruction))
  /-- Bind a variable for the rest of the body it stands in. -/
  | variable (name : String) (value : ValueSource Instruction)
  /-- Write an element with a computed name. -/
  | element (name : TextTemplate) (body : List Instruction)
  /-- Write an attribute with a computed name and the text of a body. -/
  | attr (name : TextTemplate) (body : List Instruction)
  /-- Write the context node, with a body for what is inside an element or the root. -/
  | copy (body : List Instruction)
  /-- Write a comment with the text of a body. -/
  | comment (body : List Instruction)
  /-- Report the text of a body, and end everything if asked to. -/
  | message (terminate : Bool) (body : List Instruction)

/-- A template. -/
structure Template where
  name : Option String
  pattern : Option Pattern
  /-- The mode in which the pattern counts. -/
  mode : Option String
  /-- The priority of all alternatives of the pattern, where one is stated. -/
  priority : Option Double
  /-- The declared parameters with their default values. -/
  params : List (String × ValueSource Instruction)
  body : List Instruction

namespace Template

/-- How messages refer to a template. -/
def label (template : Template) : String :=
  match template.name, template.pattern with
  | some name, _ => s!"name=\"{name}\""
  | none, some pattern => s!"match=\"{pattern.source}\""
  | none, none => "<anonymous>"

/-- Whether a template declares a parameter. -/
def declares (template : Template) (name : String) : Bool :=
  template.params.any fun param => param.1 == name

end Template

end Restyle
