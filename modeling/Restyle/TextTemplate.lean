import Restyle.Failure

/-!
# Restyle.TextTemplate

Texts with expressions in curly brackets.  A bracket written twice stands for itself, and a closing
bracket between the quotes of an expression does not close it.
-/

namespace Restyle

/-- A part of a text template. -/
inductive TemplatePart where
  | text (content : String)
  | value (e : Expr)

/-- A text with expressions in it. -/
abbrev TextTemplate := List TemplatePart

namespace TextTemplate

/-- What brackets cut a text into. -/
inductive Segment where
  /-- A character that stands for itself. -/
  | char (c : Char)
  /-- The text of an expression. -/
  | source (cs : List Char)
  /-- The text ends inside an expression. -/
  | unclosed
  /-- A closing bracket outside expressions. -/
  | unopened
deriving DecidableEq, Repr

/-- Where a scan stands: outside expressions, or inside one with what has been read of it, last
character first, and the quote that is open. -/
inductive Scan where
  | outside
  | inside (source : List Char) (quote : Option Char)

/-- The open quote after a character inside an expression. -/
def nextQuote (quote : Option Char) (c : Char) : Option Char :=
  match quote with
  | some q => if c = q then none else some q
  | none => if c = '\'' || c = '"' then some c else none

/-- Cut a text at its brackets.  Nothing after a bracket that does not match is looked at. -/
def segmentsFrom : Scan → List Char → List Segment
  | .outside, [] => []
  | .outside, '{' :: '{' :: cs => .char '{' :: segmentsFrom .outside cs
  | .outside, '}' :: '}' :: cs => .char '}' :: segmentsFrom .outside cs
  | .outside, '{' :: cs => segmentsFrom (.inside [] none) cs
  | .outside, '}' :: _ => [.unopened]
  | .outside, c :: cs => .char c :: segmentsFrom .outside cs
  | .inside _ _, [] => [.unclosed]
  | .inside source none, '}' :: cs => .source source.reverse :: segmentsFrom .outside cs
  | .inside source quote, c :: cs => segmentsFrom (.inside (c :: source) (nextQuote quote c)) cs

/-- Cut a text at its brackets. -/
def segments (cs : List Char) : List Segment := segmentsFrom .outside cs

/-- Put text in front of parts, unless it is empty. -/
def consText (text : List Char) (parts : TextTemplate) : TextTemplate :=
  if text.isEmpty then parts else .text (String.ofList text) :: parts

/-- The parts that segments make up after the given text, last character first. -/
def ofSegments (functions : List String) (whole : String) (text : List Char) :
    List Segment → Except Failure TextTemplate
  | [] => .ok (consText text.reverse [])
  | .char c :: segments => ofSegments functions whole (c :: text) segments
  | .source cs :: segments => do
    let e ← Expr.compile functions (String.ofList cs)
    let parts ← ofSegments functions whole [] segments
    return consText text.reverse (.value e :: parts)
  | .unclosed :: _ => .error (.expression whole .openBracket)
  | .unopened :: _ => .error (.expression whole .strayBracket)

/-- Read a text template whose expressions may call the given functions. -/
def parse (functions : List String) (text : String) : Except Failure TextTemplate :=
  ofSegments functions text [] (segments text.toList)

end TextTemplate

end Restyle
