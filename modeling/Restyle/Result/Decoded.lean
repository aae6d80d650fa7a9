import Restyle.Expr.Parser
import Restyle.Result.Written

/-!
# Restyle.Result.Decoded

Results as trees, and markup read back as trees.

Events describe a tree: the start of an element takes in what follows it up to its end, texts that
stand together are one, and of attributes with one name the first gives the place and the last the
value (`Describes`).  The reader of markup knows tags, comments and the five references, takes white
space as it is, and does not care for the declaration (`Decoded.read`).

The reader is written once over the reader of what stands inside elements; `Decoded.forest` closes
the circle, up to a limit.  A text cannot hold more levels of elements, nor more nodes one after
another, than it has characters.
-/

namespace Restyle

/-- A node of a result. -/
inductive ResultTree where
  | element (name : String) (attributes : List (String × String)) (children : List ResultTree)
  | text (content : String)
  | comment (content : String)

/-- Text in front of nodes; it joins a text that stands first, and empty text is dropped. -/
def ResultTree.consText (content : String) : List ResultTree → List ResultTree
  | .text after :: trees => .text (content ++ after) :: trees
  | trees => if content.isEmpty then trees else .text content :: trees

/-! ## The tree that events describe -/

/-- Attributes without repetition: each name where it is first, with the value that it is given
last. -/
def mergedAttributes (attrs : List (String × String)) : List (String × String) :=
  (attrs.map Prod.fst).eraseDups.map fun name => (name, (attrs.reverse.lookup name).getD "")

/-- The event of an attribute. -/
def Event.ofAttribute (attr : String × String) : Event := .attr attr.1 attr.2

/-- The nodes that events describe.  A comment is described as the markup can hold it. -/
inductive Describes : List Event → List ResultTree → Prop
  | nil : Describes [] []
  | text (content : String) {events : List Event} {trees : List ResultTree}
      (h : Describes events trees) :
      Describes (.text content :: events) (ResultTree.consText content trees)
  | comment (content : String) {events : List Event} {trees : List ResultTree}
      (h : Describes events trees) :
      Describes (.comment content :: events)
        (.comment (String.ofList (Written.spaceHyphens content.toList)) :: trees)
  | element (name : String) (attrs : List (String × String)) {inside events : List Event}
      {children trees : List ResultTree} (hinside : Describes inside children)
      (h : Describes events trees) :
      Describes (.start name :: (attrs.map Event.ofAttribute ++ inside ++ .stop :: events))
        (.element name (mergedAttributes attrs) children :: trees)

namespace Decoded

open Grammar

/-! ## Names and references -/

/-- Whether a character may stand in the name of a tag or of an attribute. -/
def isTagChar (c : Char) : Bool :=
  !Text.isXmlSpace c && !(['<', '>', '/', '=', '&', '!', '"', '\''].contains c)

/-- Whether a text may be the name of a tag or of an attribute. -/
def isTagName (name : List Char) : Bool := !name.isEmpty && name.all isTagChar

/-- Whether the name in an event, if there is one, may be a name in markup. -/
def isWellNamed : Event → Bool
  | .start name | .attr name _ => isTagName name.toList
  | .text _ | .comment _ | .stop => true

/-- Text with the characters that the five references stand for. -/
def unescape : List Char → List Char
  | '&' :: 'l' :: 't' :: ';' :: cs => '<' :: unescape cs
  | '&' :: 'g' :: 't' :: ';' :: cs => '>' :: unescape cs
  | '&' :: 'a' :: 'm' :: 'p' :: ';' :: cs => '&' :: unescape cs
  | '&' :: 'q' :: 'u' :: 'o' :: 't' :: ';' :: cs => '"' :: unescape cs
  | '&' :: 'a' :: 'p' :: 'o' :: 's' :: ';' :: cs => '\'' :: unescape cs
  | c :: cs => c :: unescape cs
  | [] => []

/-! ## Tags -/

/-- The name of a tag or of an attribute. -/
def tagName (s : List Char) : Option (List Char × List Char) :=
  let name := s.takeWhile isTagChar
  if name.isEmpty then none else some (name, s.dropWhile isTagChar)

/-- An attribute, with the white space in front of it. -/
def tagAttribute : Reader (String × String) := fun s =>
  match tagName (dropSpace s) with
  | none => .error s
  | some (name, rest) =>
    match (skip ['='] rest).bind literal with
    | none => .error rest
    | some (value, rest') => .ok ((String.ofList name, String.ofList (unescape value)), rest')

/-- The end tag of an element. -/
def endTag (name s : List Char) : Option (List Char) :=
  (skip ('<' :: '/' :: name) s).bind fun rest => skip ['>'] (dropSpace rest)

/-! ## Nodes -/

/-- How nodes are read. -/
abbrev NodesReader := List Char → Option (List ResultTree × List Char)

/-- An element without the mark that opens its tag. -/
def element (inner : NodesReader) (s : List Char) : Option (ResultTree × List Char) := do
  let (name, rest) ← tagName s
  let (attrs, afterAttrs) := many tagAttribute rest.length rest
  match skip ['/', '>'] (dropSpace afterAttrs) with
  | some after => return (.element (String.ofList name) attrs [], after)
  | none => do
    let (children, after) ← inner (← skip ['>'] (dropSpace afterAttrs))
    return (.element (String.ofList name) attrs children, ← endTag name after)

/-- A comment without the mark that opens it. -/
def comment (s : List Char) : Option (ResultTree × List Char) :=
  (Text.cutAt? ['-', '-', '>'] s).map fun (content, rest) =>
    (.comment (String.ofList content), rest)

/-- Text up to the next mark. -/
def text (s : List Char) : ResultTree × List Char :=
  (.text (String.ofList (unescape (s.takeWhile (· != '<')))), s.dropWhile (· != '<'))

/-- A node. -/
def node (inner : NodesReader) (s : List Char) : Option (ResultTree × List Char) :=
  match skip ['<'] s with
  | none => some (text s)
  | some inside =>
    match skip ['!', '-', '-'] inside with
    | some content => comment content
    | none => element inner inside

/-- Whether no node comes next, but an end tag or the end of the text. -/
def stops (s : List Char) : Bool := s.isEmpty || ['<', '/'].isPrefixOf s

/-- The nodes up to an end tag or to the end of the text. -/
def forest : Nat → NodesReader
  | 0, _ => none
  | limit + 1, s =>
    if stops s then some ([], s)
    else do
      let (tree, rest) ← node (forest limit) s
      let (trees, rest') ← forest limit rest
      return (tree :: trees, rest')

/-- Read the text of a result as nodes. -/
def read (source : String) : Option (List ResultTree) :=
  let s := (skip Written.declaration source.toList).getD source.toList
  match forest (s.length + 1) s with
  | some (trees, []) => some trees
  | _ => none

end Decoded

end Restyle
