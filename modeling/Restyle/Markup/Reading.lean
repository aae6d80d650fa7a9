import Restyle.Markup.Element

/-!
# Restyle.Markup.Reading

From text to elements.

Tokens are fed one by one to a `Building`, which keeps the elements that are still open.  An entity
in content is read as tokens in the place of the reference, up to the end tag that closes what the
reference stands in.  An element may be opened in one text and closed in another, but the first tag
of an entity is no end tag.  A start tag that the end of an entity cuts off gives its declarations
and attributes to the next start tag; at an end tag they are checked and dropped.  Entities may be
nested ten levels deep, and inside one reference at most 255 others are followed.  Parts of text
that stand together become one text when something else follows them.

Line ends become line feeds: a carriage return before a line feed is dropped and any other one is
replaced.  A character written as a reference outside entities is taken as it is, together with the
character that follows it.  In attribute values, tabs and line ends become spaces.
-/

namespace Restyle.Markup

open Source

/-- How deep entities may be nested. -/
def depthLimit : Nat := 10

/-- How many references are followed inside one reference. -/
def referenceLimit : Nat := 255

/-- Count a reference; those outside entities do not count. -/
def countReference (left count : Nat) : Option Nat :=
  if left = depthLimit then some count
  else if count = referenceLimit then none else some (count + 1)

/-- The count after an entity has been read. -/
def settle (left count : Nat) : Nat := if left = depthLimit then 0 else count

/-! ## Attribute values -/

/-- A white-space character as it counts in an attribute value. -/
def attributeChar (c : Char) : Char := if c == '\n' || c == '\t' || c == '\r' then ' ' else c

/-- Whether a line feed written as itself comes next. -/
def lineFeedNext : List Piece → Bool
  | .plain '\n' :: _ => true
  | _ => false

/-- The characters of an attribute value and the references counted so far. -/
def attributePieces (inside : Bool) (expand : String → Nat → Option (List Char × Nat))
    (count : Nat) : List Piece → Option (List Char × Nat)
  | [] => some ([], count)
  | .plain c :: pieces => do
    let (cs, count) ← attributePieces inside expand count pieces
    return (if c == '\r' && lineFeedNext pieces then cs else attributeChar c :: cs, count)
  | .char c :: pieces => do
    if inside && c == '<' then none
    else
      let (cs, count) ← attributePieces inside expand count pieces
      return ((if inside then attributeChar c else c) :: cs, count)
  | .entity name :: pieces => do
    let (value, count) ← expand name count
    let (cs, count) ← attributePieces inside expand count pieces
    return (value ++ cs, count)

/-- The value of an entity in an attribute, where `left` more levels may be nested. -/
def entityInAttribute (entities : List Entity) :
    Nat → String → Nat → Option (List Char × Nat)
  | 0, _, _ => none
  | left + 1, name, count => do
    let value ← entityValue? entities name
    let count ← countReference (left + 1) count
    let (cs, count) ←
      attributePieces true (entityInAttribute entities left) count (← pieces value)
    return (cs, settle (left + 1) count)

/-- The attributes of a tag with their values expanded. -/
def readAttributes (entities : List Entity) (left : Nat) (count : Nat) :
    List RawAttribute → Option (List ReadAttribute × Nat)
  | [] => some ([], count)
  | attr :: attrs => do
    let (cs, count) ← attributePieces (left != depthLimit) (entityInAttribute entities left) count
      (← pieces attr.value)
    let (others, count) ← readAttributes entities left count attrs
    return (⟨attr.name, String.ofList cs⟩ :: others, count)

/-! ## Content -/

/-- An element that is still open. -/
structure OpenElement where
  written : Written
  tag : Tag
  /-- What stands before the element, last first. -/
  before : List Item

/-- Text that may still go on. -/
structure OpenText where
  place : Place
  first : String
  /-- The parts after the first one, last first. -/
  others : List String

/-- Text with all its parts. -/
def OpenText.item (text : OpenText) : Item :=
  .text (String.join (text.first :: text.others.reverse)) text.place

/-- A document in the making. -/
structure Building where
  /-- What has been read of the innermost open element, last first. -/
  content : List Item
  /-- Text that stands after it and that further text joins. -/
  text : Option OpenText
  /-- The open elements, innermost first. -/
  above : List OpenElement
  /-- How many references have been followed inside the present one. -/
  count : Nat
  /-- What start tags have given whose ends are missing. -/
  started : StartedTag

namespace Building

/-- Before anything is read. -/
def empty : Building := ⟨[], none, [], 0, .empty⟩

/-- The namespaces in scope. -/
def scope (b : Building) : List Namespace :=
  match b.above with
  | [] => []
  | element :: _ => element.tag.scope

/-- Let no further text join the text that stands last. -/
def endText (b : Building) : Building :=
  match b.text with
  | some text => { b with content := text.item :: b.content, text := none }
  | none => b

/-- Add something other than text. -/
def add (b : Building) (item : Item) : Building :=
  let b := b.endText
  { b with content := item :: b.content }

/-- Add text; it joins text that stands right before it. -/
def addText (b : Building) (cs : List Char) (place : Place) : Building :=
  let part := String.ofList cs
  match b.text with
  | some text => { b with text := some { text with others := part :: text.others } }
  | none => { b with text := some ⟨place, part, []⟩ }

/-- Whether there is an element in what has been read of the innermost open one. -/
def hasElement (b : Building) : Bool :=
  b.content.any fun item => match item with
    | .element .. => true
    | _ => false

/-- Feed a start tag with its attributes expanded. -/
def start (b : Building) (place : Place) (name : Written) (attrs : List ReadAttribute)
    (tagEnd : TagEnd) : Option Building := do
  if name.qualifier == "xmlns" then none
  else
    let b := b.endText
    let started ← b.started.add attrs
    match tagEnd with
    | .cutOff => return { b with started := started }
    | .closing =>
      let tag ← started.finish b.scope place name
      return { b.add (.element tag []) with started := .empty }
    | .opening =>
      let tag ← started.finish b.scope place name
      return { b with
        content := []
        above := ⟨name, tag, b.content⟩ :: b.above
        started := .empty }

/-- Feed an end tag. -/
def stop (b : Building) (name : Written) : Option Building := do
  let b := b.endText
  match b.above with
  | [] => none
  | element :: outer =>
    if element.written = name && (b.started.expanded b.scope).isSome then
      return { b with
        content := .element element.tag b.content.reverse :: element.before
        above := outer
        started := .empty }
    else none

/-- What stands at the top after the last token.  Of text that nothing has ended, only the first
part has become a part of the document. -/
def top (b : Building) : List Item :=
  match b.text with
  | some text => (.text text.first text.place :: b.content).reverse
  | none => b.content.reverse

end Building

/-- Add a character of text to those before it, last first; a carriage return before it has waited
to see what follows. -/
def pushText (c : Char) (isLast : Bool) : List Char → List Char
  | '\r' :: before =>
    if isLast && c == '\r' then '\n' :: '\n' :: before
    else if c == '\n' then '\n' :: before
    else c :: '\n' :: before
  | before => if isLast && c == '\r' then '\n' :: before else c :: before

/-- Add the characters of a section in which references do not count. -/
def pushAll (before : List Char) : List Char → List Char
  | [] => before
  | c :: cs => pushAll (pushText c cs.isEmpty before) cs

/-- Add text that has been gathered, last character first, if there is any. -/
def flush (place : Place) (gathered : List Char) (b : Building) : Building :=
  if gathered.isEmpty then b else b.addText gathered.reverse place

/-- Add text in which references count. -/
def addPieces (inside : Bool) (expand : String → Building → Option Building) (place : Place)
    (gathered : List Char) (asIs : Bool) : List Piece → Building → Option Building
  | [], b => some (flush place gathered b)
  | .plain c :: pieces, b =>
    let gathered' := if asIs then c :: gathered else pushText c pieces.isEmpty gathered
    addPieces inside expand place gathered' false pieces b
  | .char c :: pieces, b =>
    if inside then addPieces inside expand place (pushText c pieces.isEmpty gathered) asIs pieces b
    else addPieces inside expand place (c :: gathered) true pieces b
  | .entity name :: pieces, b => do
    let b' ← expand name (flush place gathered b)
    addPieces inside expand place [] false pieces b'

/-- Feed one token. -/
def feed (entities : List Entity) (left : Nat) (expand : String → Building → Option Building)
    (token : Token) (b : Building) : Option Building := do
  match token with
  | .start place name attributes tagEnd =>
    let (attrs, count) ← readAttributes entities left b.count attributes
    { b with count := count }.start place name attrs tagEnd
  | .stop name => b.stop name
  | .text content =>
    addPieces (left != depthLimit) expand (Source.place content) [] false (← pieces content) b
  | .data place content => return b.addText (pushAll [] (chars content)).reverse place
  | .comment content => return b.add (.comment content)
  | .instruction target content => return b.add (.instruction target content)

/-- Feed tokens in turn. -/
def feedAll (entities : List Entity) (left : Nat) (expand : String → Building → Option Building) :
    List Token → Building → Option Building
  | [], b => some b
  | token :: tokens, b => do
    feedAll entities left expand tokens (← feed entities left expand token b)

/-- Read an entity in content, where `left` more levels may be nested. -/
def entityInContent (entities : List Entity) : Nat → String → Building → Option Building
  | 0, _, _ => none
  | left + 1, name, b => do
    let value ← entityValue? entities name
    let count ← countReference (left + 1) b.count
    let (tokens, _) ← Token.content 0 value
    if Token.closesFirst tokens then none
    else
      let b ← feedAll entities left (entityInContent entities left) tokens { b with count := count }
      return { b with count := settle (left + 1) b.count }

/-- What stands at the top of a marked-up text: an element, and comments and processing
instructions around it; further elements and text if an entity closes the first one.  Nothing if
the text is not well-formed. -/
def read (text : String) : Option (List Item) := do
  let (prolog, rest) ← Prolog.read (locate text)
  let (tokens, rest) ← if starts "<" rest then Token.element rest else some ([], rest)
  let (after, rest) ← Prolog.misc rest
  let b ← feedAll prolog.entities depthLimit (entityInContent prolog.entities depthLimit)
    (prolog.tokens ++ tokens ++ after) .empty
  if rest.isEmpty && b.above.isEmpty && b.hasElement then return b.top else none

end Restyle.Markup
