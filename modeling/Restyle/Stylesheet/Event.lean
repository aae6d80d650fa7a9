import Restyle.Markup.Reading
import Restyle.Name
import Restyle.Document

/-!
# Restyle.Stylesheet.Event

A stylesheet as it is met when its markup is read from start to end: start tags, texts and end
tags.  Comments and processing instructions are passed over.

An element is either one of the stylesheet language or a literal element, which stands for itself
in the result.  A literal element carries the namespace declarations that the result needs: all
that are in scope for it, without those in scope for a literal element right around it.  The
namespace of the stylesheet language is never among them, and one with an excluded prefix only if
the element is in that namespace.
-/

namespace Restyle

open Markup (Item Namespace ExpandedName Place Tag)

/-- The namespace of the stylesheet language. -/
def languageUri : String := "http://www.w3.org/1999/XSL/Transform"

/-- What an element of a stylesheet is. -/
inductive StyleName where
  /-- An element of the stylesheet language. -/
  | language (localPart : String)
  /-- An element that stands for itself. -/
  | literal (name : QName)
deriving DecidableEq, Repr

/-- A start tag in a stylesheet. -/
structure StyleTag where
  name : StyleName
  /-- The attributes in no namespace of an element of the language; all attributes outside the
  language of a literal element. -/
  attributes : List Attribute
  /-- The namespaces that a literal element declares in the result. -/
  namespaces : List Namespace
  place : Place

/-- What is met in a stylesheet. -/
inductive StyleEvent where
  | start (tag : StyleTag)
  | text (content : String) (place : Place)
  | stop

namespace StyleEvent

/-- The prefixes that a document element excludes, as it writes them. -/
def excludedBy (tag : Tag) : List String :=
  ["exclude-result-prefixes", "extension-element-prefixes"].flatMap fun name =>
    match tag.attributes.lookup ⟨none, name⟩ with
    | some value => (Text.words Text.isBlank value.toList).map String.ofList
    | none => []

/-- Whether a prefix is excluded; `#default` stands for no prefix and `#all` for every one. -/
def isExcluded (excluded : List String) (qualifier : Option String) : Bool :=
  excluded.any fun name => name == qualifier.getD "#default" || name == "#all"

/-- The namespaces that a literal element declares in the result, where `outer` is the scope of
the literal element right around it. -/
def declaredIn (excluded : List String) (outer : List Namespace) (tag : Tag) : List Namespace :=
  tag.scope.filter fun ns =>
    ns.uri != languageUri && ns.uri != Markup.xmlUri && !outer.contains ns &&
      (some ns.uri == tag.name.uri || !isExcluded excluded ns.qualifier)

/-- Whether an element is one of the stylesheet language. -/
def isLanguage (tag : Tag) : Bool := tag.name.uri == some languageUri

/-- A start tag as a stylesheet means it. -/
def styleTag (excluded : List String) (outer : List Namespace) (tag : Tag) : StyleTag :=
  if isLanguage tag then
    ⟨.language tag.name.localPart,
      (tag.attributes.filter fun attr => attr.1.uri == none).map fun (name, value) =>
        ⟨⟨none, name.localPart⟩, value⟩,
      [], tag.place⟩
  else
    ⟨.literal (Tag.qualified tag.scope tag.name),
      (tag.attributes.filter fun attr => attr.1.uri != some languageUri).map fun (name, value) =>
        ⟨Tag.qualified tag.scope name, value⟩,
      declaredIn excluded outer tag, tag.place⟩

mutual

/-- What is met in a part of a stylesheet. -/
def ofItem (excluded : List String) (outer : List Namespace) : Item → List StyleEvent
  | .element tag children =>
    .start (styleTag excluded outer tag) ::
      (ofItems excluded (if isLanguage tag then [] else tag.scope) children ++ [.stop])
  | .text content place => [.text content place]
  | .comment _ | .instruction .. => []

/-- What is met in parts of a stylesheet, one after another. -/
def ofItems (excluded : List String) (outer : List Namespace) : List Item → List StyleEvent
  | [] => []
  | item :: items => ofItem excluded outer item ++ ofItems excluded outer items

end

/-- What is met in the document element of a marked-up text. -/
def ofDocument : List Item → List StyleEvent
  | [] => []
  | .element tag children :: _ => ofItem (excludedBy tag) [] (.element tag children)
  | _ :: items => ofDocument items

/-- What is met in a stylesheet, if its markup is well-formed. -/
def ofText? (text : String) : Option (List StyleEvent) := (Markup.read text).map ofDocument

end StyleEvent

end Restyle
