import Restyle.Markup.Prolog

/-!
# Restyle.Markup.Element

Elements with their namespaces.

The names of elements and attributes are a namespace and a local part; the prefixes they were
written with are not kept.  Each element has the list of namespaces in scope: its own declarations
in the order they are written, then those of the element around it whose prefix it does not
declare again.  A default namespace may be declared more than once; the first declaration counts.

What a start tag gives is gathered in a `StartedTag` before it becomes a `Tag`, because a tag may
start in the text of an entity, where its end is missing, and go on elsewhere.
-/

namespace Restyle.Markup

/-- A namespace and the prefix it is declared for; no prefix for a default namespace. -/
structure Namespace where
  qualifier : Option String
  uri : String
deriving DecidableEq, Repr

/-- The name of the attribute that declares a namespace. -/
def Namespace.declaration (ns : Namespace) : QName :=
  match ns.qualifier with
  | some qualifier => ⟨some "xmlns", qualifier⟩
  | none => ⟨none, "xmlns"⟩

/-- A name in a namespace, or in none. -/
structure ExpandedName where
  uri : Option String
  localPart : String
deriving DecidableEq, Repr

/-- What a start tag says. -/
structure Tag where
  name : ExpandedName
  attributes : List (ExpandedName × String)
  /-- The namespaces in scope. -/
  scope : List Namespace
  /-- Where the tag starts. -/
  place : Place

/-- A part of a marked-up document. -/
inductive Item where
  | element (tag : Tag) (children : List Item)
  | text (content : String) (place : Place)
  | comment (content : String)
  | instruction (target content : String)

/-- The namespace of the prefix `xml`. -/
def xmlUri : String := "http://www.w3.org/XML/1998/namespace"

/-- The namespace of namespace declarations. -/
def xmlnsUri : String := "http://www.w3.org/2000/xmlns/"

namespace Tag

/-- The namespace of a prefix; the empty prefix means the default one. -/
def uriOf? (scope : List Namespace) (qualifier : String) : Option (Option String) :=
  let wanted := if qualifier.isEmpty then none else some qualifier
  match scope.find? fun ns => ns.qualifier == wanted with
  | some ns => some (some ns.uri)
  | none => if qualifier.isEmpty then some none else none

/-- The prefix under which a namespace is found in a scope.  The first declaration counts, and a
default declaration gives no prefix. -/
def qualifierOf (scope : List Namespace) (uri : String) : Option String :=
  if uri = xmlUri then some "xml"
  else ((scope.find? fun ns => ns.uri == uri).bind Namespace.qualifier)

/-- A name as it is written with the prefix found for its namespace. -/
def qualified (scope : List Namespace) (name : ExpandedName) : QName :=
  ⟨name.uri.bind (qualifierOf scope), name.localPart⟩

end Tag

/-! ## Declarations -/

/-- An attribute of a tag with its value expanded. -/
structure ReadAttribute where
  name : Source.Written
  value : String

/-- The namespace that an attribute declares, if it declares one.  The outer `none` stands for a
declaration that is not allowed, the inner one for an attribute that declares nothing or declares
what always holds. -/
def declaredNamespace (attr : ReadAttribute) : Option (Option Namespace) :=
  if attr.name.qualifier == "xmlns" then
    if attr.value == xmlnsUri then none
    else if (attr.name.localPart == "xml") != (attr.value == xmlUri) then none
    else if attr.value == xmlUri then some none
    else some (some ⟨some attr.name.localPart, attr.value⟩)
  else if attr.name.localPart == "xmlns" then
    if attr.value == xmlUri || attr.value == xmlnsUri then none
    else some (some ⟨none, attr.value⟩)
  else some none

/-- Whether an attribute declares a namespace. -/
def isDeclaration (attr : ReadAttribute) : Bool :=
  attr.name.qualifier == "xmlns" || attr.name.localPart == "xmlns"

/-- The namespaces that attributes declare after others, each prefix at most once. -/
def declaredNamespaces (own : List Namespace) :
    List ReadAttribute → Option (List Namespace)
  | [] => some own
  | attr :: attrs => do
    match ← declaredNamespace attr with
    | none => declaredNamespaces own attrs
    | some ns =>
      if ns.qualifier.isSome && own.any fun other => other.qualifier == ns.qualifier then none
      else declaredNamespaces (own ++ [ns]) attrs

/-- Take a namespace into a scope in which its prefix is not declared. -/
def inherit (scope : List Namespace) (ns : Namespace) : List Namespace :=
  if scope.any fun mine => mine.qualifier == ns.qualifier then scope else scope ++ [ns]

/-- The namespaces in scope for an element with these declarations inside `outer`. -/
def innerScope (own outer : List Namespace) : List Namespace :=
  if own.isEmpty then outer else outer.foldl inherit own

/-- The expanded name of an attribute.  Default namespaces do not apply to attributes. -/
def attributeName (scope : List Namespace) (name : Source.Written) : Option ExpandedName :=
  if name.qualifier == "xml" then some ⟨some xmlUri, name.localPart⟩
  else if name.qualifier.isEmpty then some ⟨none, name.localPart⟩
  else (Tag.uriOf? scope name.qualifier).map (⟨·, name.localPart⟩)

/-- The attributes of an element with expanded names, no two of them alike. -/
def expandAttributes (scope : List Namespace) (known : List (ExpandedName × String)) :
    List ReadAttribute → Option (List (ExpandedName × String))
  | [] => some known
  | attr :: attrs => do
    let name ← attributeName scope attr.name
    if known.any fun other => other.1 == name then none
    else expandAttributes scope (known ++ [(name, attr.value)]) attrs

/-- What a start tag has given before its end. -/
structure StartedTag where
  declared : List Namespace
  /-- The attributes that declare nothing. -/
  attributes : List ReadAttribute

namespace StartedTag

/-- A tag that has given nothing. -/
def empty : StartedTag := ⟨[], []⟩

/-- Take in further attributes. -/
def add (tag : StartedTag) (attrs : List ReadAttribute) : Option StartedTag := do
  let declared ← declaredNamespaces tag.declared attrs
  return ⟨declared, tag.attributes ++ attrs.filter fun attr => !isDeclaration attr⟩

/-- The namespaces in scope for the tag inside `outer`. -/
def scope (tag : StartedTag) (outer : List Namespace) : List Namespace :=
  innerScope tag.declared outer

/-- The attributes of the tag inside `outer` with expanded names. -/
def expanded (tag : StartedTag) (outer : List Namespace) : Option (List (ExpandedName × String)) :=
  expandAttributes (tag.scope outer) [] tag.attributes

/-- The tag with its name, once it has ended. -/
def finish (tag : StartedTag) (outer : List Namespace) (place : Place) (name : Source.Written) :
    Option Tag := do
  let attributes ← tag.expanded outer
  let uri ← Tag.uriOf? (tag.scope outer) name.qualifier
  return ⟨⟨uri, name.localPart⟩, attributes, tag.scope outer, place⟩

end StartedTag

end Restyle.Markup
