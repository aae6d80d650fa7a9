import Restyle.Document
import Restyle.Markup.Reading

/-!
# Restyle.Document.OfMarkup

Documents from marked-up text.  The name of an element or attribute gets the prefix that is found
for its namespace in the scope of the element.
-/

namespace Restyle

open Markup

mutual

/-- A part of marked-up text as a tree. -/
def Tree.ofItem : Item → Tree
  | .element tag children =>
    .element (Tag.qualified tag.scope tag.name)
      (tag.attributes.map fun (name, value) => ⟨Tag.qualified tag.scope name, value⟩)
      (Tree.ofItems children)
  | .text content _ => .text content
  | .comment content => .comment content
  | .instruction target content => .instruction target content

/-- Parts of marked-up text as trees. -/
def Tree.ofItems : List Item → List Tree
  | [] => []
  | item :: items => Tree.ofItem item :: Tree.ofItems items

end

/-- The document that a marked-up text stands for, if it is well-formed. -/
def Document.ofText? (text : String) : Option Document :=
  (Markup.read text).map fun items => ⟨Tree.ofItems items⟩

end Restyle
