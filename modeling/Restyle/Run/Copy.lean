import Restyle.Document
import Restyle.Result

/-!
# Restyle.Run.Copy

Nodes as events of the result.  Processing instructions have none.
-/

namespace Restyle

/-- The name under which a node is written. -/
def Node.writtenName (node : Node) : String := (node.name.map QName.text).getD ""

/-- The event for an attribute. -/
def Attribute.event (attr : Attribute) : Event := .attr attr.name.text attr.value

mutual

/-- The events for a tree. -/
def Tree.events : Tree → List Event
  | .element name attributes children =>
    .start name.text :: (attributes.map Attribute.event ++ (forestEvents children ++ [.stop]))
  | .text content => [.text content]
  | .comment content => [.comment content]
  | .instruction .. => []

/-- The events for a list of trees. -/
def Tree.forestEvents : List Tree → List Event
  | [] => []
  | tree :: trees => tree.events ++ forestEvents trees

end

/-- The events for a node with all that is below it. -/
def Node.events : Node → List Event
  | .root document => Tree.forestEvents document.children
  | .child _ _ _ tree => tree.events
  | .attr _ _ content => [content.event]

end Restyle
