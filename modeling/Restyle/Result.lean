/-!
# Restyle.Result

Results as the events that make them up.

Events are reported one at a time in any order.  What is kept of them is tidy: attributes only
right after the start of an element or another attribute, no empty text, and no two texts in a row.

* `Event.keep` — what is kept when one more event is reported;
* `Event.kept` — what is kept of events reported in turn;
* `Event.textOf` — the text in them.
-/

namespace Restyle

/-- A step in building a result. -/
inductive Event where
  | start (name : String)
  | attr (name value : String)
  | text (content : String)
  | comment (content : String)
  | stop
deriving DecidableEq, Repr

namespace Event

/-- Whether an attribute may follow the events kept so far, last first. -/
def takesAttribute : List Event → Bool
  | .start _ :: _ | .attr .. :: _ => true
  | _ => false

/-- Keep text; it joins the text right before it. -/
def keepText (content : String) : List Event → List Event
  | .text before :: events => .text (before ++ content) :: events
  | events => .text content :: events

/-- What is kept, last first, when an event is reported after the events kept so far. -/
def keep (kept : List Event) : Event → List Event
  | .attr name value => if takesAttribute kept then .attr name value :: kept else kept
  | .text content => if content.isEmpty then kept else keepText content kept
  | event => event :: kept

/-- What is kept of events reported in turn. -/
def kept (events : List Event) : List Event := (events.foldl keep []).reverse

/-- The characters of an event that is text. -/
def chars : Event → List Char
  | .text content => content.toList
  | _ => []

/-- The text in events. -/
def textOf (events : List Event) : String := String.ofList (events.flatMap chars)

end Event

end Restyle
