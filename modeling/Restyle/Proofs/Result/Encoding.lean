import Restyle.Proofs.Result.Nesting

/-!
# Restyle.Proofs.Result.Encoding

What is kept of a copy of a document.

The encoding of a document goes through its trees in order.  An element comes with its attributes
and what is inside it, a comment with its content, and a processing instruction not at all.  Text
joins the text right after it, if nothing is kept of what stands between them, and empty text is
left out.  Of the events for a copy of a document, reported one after another, just this is kept:
every attribute comes where it may.

* `Document.encoding` — the encoding of a document;
* `Event.kept_eq_joined` — what is kept of events with all attributes in place;
* `Document.kept_events` — the main result.
-/

namespace Restyle

namespace Event

/-- Text in front of events; it joins text that they start with. -/
def joinText (content : String) : List Event → List Event
  | .text after :: events => .text (content ++ after) :: events
  | events => .text content :: events

/-- An event in front of others.  Empty text is left out. -/
def join (event : Event) (events : List Event) : List Event :=
  match event with
  | .text content => if content.isEmpty then events else joinText content events
  | _ => event :: events

end Event

/-! ## The encoding of a document -/

mutual

/-- The encoding of a tree, in front of other events. -/
def Tree.encodingThen (rest : List Event) : Tree → List Event
  | .element name attributes children =>
    .start name.text :: ((attributes.map fun attr => .attr attr.name.text attr.value) ++
      forestEncodingThen (.stop :: rest) children)
  | .text content => Event.join (.text content) rest
  | .comment content => .comment content :: rest
  | .instruction .. => rest

/-- The encoding of a list of trees, in front of other events. -/
def Tree.forestEncodingThen (rest : List Event) : List Tree → List Event
  | [] => rest
  | tree :: trees => encodingThen (forestEncodingThen rest trees) tree

end

/-- The encoding of a document: its elements with their attributes, its texts and its comments, in
document order. -/
def Document.encoding (document : Document) : List Event :=
  Tree.forestEncodingThen [] document.children

/-! ## Events joined -/

namespace Event

/-- Events with neighbouring texts joined and empty ones left out, in front of other events. -/
def joinedThen (rest events : List Event) : List Event := events.foldr join rest

theorem joinedThen_append (rest as bs : List Event) :
    joinedThen rest (as ++ bs) = joinedThen (joinedThen rest bs) as := List.foldr_append

theorem joinText_joinText (first second : String) (events : List Event) :
    joinText first (joinText second events) = joinText (first ++ second) events := by
  cases events with
  | nil => rfl
  | cons event events =>
      cases event with
      | text after => simp only [joinText, String.append_assoc]
      | _ => rfl

end Event

mutual

theorem Tree.joinedThen_events (rest : List Event) : (tree : Tree) →
    Event.joinedThen rest tree.events = tree.encodingThen rest
  | .element name attributes children => by
      have hattributes (rest : List Event) :
          Event.joinedThen rest (attributes.map Attribute.event) =
            (attributes.map fun attr => .attr attr.name.text attr.value) ++ rest := by
        induction attributes with
        | nil => rfl
        | cons attr attributes ih => exact congrArg (_ :: ·) ih
      rw [Tree.events, Tree.encodingThen]
      change .start name.text :: Event.joinedThen rest _ = _
      rw [Event.joinedThen_append, Event.joinedThen_append, hattributes,
        Tree.joinedThen_forestEvents]
      rfl
  | .text content => by rw [Tree.events]; rfl
  | .comment content => by rw [Tree.events]; rfl
  | .instruction target content => by rw [Tree.events]; rfl

theorem Tree.joinedThen_forestEvents (rest : List Event) : (trees : List Tree) →
    Event.joinedThen rest (Tree.forestEvents trees) = Tree.forestEncodingThen rest trees
  | [] => by rw [Tree.forestEvents]; rfl
  | tree :: trees => by
      rw [Tree.forestEvents, Event.joinedThen_append, Tree.joinedThen_forestEvents rest trees,
        Tree.joinedThen_events _ tree, Tree.forestEncodingThen]

end

/-! ## What is kept -/

namespace Event

/-- Attributes in place without a tag before them are in place after one too. -/
theorem placedAfter_of_false {events : List Event} (h : placedAfter false events = true)
    (inTag : Bool) : placedAfter inTag events = true := by
  cases events with
  | nil => rfl
  | cons event events =>
      cases event with
      | attr name value => cases h
      | _ => exact h

/-- Events in front of others, where the last event kept joins them. -/
def keptThen (rest : List Event) : List Event → List Event
  | .text before :: kept => kept.reverse ++ joinText before rest
  | kept => kept.reverse ++ rest

theorem keptThen_nil (kept : List Event) : keptThen [] kept = kept.reverse := by
  cases kept with
  | nil => rfl
  | cons last kept =>
      cases last with
      | text before => exact List.reverse_cons.symm
      | _ => exact List.append_nil _

/-- An event that is no text may as well be kept first. -/
theorem keptThen_cons {event : Event} (h : ∀ content, event ≠ .text content)
    (rest kept : List Event) :
    keptThen rest (event :: kept) = keptThen (event :: rest) kept := by
  have hleft : keptThen rest (event :: kept) = kept.reverse ++ event :: rest := by
    rw [List.append_cons, ← List.reverse_cons]
    cases event with
    | text content => exact absurd rfl (h content)
    | _ => rfl
  have hjoin (before : String) :
      joinText before (event :: rest) = .text before :: event :: rest := by
    cases event with
    | text content => exact absurd rfl (h content)
    | _ => rfl
  rw [hleft]
  cases kept with
  | nil => rfl
  | cons last kept =>
      cases last with
      | text before =>
          rw [List.reverse_cons, List.append_assoc]
          exact congrArg (kept.reverse ++ ·) (hjoin before).symm
      | _ => rfl

theorem keptThen_keepText (content : String) (rest kept : List Event) :
    keptThen rest (keepText content kept) = keptThen (joinText content rest) kept := by
  cases kept with
  | nil => rfl
  | cons last kept =>
      cases last with
      | text before =>
          exact congrArg (kept.reverse ++ ·) (joinText_joinText before content rest).symm
      | _ => rfl

/-- An event that is in place may as well be joined to what comes after it. -/
theorem keptThen_keep {event : Event} {kept : List Event}
    (h : placedAfter (takesAttribute kept) [event] = true) (rest : List Event) :
    keptThen rest (keep kept event) = keptThen (join event rest) kept := by
  cases event with
  | start name | comment content | stop => exact keptThen_cons (by rintro _ ⟨⟩) rest kept
  | attr name value =>
      have htakes : takesAttribute kept = true := (Bool.and_eq_true_iff.1 h).1
      rw [keep, if_pos htakes]
      exact keptThen_cons (by rintro _ ⟨⟩) rest kept
  | text content =>
      unfold keep join
      dsimp only
      split
      · rfl
      · exact keptThen_keepText content rest kept

theorem placedAfter_keep {event : Event} {events kept : List Event}
    (h : placedAfter (takesAttribute kept) (event :: events) = true) :
    placedAfter (takesAttribute (keep kept event)) events = true := by
  cases event with
  | start name | comment content | stop => exact h
  | attr name value =>
      obtain ⟨htakes, hevents⟩ := Bool.and_eq_true_iff.1 h
      rw [keep, if_pos htakes]
      exact hevents
  | text content => exact placedAfter_of_false h _

theorem foldl_keep {events kept : List Event}
    (h : placedAfter (takesAttribute kept) events = true) :
    (events.foldl keep kept).reverse = keptThen (joinedThen [] events) kept := by
  induction events generalizing kept with
  | nil => exact (keptThen_nil kept).symm
  | cons event events ih =>
      have hevent : placedAfter (takesAttribute kept) [event] = true := by
        rw [← List.singleton_append, placedAfter_append] at h
        exact (Bool.and_eq_true_iff.1 h).1
      rw [List.foldl_cons, ih (placedAfter_keep h), keptThen_keep hevent]
      rfl

/-- What is kept of events with all attributes in place is what they are joined to. -/
theorem kept_eq_joined {events : List Event} (h : AttributesPlaced events) :
    kept events = joinedThen [] events :=
  @foldl_keep events [] h

end Event

/-! ## Copies of documents -/

theorem Attribute.placedAfter_events (attrs : List Attribute) :
    Event.placedAfter true (attrs.map Attribute.event) = true := by
  induction attrs with
  | nil => rfl
  | cons attr attrs ih => exact ih

mutual

theorem Tree.attributesPlaced_events : (tree : Tree) → Event.AttributesPlaced tree.events
  | .element name attributes children => by
      have hchildren := Event.placedAfter_of_false (Tree.attributesPlaced_forestEvents children)
      rw [Tree.events, Event.AttributesPlaced, Event.placedAfter, Event.placedAfter_append,
        Event.placedAfter_append, Attribute.placedAfter_events, hchildren]
      rfl
  | .text content => by rw [Tree.events]; rfl
  | .comment content => by rw [Tree.events]; rfl
  | .instruction target content => by rw [Tree.events]; rfl

theorem Tree.attributesPlaced_forestEvents : (trees : List Tree) →
    Event.AttributesPlaced (Tree.forestEvents trees)
  | [] => by rw [Tree.forestEvents]; rfl
  | tree :: trees => by
      have htrees := Event.placedAfter_of_false (Tree.attributesPlaced_forestEvents trees)
      have htree : Event.placedAfter false tree.events = true := Tree.attributesPlaced_events tree
      rw [Tree.forestEvents, Event.AttributesPlaced, Event.placedAfter_append, htree, htrees]
      rfl

end

/-- What is kept of a copy of a document is its encoding. -/
theorem Document.kept_events (document : Document) :
    Event.kept document.root.events = document.encoding := by
  change Event.kept (Tree.forestEvents document.children) = _
  rw [Event.kept_eq_joined (Tree.attributesPlaced_forestEvents document.children),
    Tree.joinedThen_forestEvents]
  rfl

end Restyle
