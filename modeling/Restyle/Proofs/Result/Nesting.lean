import Restyle.Result.Written
import Restyle.Run.Copy

/-!
# Restyle.Proofs.Result.Nesting

How the events of a result nest, and why a result that nests can be written.

* `Event.Balanced` — every element that is started is ended, and no other;
* `Event.AttributesPlaced` — attributes stand right after the start of an element or another
  attribute;
* `Event.balanced_kept`, `Event.attributesPlaced_kept` — what is kept of events nests as the events
  do, and has its attributes in place whatever was reported;
* `Node.balanced_events` — a copy of a node is balanced;
* `Written.result_eq_ok` — a result with both properties can be written in every form.
-/

namespace Restyle

namespace Event

/-! ## Nesting -/

/-- How many elements are open after events, where `n` are open before them.  There is no answer if
an event ends an element where none is open. -/
def openAfter (n : Nat) : List Event → Option Nat
  | [] => some n
  | .start _ :: events => openAfter (n + 1) events
  | .stop :: events =>
    match n with
    | 0 => none
    | n + 1 => openAfter n events
  | .attr _ _ :: events | .text _ :: events | .comment _ :: events => openAfter n events

/-- Every element that is started is ended, and no other. -/
def Balanced (events : List Event) : Prop := openAfter 0 events = some 0

instance (events : List Event) : Decidable (Balanced events) :=
  inferInstanceAs (Decidable (openAfter 0 events = some 0))

theorem openAfter_append (n : Nat) (as bs : List Event) :
    openAfter n (as ++ bs) = (openAfter n as).bind fun m => openAfter m bs := by
  fun_induction openAfter n as with
  | case1 n => rfl
  | case2 n name as ih => exact ih
  | case3 as => rfl
  | case4 n as ih => exact ih
  | case5 n name value as ih => exact ih
  | case6 n content as ih => exact ih
  | case7 n content as ih => exact ih

/-- Elements that are open around events do not matter to them. -/
theorem openAfter_add {n m : Nat} {events : List Event} (k : Nat)
    (h : openAfter n events = some m) : openAfter (n + k) events = some (m + k) := by
  fun_induction openAfter n events with
  | case1 n => rw [Option.some.inj h]; rfl
  | case2 n name events ih =>
      rw [openAfter, Nat.add_right_comm]
      exact ih h
  | case3 events => cases h
  | case4 events n ih =>
      rw [Nat.succ_add, openAfter]
      exact ih h
  | case5 n name value events ih | case6 n content events ih | case7 n content events ih =>
      rw [openAfter]
      exact ih h

theorem Balanced.openAfter_eq {events : List Event} (h : Balanced events) (n : Nat) :
    openAfter n events = some n := by
  have := openAfter_add n h
  rwa [Nat.zero_add] at this

theorem balanced_nil : Balanced [] := rfl

theorem balanced_attr (name value : String) : Balanced [.attr name value] := rfl

theorem balanced_text (content : String) : Balanced [.text content] := rfl

theorem balanced_comment (content : String) : Balanced [.comment content] := rfl

theorem Balanced.append {as bs : List Event} (ha : Balanced as) (hb : Balanced bs) :
    Balanced (as ++ bs) := by
  rw [Balanced, openAfter_append, ha]
  exact hb

/-- Events that are balanced make up the inside of an element. -/
theorem Balanced.element {events : List Event} (h : Balanced events) (name : String) :
    Balanced (.start name :: (events ++ [.stop])) := by
  rw [Balanced, openAfter, openAfter_append, h.openAfter_eq]
  rfl

theorem balanced_flatMap {α : Type} {f : α → List Event} {as : List α}
    (h : ∀ a ∈ as, Balanced (f a)) : Balanced (as.flatMap f) := by
  induction as with
  | nil => exact balanced_nil
  | cons a as ih =>
      rw [List.flatMap_cons]
      exact (h a List.mem_cons_self).append (ih fun b hb => h b (List.mem_cons_of_mem _ hb))

/-! ## Attributes in their place -/

/-- Whether every attribute stands right after the start of an element or another attribute, where
`inTag` tells whether one of these stands before the events. -/
def placedAfter (inTag : Bool) : List Event → Bool
  | [] => true
  | .start _ :: events => placedAfter true events
  | .attr _ _ :: events => inTag && placedAfter true events
  | .text _ :: events | .comment _ :: events | .stop :: events => placedAfter false events

/-- Every attribute stands right after the start of an element or another attribute. -/
def AttributesPlaced (events : List Event) : Prop := placedAfter false events = true

instance (events : List Event) : Decidable (AttributesPlaced events) :=
  inferInstanceAs (Decidable (placedAfter false events = true))

/-- Whether an attribute may follow events, where `inTag` tells whether it may without them. -/
def inTagAfter (inTag : Bool) : List Event → Bool
  | [] => inTag
  | .start _ :: events | .attr _ _ :: events => inTagAfter true events
  | .text _ :: events | .comment _ :: events | .stop :: events => inTagAfter false events

theorem placedAfter_append (inTag : Bool) (as bs : List Event) :
    placedAfter inTag (as ++ bs) =
      (placedAfter inTag as && placedAfter (inTagAfter inTag as) bs) := by
  fun_induction inTagAfter inTag as with
  | case1 inTag => rfl
  | case2 inTag name as ih | case4 inTag content as ih | case5 inTag content as ih
  | case6 inTag as ih => exact ih
  | case3 inTag name value as ih =>
      rw [List.cons_append, placedAfter, placedAfter, ih, Bool.and_assoc]

theorem inTagAfter_append (inTag : Bool) (as bs : List Event) :
    inTagAfter inTag (as ++ bs) = inTagAfter (inTagAfter inTag as) bs := by
  fun_induction inTagAfter inTag as with
  | case1 inTag => rfl
  | case2 inTag name as ih | case3 inTag name value as ih | case4 inTag content as ih
  | case5 inTag content as ih | case6 inTag as ih => exact ih

/-! ## What is kept of events -/

theorem inTagAfter_reverse (kept : List Event) :
    inTagAfter false kept.reverse = takesAttribute kept := by
  cases kept with
  | nil => rfl
  | cons event events =>
      rw [List.reverse_cons, inTagAfter_append]
      cases event <;> rfl

/-- What is kept with one more event nests as if the event had just been put behind it. -/
theorem openAfter_keep (n : Nat) (kept : List Event) (event : Event) :
    openAfter n (keep kept event).reverse = openAfter n (kept.reverse ++ [event]) := by
  have htext (content : String) (events : List Event) :
      openAfter n (events.reverse ++ [.text content]) = openAfter n events.reverse := by
    rw [openAfter_append]
    exact Option.bind_fun_some _
  cases event with
  | start name | comment content | stop => simp only [keep, List.reverse_cons]
  | attr name value =>
      simp only [keep]
      split
      · rw [List.reverse_cons]
      · rw [openAfter_append]
        exact (Option.bind_fun_some _).symm
  | text content =>
      rw [htext]
      simp only [keep]
      split
      · rfl
      · unfold keepText
        split
        · rw [List.reverse_cons, List.reverse_cons, htext, htext]
        · rw [List.reverse_cons, htext]

/-- Nothing that is reported puts an attribute out of place. -/
theorem attributesPlaced_keep {kept : List Event} (event : Event)
    (h : AttributesPlaced kept.reverse) : AttributesPlaced (keep kept event).reverse := by
  have hsnoc (events : List Event) (e : Event) : AttributesPlaced (e :: events).reverse ↔
      AttributesPlaced events.reverse ∧ placedAfter (takesAttribute events) [e] = true := by
    rw [AttributesPlaced, List.reverse_cons, placedAfter_append, inTagAfter_reverse,
      Bool.and_eq_true]
    rfl
  cases event with
  | start name | comment content | stop => exact (hsnoc kept _).2 ⟨h, rfl⟩
  | attr name value =>
      simp only [keep]
      split
      · next htakes => exact (hsnoc kept _).2 ⟨h, by rw [htakes]; rfl⟩
      · exact h
  | text content =>
      simp only [keep]
      split
      · exact h
      · unfold keepText
        split
        · next before events => exact (hsnoc events _).2 ⟨((hsnoc events _).1 h).1, rfl⟩
        · exact (hsnoc kept _).2 ⟨h, rfl⟩

/-- What is kept of events nests as the events do. -/
theorem openAfter_kept (n : Nat) (events : List Event) :
    openAfter n (kept events) = openAfter n events := by
  have hfold (before : List Event) :
      openAfter n (events.foldl keep before).reverse = openAfter n (before.reverse ++ events) := by
    induction events generalizing before with
    | nil => rw [List.append_nil]; rfl
    | cons event events ih =>
        rw [List.foldl_cons, ih, openAfter_append, openAfter_keep, ← openAfter_append,
          List.append_assoc]
        rfl
  exact hfold []

theorem balanced_kept {events : List Event} (h : Balanced events) : Balanced (kept events) := by
  rw [Balanced, openAfter_kept]
  exact h

/-- Whatever is reported, what is kept of it has its attributes in place. -/
theorem attributesPlaced_kept (events : List Event) : AttributesPlaced (kept events) := by
  have hfold (before : List Event) (h : AttributesPlaced before.reverse) :
      AttributesPlaced (events.foldl keep before).reverse := by
    induction events generalizing before with
    | nil => exact h
    | cons event events ih => exact ih _ (attributesPlaced_keep event h)
  exact hfold [] rfl

end Event

/-! ## Copies of nodes -/

theorem Attribute.balanced_events (attrs : List Attribute) :
    Event.Balanced (attrs.map Attribute.event) := by
  induction attrs with
  | nil => exact Event.balanced_nil
  | cons attr attrs ih => exact (Event.balanced_attr attr.name.text attr.value).append ih

mutual

theorem Tree.balanced_events : (tree : Tree) → Event.Balanced tree.events
  | .element name attributes children => by
      rw [Tree.events, ← List.append_assoc]
      exact ((Attribute.balanced_events attributes).append
        (Tree.balanced_forestEvents children)).element name.text
  | .text content => by
      rw [Tree.events]
      exact Event.balanced_text content
  | .comment content => by
      rw [Tree.events]
      exact Event.balanced_comment content
  | .instruction target content => by
      rw [Tree.events]
      exact Event.balanced_nil

theorem Tree.balanced_forestEvents :
    (trees : List Tree) → Event.Balanced (Tree.forestEvents trees)
  | [] => by
      rw [Tree.forestEvents]
      exact Event.balanced_nil
  | tree :: trees => by
      rw [Tree.forestEvents]
      exact (Tree.balanced_events tree).append (Tree.balanced_forestEvents trees)

end

theorem Node.balanced_events (node : Node) : Event.Balanced node.events := by
  cases node with
  | root document => exact Tree.balanced_forestEvents document.children
  | child parent index order tree => exact Tree.balanced_events tree
  | attr parent index content =>
      exact Event.balanced_attr content.name.text content.value

/-! ## Results that can be written -/

namespace Written

/-- Markup can be written for events that end what is open around them, where an attribute only
follows a start tag that is still held back. -/
theorem markupFrom_eq_ok (tag : Option (String × List (String × String))) (above : List String)
    {events : List Event}
    (hopen : Event.openAfter (enclosing tag above).length events = some 0)
    (hplaced : Event.placedAfter tag.isSome events = true) :
    ∃ markup, markupFrom tag above events = .ok markup := by
  induction events generalizing tag above with
  | nil =>
      have hnone : enclosing tag above = [] := List.length_eq_zero_iff.1 (Option.some.inj hopen)
      exact ⟨[], by rw [markupFrom, hnone]⟩
  | cons event events ih =>
      cases event with
      | start name =>
          obtain ⟨rest, hrest⟩ :=
            ih (some (name, [])) (enclosing tag above) hopen hplaced
          exact ⟨_, by rw [markupFrom, hrest]; rfl⟩
      | attr name value =>
          cases tag with
          | none => cases hplaced
          | some held =>
              obtain ⟨rest, hrest⟩ :=
                ih (some (held.1, setAttribute name value held.2)) above hopen hplaced
              exact ⟨rest, by rw [markupFrom, hrest]⟩
      | text content =>
          obtain ⟨rest, hrest⟩ := ih none (enclosing tag above) hopen hplaced
          exact ⟨_, by rw [markupFrom, hrest]; rfl⟩
      | comment content =>
          obtain ⟨rest, hrest⟩ := ih none (enclosing tag above) hopen hplaced
          exact ⟨_, by rw [markupFrom, hrest]; rfl⟩
      | stop =>
          cases tag with
          | some held =>
              obtain ⟨rest, hrest⟩ := ih none above hopen hplaced
              exact ⟨_, by rw [markupFrom, hrest]; rfl⟩
          | none =>
              cases above with
              | nil => cases hopen
              | cons name above =>
                  obtain ⟨rest, hrest⟩ := ih none above hopen hplaced
                  exact ⟨_, by rw [markupFrom, hrest]; rfl⟩

/-- A result that nests and has its attributes in place can be written in every form. -/
theorem result_eq_ok {events : List Event} (hbalanced : Event.Balanced events)
    (hplaced : Event.AttributesPlaced events) (form : OutputForm) :
    ∃ text, result form events = .ok text := by
  obtain ⟨cs, hcs⟩ := markupFrom_eq_ok none [] hbalanced hplaced
  unfold result markup
  rw [hcs]
  cases form.method with
  | text | html | xml => exact ⟨_, rfl⟩

end Written

end Restyle
