import Mathlib
import Restyle.Proofs.Stylesheet.Places
import Restyle.Proofs.Stylesheet.Texts
import Restyle.Proofs.Stylesheet.WellFormed

/-!
# Restyle.Proofs.Stylesheet.Ignored

Elements that mean nothing to a stylesheet.

An element at the top of a stylesheet that is none of its language is passed over with all that is in
it.  While it is read, nothing changes but how many elements are open that mean nothing, and at its
end everything is as it was before.  So a stylesheet is the same with such an element and without it.

* `Assembly.ignoring` — an assembly in which elements are open that mean nothing;
* `Assembly.foldlM_ignoring` — what is met inside such an element, by induction on what is met;
* `Assembly.foldlM_foreign` — a whole element at the top;
* `Stylesheet.ofEvents_insertTop` — a stylesheet with one more element at the top;
* `Stylesheet.foreign_ignored` — the main result.
-/

namespace Restyle

open Markup (Item Tag Place)

namespace StyleEvent

/-! ## Whole elements -/

mutual

theorem openAfter_ofItem (excluded : List String) (outer : List Markup.Namespace) (n : Nat) :
    (item : Item) → openAfter n (ofItem excluded outer item) = some n
  | .element tag children => by
      rw [ofItem, openAfter, openAfter_append, openAfter_ofItems excluded _ (n + 1) children]
      rfl
  | .text .. | .comment _ | .instruction .. => rfl

/-- All elements that are opened in parts of a stylesheet are closed there. -/
theorem openAfter_ofItems (excluded : List String) (outer : List Markup.Namespace) (n : Nat) :
    (items : List Item) → openAfter n (ofItems excluded outer items) = some n
  | [] => rfl
  | item :: items => by
      rw [ofItems, openAfter_append, openAfter_ofItem excluded outer n item]
      exact openAfter_ofItems excluded outer n items

end

end StyleEvent

namespace Assembly

open StyleEvent (openAfter)

variable {a : Assembly}

/-! ## Inside an element that means nothing -/

/-- An assembly in which elements are open at these places that mean nothing, innermost first, and
nothing has come of what is in them. -/
def ignoring (a : Assembly) (places : List Place) : Assembly :=
  { a with
    opened := places.map (fun place => ⟨.ignored, place⟩) ++ a.opened
    bodies := places.map (fun _ => []) ++ a.bodies }

/-- A step where at least one element is open that means nothing. -/
theorem meet_ignoring (outermost : Place) {places : List Place} {event : StyleEvent} {m : Nat}
    (h : openAfter places.length [event] = some m) :
    ∃ places', places'.length = m ∧ (a.ignoring (places ++ [outermost])).meet event =
      .ok (a.ignoring (places' ++ [outermost])) := by
  have hparent : (a.ignoring (places ++ [outermost])).parent = .ignored := by
    cases places <;> rfl
  cases event with
  | start tag =>
    refine ⟨tag.place :: places, Option.some.inj h, ?_⟩
    change start _ tag = _
    unfold start
    rw [hparent]
    rfl
  | text content place =>
    refine ⟨places, Option.some.inj h, ?_⟩
    change text _ content place = _
    unfold text
    rw [hparent]
  | stop =>
    cases places with
    | nil => cases h
    | cons place places => exact ⟨places, Option.some.inj h, rfl⟩

/-- What is met in an element that means nothing only opens and closes more elements that mean
nothing. -/
theorem foldlM_ignoring (outermost : Place) {places : List Place} {events : List StyleEvent} {m : Nat}
    (h : openAfter places.length events = some m) :
    ∃ places', places'.length = m ∧ events.foldlM meet (a.ignoring (places ++ [outermost])) =
      .ok (a.ignoring (places' ++ [outermost])) := by
  induction events generalizing places with
  | nil => exact ⟨places, Option.some.inj h, rfl⟩
  | cons event events ih =>
    rw [← List.singleton_append, StyleEvent.openAfter_append] at h
    obtain ⟨k, hevent, hevents⟩ := Option.bind_eq_some_iff.1 h
    obtain ⟨next, rfl, hmeet⟩ := meet_ignoring (a := a) outermost hevent
    rw [List.foldlM_cons, hmeet]
    exact ih hevents

/-! ## An element at the top -/

section Foreign

variable {foreign : Tag} (hforeign : StyleEvent.isLanguage foreign = false) (content : List Item)
  (excluded : List String) (outer : List Markup.Namespace) (ha : a.parent = .stylesheet)

include hforeign ha

theorem start_foreign : a.start (StyleEvent.styleTag excluded outer foreign) =
    .ok (a.ignoring [foreign.place]) := by
  have htag : (StyleEvent.styleTag excluded outer foreign).place = foreign.place ∧
      ∃ name, (StyleEvent.styleTag excluded outer foreign).name = .literal name := by
    simp [StyleEvent.styleTag, hforeign]
  obtain ⟨hplace, name, hname⟩ := htag
  unfold start
  rw [ha, hname, hplace]
  rfl

/-- Up to its end, nothing changes but how many elements are open that mean nothing. -/
theorem foldlM_foreign_inside {inside : List StyleEvent} {n : Nat} (h : openAfter 0 inside = some n) :
    ∃ places, places.length = n ∧
      (.start (StyleEvent.styleTag excluded outer foreign) :: inside).foldlM meet a =
        .ok (a.ignoring (places ++ [foreign.place])) := by
  have hopened : openAfter ([] : List Place).length inside = some n := h
  obtain ⟨places, hplaces, hmet⟩ := foldlM_ignoring (a := a) foreign.place hopened
  refine ⟨places, hplaces, ?_⟩
  rw [List.foldlM_cons, meet, start_foreign hforeign excluded outer ha]
  exact hmet

/-- A whole element that is none of the language changes nothing. -/
theorem foldlM_foreign :
    (StyleEvent.ofItem excluded outer (.element foreign content)).foldlM meet a = .ok a := by
  have hinside := StyleEvent.openAfter_ofItems excluded
    (if StyleEvent.isLanguage foreign then [] else foreign.scope) 0 content
  obtain ⟨places, hplaces, hmet⟩ := foldlM_foreign_inside hforeign excluded outer ha hinside
  obtain rfl := List.length_eq_zero_iff.1 hplaces
  rw [StyleEvent.ofItem, ← List.cons_append, List.foldlM_append, hmet]
  rfl

/-- While it is read, nothing changes but how many elements are open that mean nothing. -/
theorem foldlM_foreign_prefix {before : List StyleEvent}
    (hbefore : before <+: StyleEvent.ofItem excluded outer (.element foreign content)) :
    ∃ places, before.foldlM meet a = .ok (a.ignoring places) := by
  have hwhole := foldlM_foreign hforeign content excluded outer ha
  rw [StyleEvent.ofItem] at hbefore hwhole
  cases before with
  | nil => exact ⟨[], rfl⟩
  | cons event before =>
    obtain ⟨rfl, hrest⟩ := List.cons_prefix_cons.1 hbefore
    obtain rfl | ⟨after, hafter⟩ := List.prefix_concat_iff.1 hrest
    · exact ⟨[], hwhole⟩
    · have hinside := StyleEvent.openAfter_ofItems excluded
        (if StyleEvent.isLanguage foreign then [] else foreign.scope) 0 content
      rw [← hafter, StyleEvent.openAfter_append] at hinside
      obtain ⟨n, hn, -⟩ := Option.bind_eq_some_iff.1 hinside
      obtain ⟨places, -, hmet⟩ := foldlM_foreign_inside hforeign excluded outer ha hn
      exact ⟨_, hmet⟩

end Foreign

end Assembly

/-! ## Stylesheets -/

/-- Put a part among the children of the document element. -/
def Markup.insertTop (index : Nat) (new : Item) : List Item → List Item
  | [] => []
  | .element tag children :: items => .element tag (children.insertIdx index new) :: items
  | item :: items => item :: insertTop index new items

namespace Stylesheet

variable {foreign : Tag} (hforeign : StyleEvent.isLanguage foreign = false) (content : List Item)

include hforeign

/-- In a stylesheet that is open, one more element among others changes nothing. -/
theorem foldlM_insertIdx (a : Assembly) (place : Place) (excluded : List String)
    (outer : List Markup.Namespace) (index : Nat) (children : List Item) :
    (StyleEvent.ofItems excluded outer
        (children.insertIdx index (.element foreign content))).foldlM Assembly.meet
          (a.within .stylesheet place []) =
      (StyleEvent.ofItems excluded outer children).foldlM Assembly.meet
        (a.within .stylesheet place []) := by
  have hfront (a : Assembly) (children : List Item) :
      (StyleEvent.ofItems excluded outer (.element foreign content :: children)).foldlM
          Assembly.meet (a.within .stylesheet place []) =
        (StyleEvent.ofItems excluded outer children).foldlM Assembly.meet
          (a.within .stylesheet place []) := by
    rw [StyleEvent.ofItems, List.foldlM_append,
      Assembly.foldlM_foreign hforeign content excluded outer rfl]
    rfl
  induction children generalizing a index with
  | nil =>
    cases index with
    | zero => exact hfront a []
    | succ index => rfl
  | cons child children ih =>
    cases index with
    | zero => exact hfront a (child :: children)
    | succ index =>
      rw [List.insertIdx_succ_cons, StyleEvent.ofItems, StyleEvent.ofItems, List.foldlM_append,
        List.foldlM_append]
      cases hmet : (StyleEvent.ofItem excluded outer child).foldlM Assembly.meet
          (a.within .stylesheet place []) with
      | error => rfl
      | ok a' =>
        obtain ⟨a'', rfl, -⟩ := Assembly.collects_ofItem excluded outer child hmet
        exact ih a'' index

/-- A stylesheet is put together with one more element at its top just as without it. -/
theorem ofEvents_insertTop (index : Nat) (items : List Item) :
    ofEvents (StyleEvent.ofDocument (Markup.insertTop index (.element foreign content) items)) =
      ofEvents (StyleEvent.ofDocument items) := by
  induction items with
  | nil => rfl
  | cons item items ih =>
    cases item with
    | text | comment | instruction => exact ih
    | element tag children =>
      rw [Markup.insertTop, StyleEvent.ofDocument, StyleEvent.ofDocument, StyleEvent.ofItem,
        StyleEvent.ofItem, ofEvents, ofEvents, List.foldlM_cons, List.foldlM_cons]
      cases hstart : Assembly.empty.meet (.start (StyleEvent.styleTag
          (StyleEvent.excludedBy tag) [] tag)) with
      | error => rfl
      | ok opened =>
        obtain ⟨place, rfl⟩ := Assembly.exists_of_start_empty hstart
        have hinserted := foldlM_insertIdx hforeign content .empty place (StyleEvent.excludedBy tag)
          (if StyleEvent.isLanguage tag then [] else tag.scope) index children
        change List.foldlM _ _ (_ ++ _) >>= _ = List.foldlM _ _ (_ ++ _) >>= _
        rw [List.foldlM_append, List.foldlM_append, hinserted]

omit hforeign

/-- **Ignored elements leave no trace.**  Take an element that is none of the language, with whatever
is in it.  Where it is met at the top of a stylesheet, it changes nothing but how many elements are
open that mean nothing, and at its end everything that is open and everything that has been made is
as it was.  And where it is put among the children of the document element, wherever what comes
behind it has moved to, a stylesheet is made just if it is made without the element, and the same
one. -/
theorem foreign_ignored {foreign : Tag} (hforeign : StyleEvent.isLanguage foreign = false)
    (content : List Item) :
    (∀ (a : Assembly) (excluded : List String) (outer : List Markup.Namespace),
      a.parent = .stylesheet →
        (∀ before, before <+: StyleEvent.ofItem excluded outer (.element foreign content) →
          ∃ places, before.foldlM Assembly.meet a = .ok (a.ignoring places)) ∧
        (StyleEvent.ofItem excluded outer (.element foreign content)).foldlM Assembly.meet a =
          .ok a) ∧
    (∀ (index : Nat) (items items' : List Item),
      Markup.unplacedIn items' =
          Markup.unplacedIn (Markup.insertTop index (.element foreign content) items) →
        ∀ sheet, ofEvents (StyleEvent.ofDocument items') = .ok sheet ↔
          ofEvents (StyleEvent.ofDocument items) = .ok sheet) ∧
    ∀ (index : Nat) (text text' : String) (items items' : List Item),
      Markup.read text = some items → Markup.read text' = some items' →
      Markup.unplacedIn items' =
          Markup.unplacedIn (Markup.insertTop index (.element foreign content) items) →
        ∀ sheet, ofText text' = .ok sheet ↔ ofText text = .ok sheet := by
  have hinserted (index : Nat) (items items' : List Item) (h : Markup.unplacedIn items' =
      Markup.unplacedIn (Markup.insertTop index (.element foreign content) items))
      (sheet : Stylesheet) : ofEvents (StyleEvent.ofDocument items') = .ok sheet ↔
        ofEvents (StyleEvent.ofDocument items) = .ok sheet := by
    rw [ofEvents_congr h, ofEvents_insertTop hforeign]
  refine ⟨fun a excluded outer ha => ⟨fun before hbefore => ?_, ?_⟩, hinserted,
    fun index text text' items items' hread hread' h sheet => ?_⟩
  · exact Assembly.foldlM_foreign_prefix hforeign content excluded outer ha hbefore
  · exact Assembly.foldlM_foreign hforeign content excluded outer ha
  · unfold ofText
    rw [StyleEvent.ofText?, StyleEvent.ofText?, hread, hread']
    exact hinserted index items items' h sheet

/-- A template of a name, at a place. -/
def templateAt (name : String) (place : Place) : Item :=
  .element ⟨⟨some languageUri, "template"⟩, [(⟨none, "name"⟩, name)], [], place⟩ []

/-- A stylesheet with a part of its own in front of a template. -/
def documentWith (front : List Item) (place : Place) : List Item :=
  [.element ⟨⟨some languageUri, "stylesheet"⟩, [], [], ⟨1, 1⟩⟩ (front ++ [templateAt "main" place])]

/-- An element of no language, and what is in it: a template of the same name, an element without an
attribute that it must have, and a text. -/
def noteTag : Tag := ⟨⟨none, "note"⟩, [], [], ⟨2, 3⟩⟩
def noteContent : List Item :=
  [templateAt "main" ⟨3, 5⟩, .element ⟨⟨some languageUri, "if"⟩, [], [], ⟨4, 5⟩⟩ [],
    .text "see above" ⟨5, 1⟩]

/-- The template behind the element is the only one, though it stands further down. -/
theorem foreign_ignored_note :
    StyleEvent.isLanguage noteTag = false ∧
      ∃ sheet, ofEvents (StyleEvent.ofDocument (documentWith [] ⟨2, 3⟩)) = .ok sheet ∧
        ofEvents (StyleEvent.ofDocument
          (documentWith [.element noteTag noteContent] ⟨6, 3⟩)) = .ok sheet ∧
        sheet.rules.named.length = 1 := by
  have hforeign : StyleEvent.isLanguage noteTag = false := by decide
  obtain ⟨-, hinserted, -⟩ := foreign_ignored hforeign noteContent
  have hplain : ofEvents (StyleEvent.ofDocument (documentWith [] ⟨2, 3⟩)) =
      .ok ⟨⟨[], [("main", ⟨some "main", none, none, none, [], []⟩)]⟩, [], .standard⟩ := by cbv
  have hmoved : Markup.unplacedIn (documentWith [.element noteTag noteContent] ⟨6, 3⟩) =
      Markup.unplacedIn (Markup.insertTop 0 (.element noteTag noteContent)
        (documentWith [] ⟨2, 3⟩)) := rfl
  exact ⟨hforeign, _, hplain, (hinserted 0 _ _ hmoved _).2 hplain, rfl⟩

end Stylesheet

end Restyle
