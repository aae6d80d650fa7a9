import Mathlib
import Restyle.Proofs.Result.Nesting

/-!
# Restyle.Proofs.Result.Collecting

What is kept of events, whatever is reported and in whatever order.

What is kept after one more event is known from what was kept before it, so all that is said here is
said of one step and then of whole runs of events.  The kept events are tidy; an attribute is kept
just where a start tag is still open among the reported events; and the text in the kept events is the
text that was reported.

* `Event.kept_append_singleton` — one step;
* `Event.takesAttribute_iff` — where a start tag is open, by what was reported;
* `Event.textOf_kept` — no text is lost and none is added;
* `Event.kept_tidy` — the main result.
-/

namespace Restyle

namespace Event

/-! ## Step by step -/

/-- What is kept with one more event depends on what was kept before it. -/
theorem kept_append_singleton (events : List Event) (event : Event) :
    kept (events ++ [event]) = (keep (kept events).reverse event).reverse := by
  simp [kept, List.foldl_append]

/-- What is true of nothing kept, and stays true whatever is reported next, is true of all that is
ever kept, last first. -/
theorem kept_induction {P : List Event → Prop} (nil : P [])
    (keep : ∀ kept event, P kept → P (keep kept event)) (events : List Event) :
    P (kept events).reverse := by
  induction events using List.reverseRecOn with
  | nil => exact nil
  | append_singleton events event ih =>
      rw [kept_append_singleton, List.reverse_reverse]
      exact keep _ event ih

/-! ## Texts -/

/-- Whether an event is text. -/
def isText : Event → Bool
  | .text _ => true
  | _ => false

/-- Among events, last first, there is no empty text, and no text right after another one. -/
structure TidyTexts (kept : List Event) : Prop where
  ne_empty : ∀ content, .text content ∈ kept → content ≠ ""
  apart : kept.IsChain fun later earlier => ¬(later.isText = true ∧ earlier.isText = true)

theorem TidyTexts.cons {kept : List Event} (h : TidyTexts kept) {event : Event}
    (hevent : event.isText = false) : TidyTexts (event :: kept) where
  ne_empty content hmem := by
    obtain rfl | hmem := List.mem_cons.1 hmem
    · cases hevent
    · exact h.ne_empty content hmem
  apart := by
    cases kept with
    | nil => exact .singleton event
    | cons last others => exact .cons_cons (by simp [hevent]) h.apart

/-- Text goes on in the text right before it, if there is any. -/
theorem TidyTexts.keepText {kept : List Event} (h : TidyTexts kept) {content : String}
    (hcontent : content ≠ "") : TidyTexts (keepText content kept) := by
  unfold Event.keepText
  split
  · next before others =>
    refine ⟨fun joined hmem => ?_, ?_⟩
    · obtain hjoined | hmem := List.mem_cons.1 hmem
      · rw [Event.text.inj hjoined]
        simp [String.append_eq_empty_iff, hcontent]
      · exact h.ne_empty joined (List.mem_cons_of_mem _ hmem)
    · cases others with
      | nil => exact .singleton _
      | cons last others =>
          obtain ⟨hapart, hothers⟩ := List.isChain_cons_cons.1 h.apart
          exact .cons_cons hapart hothers
  · next hlast =>
    refine ⟨fun kept' hmem => ?_, ?_⟩
    · obtain hkept | hmem := List.mem_cons.1 hmem
      · rwa [Event.text.inj hkept]
      · exact h.ne_empty kept' hmem
    · cases kept with
      | nil => exact .singleton _
      | cons last others =>
          refine .cons_cons ?_ h.apart
          cases last with
          | text before => exact absurd rfl (hlast before others)
          | _ => simp [isText]

theorem TidyTexts.keep {kept : List Event} (h : TidyTexts kept) (event : Event) :
    TidyTexts (keep kept event) := by
  cases event with
  | start name | comment content | stop => exact h.cons rfl
  | attr name value =>
      rw [Event.keep]
      split
      · exact h.cons rfl
      · exact h
  | text content =>
      rw [Event.keep]
      split
      · exact h
      · next hcontent => exact h.keepText (by simpa using hcontent)

theorem tidyTexts_kept (events : List Event) : TidyTexts (kept events).reverse :=
  kept_induction ⟨by simp, .nil⟩ (fun _ event h => h.keep event) events

/-! ## Attributes -/

/-- Whether a start tag that is open stays so when an event is reported. -/
def leavesTag : Event → Bool
  | .attr .. => true
  | .text content => content.isEmpty
  | _ => false

/-- Among the events reported there is a start of an element, and only attributes and empty texts were
reported after it. -/
def TagOpen (events : List Event) : Prop :=
  ∃ before name after, events = before ++ .start name :: after ∧
    ∀ event ∈ after, event.leavesTag = true

theorem tagOpen_append_singleton {events : List Event} {event : Event} :
    TagOpen (events ++ [event]) ↔
      (∃ name, event = .start name) ∨ (TagOpen events ∧ event.leavesTag = true) := by
  constructor
  · rintro ⟨before, name, after, hevents, hafter⟩
    induction after using List.reverseRecOn with
    | nil =>
        obtain ⟨-, hevent⟩ := List.append_inj' hevents rfl
        exact .inl ⟨name, List.singleton_inj.1 hevent⟩
    | append_singleton after last _ =>
        rw [← List.cons_append, ← List.append_assoc] at hevents
        obtain ⟨rfl, hevent⟩ := List.append_inj' hevents rfl
        obtain rfl := List.singleton_inj.1 hevent
        rw [List.forall_mem_append] at hafter
        exact .inr ⟨⟨before, name, after, rfl, hafter.1⟩, hafter.2 event List.mem_cons_self⟩
  · rintro (⟨name, rfl⟩ | ⟨⟨before, name, after, rfl, hafter⟩, hevent⟩)
    · exact ⟨events, name, [], rfl, List.forall_mem_nil _⟩
    · refine ⟨before, name, after ++ [event], by simp, ?_⟩
      rw [List.forall_mem_append]
      exact ⟨hafter, by simpa using hevent⟩

theorem takesAttribute_keepText (content : String) (kept : List Event) :
    takesAttribute (keepText content kept) = false := by
  unfold keepText
  split <;> rfl

/-- An attribute may follow what is kept just where a start tag is open. -/
theorem takesAttribute_iff (events : List Event) :
    takesAttribute (kept events).reverse = true ↔ TagOpen events := by
  induction events using List.reverseRecOn with
  | nil =>
      refine ⟨nofun, ?_⟩
      rintro ⟨before, name, after, hevents, -⟩
      simp at hevents
  | append_singleton events event ih =>
      rw [kept_append_singleton, List.reverse_reverse, tagOpen_append_singleton, ← ih]
      cases event with
      | start name => simp [keep, takesAttribute]
      | attr name value =>
          have hsame : takesAttribute (keep (kept events).reverse (.attr name value)) =
              takesAttribute (kept events).reverse := by
            rw [keep]
            split
            · next htakes => rw [htakes]; rfl
            · rfl
          simp [hsame, leavesTag]
      | text content =>
          by_cases hcontent : content.isEmpty = true
          · simp [keep, hcontent, leavesTag]
          · simp [keep, hcontent, leavesTag, takesAttribute_keepText]
      | comment content | stop => simp [keep, takesAttribute, leavesTag]

/-- An attribute that is kept stands right after the start of an element or another attribute. -/
theorem takesAttribute_of_kept {events before after : List Event} {name value : String}
    (h : kept events = before ++ .attr name value :: after) :
    takesAttribute before.reverse = true := by
  have hplaced := attributesPlaced_kept events
  rw [AttributesPlaced, h, placedAfter_append, Bool.and_eq_true, placedAfter, Bool.and_eq_true]
    at hplaced
  rw [← inTagAfter_reverse, List.reverse_reverse]
  exact hplaced.2.1

/-! ## The text in events -/

/-- Text gathered so far, with that of one more event. -/
def gather (gathered : String) : Event → String
  | .text content => gathered ++ content
  | _ => gathered

theorem textOf_append_singleton (events : List Event) (event : Event) :
    textOf (events ++ [event]) = gather (textOf events) event := by
  cases event <;> simp [textOf, gather, chars]

/-- The text in events is what their texts make one after another. -/
theorem textOf_eq_foldl (events : List Event) : textOf events = events.foldl gather "" := by
  induction events using List.reverseRecOn with
  | nil => rfl
  | append_singleton events event ih =>
      rw [textOf_append_singleton, ih, List.foldl_append, List.foldl_cons, List.foldl_nil]

theorem textOf_reverse_keep (kept : List Event) (event : Event) :
    textOf (keep kept event).reverse = gather (textOf kept.reverse) event := by
  cases event with
  | start name | comment content | stop =>
      change textOf (_ :: kept).reverse = _
      rw [List.reverse_cons, textOf_append_singleton]
  | attr name value =>
      rw [keep]
      split
      · rw [List.reverse_cons, textOf_append_singleton]
      · rfl
  | text content =>
      rw [keep]
      split
      · next hcontent =>
        obtain rfl : content = "" := by simpa using hcontent
        simp [gather]
      · unfold keepText
        split
        · simp only [List.reverse_cons, textOf_append_singleton, gather, String.append_assoc]
        · rw [List.reverse_cons, textOf_append_singleton]

/-- The text in what is kept is the text that was reported. -/
theorem textOf_kept (events : List Event) : textOf (kept events) = textOf events := by
  induction events using List.reverseRecOn with
  | nil => rfl
  | append_singleton events event ih =>
      rw [kept_append_singleton, textOf_reverse_keep, List.reverse_reverse, ih,
        textOf_append_singleton]

/-! ## The main result -/

/-- **What is kept is tidy.**  Whatever is reported, in whatever order: no empty text is kept and no two
texts in a row, and every attribute that is kept stands right after the start of an element or another
attribute.  An attribute that is reported is kept, behind all that was kept before it, exactly if an
element has been started and only attributes and empty texts were reported since the last start; else
nothing changes.  A result written as plain text is what the reported texts make one after another. -/
theorem kept_tidy (events : List Event) :
    (∀ content, .text content ∈ kept events → content ≠ "") ∧
    (∀ before first second after,
      kept events ≠ before ++ .text first :: .text second :: after) ∧
    (∀ before name value after, kept events = before ++ .attr name value :: after →
      ∃ others last, before = others ++ [last] ∧
        ((∃ element, last = .start element) ∨ ∃ name' value', last = .attr name' value')) ∧
    (∀ name value,
      (TagOpen events → kept (events ++ [.attr name value]) = kept events ++ [.attr name value]) ∧
      (¬TagOpen events → kept (events ++ [.attr name value]) = kept events)) ∧
    (∀ declaration, Written.result ⟨.text, declaration⟩ (kept events) = .ok (textOf events)) ∧
    textOf events = events.foldl gather "" := by
  have htexts := tidyTexts_kept events
  refine ⟨fun content hmem => htexts.ne_empty content (List.mem_reverse.2 hmem),
    fun before first second after hkept => ?_, fun before name value after hkept => ?_,
    fun name value => ?_, fun declaration => ?_, textOf_eq_foldl events⟩
  · have hchain := List.isChain_reverse.1 htexts.apart
    rw [hkept] at hchain
    exact (List.isChain_cons_cons.1 hchain.right_of_append).1 ⟨rfl, rfl⟩
  · have htakes := takesAttribute_of_kept hkept
    obtain ⟨others, last, rfl⟩ : ∃ others last, before = others ++ [last] := by
      refine (List.eq_nil_or_concat' before).resolve_left ?_
      rintro rfl
      cases htakes
    refine ⟨others, last, rfl, ?_⟩
    rw [List.reverse_append] at htakes
    cases last with
    | start element => exact .inl ⟨element, rfl⟩
    | attr name' value' => exact .inr ⟨name', value', rfl⟩
    | _ => cases htakes
  · rw [← takesAttribute_iff, kept_append_singleton, keep]
    constructor
    · intro htakes
      rw [if_pos htakes, List.reverse_cons, List.reverse_reverse]
    · intro htakes
      rw [if_neg htakes, List.reverse_reverse]
  · rw [← textOf_kept]
    rfl

/-- An attribute after an empty text belongs to the tag, and one between two texts does not, which
then are one. -/
example : kept [.start "p", .text "", .attr "a" "1", .text "x", .attr "b" "2", .text "y", .stop] =
    [.start "p", .attr "a" "1", .text "xy", .stop] := by decide

end Event

end Restyle
