import Mathlib
import Restyle.Proofs.Result.Comments
import Restyle.Proofs.Result.Nesting
import Restyle.Result.Decoded

/-!
# Restyle.Proofs.Result.Described

The tree that events describe, and how events that describe one are written.

* `Event.exists_describes` — events that nest and have their attributes in place describe a tree;
* `foldl_setAttribute` — setting attributes in turn merges them;
* `Written.Writes` — events are written as a text in front of the markup for whatever follows; one
  lemma for each way to describe a node.  The start tag of an element is held back until its content
  is known, so an element is written in one way if it is empty and in another if it is not.
-/

namespace Restyle

/-! ## The tree that events describe -/

theorem Describes.of_nil {trees : List ResultTree} (h : Describes [] trees) : trees = [] := by
  cases h
  rfl

namespace Event

/-- Events are made up of parts that describe nodes, with an end between each part and the next, and
as many ends as there are elements open around them.  Attributes stand only in front of the first
part, and only if it follows the start of an element. -/
def InParts (inTag : Bool) (n : Nat) (events : List Event) : Prop :=
  ∃ (attrs : List (String × String)) (first : List Event) (others : List (List Event)),
    events = attrs.map ofAttribute ++ first ++ others.flatMap (.stop :: ·) ∧
    (inTag = false → attrs = []) ∧ others.length = n ∧
    ∀ part ∈ first :: others, ∃ trees, Describes part trees

/-- A text or a comment goes into the first part. -/
theorem InParts.cons {inTag : Bool} {n : Nat} {event : Event} {events : List Event}
    (h : InParts false n events)
    (hevent : ∀ part trees, Describes part trees → ∃ trees', Describes (event :: part) trees') :
    InParts inTag n (event :: events) := by
  obtain ⟨attrs, first, others, rfl, hattrs, hlength, hparts⟩ := h
  obtain rfl := hattrs rfl
  rw [List.forall_mem_cons] at hparts
  obtain ⟨⟨trees, hfirst⟩, hothers⟩ := hparts
  refine ⟨[], event :: first, others, rfl, fun _ => rfl, hlength, ?_⟩
  rw [List.forall_mem_cons]
  exact ⟨hevent first trees hfirst, hothers⟩

/-- Events that end what is open around them, with their attributes in place, are made up of
parts. -/
theorem inParts_of_openAfter {inTag : Bool} {n : Nat} {events : List Event}
    (hopen : openAfter n events = some 0) (hplaced : placedAfter inTag events = true) :
    InParts inTag n events := by
  induction events generalizing inTag n with
  | nil =>
      obtain rfl : n = 0 := Option.some.inj hopen
      exact ⟨[], [], [], rfl, fun _ => rfl, rfl, by simpa using ⟨[], Describes.nil⟩⟩
  | cons event events ih =>
      cases event with
      | start name =>
          -- The first part after the start is inside the element, the second one goes on after it.
          obtain ⟨attrs, first, others, rfl, -, hlength, hparts⟩ := ih hopen hplaced
          obtain ⟨second, others, rfl⟩ := List.exists_cons_of_length_eq_add_one hlength
          simp only [List.mem_cons, forall_eq_or_imp] at hparts
          obtain ⟨⟨children, hfirst⟩, ⟨trees, hsecond⟩, hothers⟩ := hparts
          refine ⟨[], .start name :: (attrs.map ofAttribute ++ first ++ .stop :: second), others,
            by simp, fun _ => rfl, by simpa using hlength, ?_⟩
          simp only [List.mem_cons, forall_eq_or_imp]
          exact ⟨⟨_, .element name attrs hfirst hsecond⟩, hothers⟩
      | attr name value =>
          simp only [placedAfter, Bool.and_eq_true] at hplaced
          obtain ⟨attrs, first, others, rfl, -, hlength, hparts⟩ := ih hopen hplaced.2
          refine ⟨(name, value) :: attrs, first, others, rfl, ?_, hlength, hparts⟩
          simp [hplaced.1]
      | text content => exact (ih hopen hplaced).cons fun _ _ h => ⟨_, .text content h⟩
      | comment content => exact (ih hopen hplaced).cons fun _ _ h => ⟨_, .comment content h⟩
      | stop =>
          cases n with
          | zero => simp [openAfter] at hopen
          | succ n =>
              obtain ⟨attrs, first, others, rfl, hattrs, hlength, hparts⟩ := ih hopen hplaced
              obtain rfl := hattrs rfl
              refine ⟨[], [], first :: others, rfl, fun _ => rfl, by simp [hlength], ?_⟩
              rw [List.forall_mem_cons]
              exact ⟨⟨[], .nil⟩, hparts⟩

/-- Events that nest and have their attributes in place describe a tree. -/
theorem exists_describes {events : List Event} (hbalanced : Balanced events)
    (hplaced : AttributesPlaced events) : ∃ trees, Describes events trees := by
  obtain ⟨attrs, first, others, rfl, hattrs, hlength, hparts⟩ :=
    inParts_of_openAfter hbalanced hplaced
  obtain rfl := hattrs rfl
  obtain rfl := List.length_eq_zero_iff.1 hlength
  simpa using hparts

end Event

/-! ## Attributes -/

theorem setAttribute_map {names : List String} (hnodup : names.Nodup) (valueOf : String → String)
    (name value : String) :
    Written.setAttribute name value (names.map fun other => (other, valueOf other)) =
      (if name ∈ names then names else names ++ [name]).map fun other =>
        (other, if other = name then value else valueOf other) := by
  induction names with
  | nil => simp [Written.setAttribute]
  | cons other names ih =>
      obtain ⟨hother, hnames⟩ := List.nodup_cons.1 hnodup
      simp only [List.map_cons, Written.setAttribute]
      by_cases h : other = name
      · subst h
        have hsame : names.map (fun n => (n, if n = other then value else valueOf n)) =
            names.map fun n => (n, valueOf n) := by
          refine List.map_congr_left fun n hn => ?_
          have : n ≠ other := by
            rintro rfl
            exact hother hn
          simp [this]
        simp [hsame]
      · rw [if_neg h, ih hnames]
        have hmem : name ∈ other :: names ↔ name ∈ names := by simp [Ne.symm h]
        by_cases hname : name ∈ names <;> simp [hname, h, hmem]

theorem eraseDups_append_singleton (names : List String) (name : String) :
    (names ++ [name]).eraseDups =
      if name ∈ names.eraseDups then names.eraseDups else names.eraseDups ++ [name] := by
  rw [List.eraseDups_append]
  by_cases h : name ∈ names <;> simp [List.removeAll, List.eraseDups_cons, h]

theorem nodup_eraseDups (names : List String) : names.eraseDups.Nodup := by
  induction names using List.reverseRecOn with
  | nil => simp
  | append_singleton names name ih =>
      rw [eraseDups_append_singleton]
      split
      · exact ih
      · next h =>
        refine List.nodup_append.2 ⟨ih, by simp, ?_⟩
        rintro other hother _ hname rfl
        obtain rfl := List.mem_singleton.1 hname
        exact h hother

/-- Setting attributes in turn merges them. -/
theorem foldl_setAttribute (attrs : List (String × String)) :
    attrs.foldl (fun set attr => Written.setAttribute attr.1 attr.2 set) [] =
      mergedAttributes attrs := by
  induction attrs using List.reverseRecOn with
  | nil => rfl
  | append_singleton attrs attr ih =>
      rw [List.foldl_append, ih, List.foldl_cons, List.foldl_nil, mergedAttributes, mergedAttributes,
        setAttribute_map (nodup_eraseDups _) fun name => (attrs.reverse.lookup name).getD "",
        List.map_append, List.map_singleton, eraseDups_append_singleton]
      refine List.map_congr_left fun name _ => ?_
      rw [List.reverse_append, List.reverse_singleton, List.singleton_append, List.lookup_cons]
      by_cases h : name = attr.1
      · simp [h]
      · simp [h, beq_false_of_ne h]

/-! ## Held-back tags -/

namespace Written

/-- A tag that was held back through its attributes holds them merged. -/
theorem markupFrom_attributes (name : String) (attrs : List (String × String)) (above : List String)
    (events : List Event) :
    markupFrom (some (name, [])) above (attrs.map Event.ofAttribute ++ events) =
      markupFrom (some (name, mergedAttributes attrs)) above events := by
  have hfold (held : List (String × String)) :
      markupFrom (some (name, held)) above (attrs.map Event.ofAttribute ++ events) =
        markupFrom (some (name, attrs.foldl (fun set attr => setAttribute attr.1 attr.2 set) held))
          above events := by
    induction attrs generalizing held with
    | nil => rfl
    | cons attr attrs ih =>
        rw [List.map_cons, List.cons_append, Event.ofAttribute, markupFrom, ih, List.foldl_cons]
  rw [hfold, foldl_setAttribute]

/-- Content releases the tag that was held back. -/
theorem markupFrom_release {events : List Event} {children : List ResultTree}
    (h : Describes events children) (hne : events ≠ [])
    (tag : String × List (String × String)) (above : List String) (more : List Event) :
    markupFrom (some tag) above (events ++ more) =
      (startTag ['>'] tag ++ ·) <$> markupFrom none (tag.1 :: above) (events ++ more) := by
  cases h with
  | nil => exact absurd rfl hne
  | text content h =>
      simp [markupFrom, release, enclosing, bind_pure_comp, Functor.map_map]
  | comment content h =>
      simp [markupFrom, release, enclosing, bind_pure_comp, Functor.map_map]
  | element name attrs hinside h =>
      simp [markupFrom, release, enclosing, bind_pure_comp]

/-- Events are written as a text, in front of the markup for whatever follows them. -/
def Writes (events : List Event) (text : List Char) : Prop :=
  ∀ (above : List String) (more : List Event),
    markupFrom none above (events ++ more) = (text ++ ·) <$> markupFrom none above more

theorem writes_nil : Writes [] [] := fun above more => (id_map (markupFrom none above more)).symm

theorem Writes.text {events : List Event} {text : List Char} (h : Writes events text)
    (content : String) : Writes (.text content :: events) (escapeText content ++ text) := by
  intro above more
  simp [markupFrom, release, enclosing, bind_pure_comp, Functor.map_map, h above more]

theorem Writes.comment {events : List Event} {text : List Char} (h : Writes events text)
    (content : String) :
    Writes (.comment content :: events)
      ("<!--".toList ++ spaceHyphens content.toList ++ "-->".toList ++ text) := by
  intro above more
  simp [markupFrom, commentText_eq, release, enclosing, bind_pure_comp, Functor.map_map, h above more]

/-- An element without content is written as one tag. -/
theorem Writes.emptyElement {events : List Event} {text : List Char} (h : Writes events text)
    (name : String) (attrs : List (String × String)) :
    Writes (.start name :: (attrs.map Event.ofAttribute ++ .stop :: events))
      (startTag ['/', '>'] (name, mergedAttributes attrs) ++ text) := by
  intro above more
  rw [List.cons_append, List.append_assoc, markupFrom, enclosing, markupFrom_attributes,
    List.cons_append]
  simp [markupFrom, release, bind_pure_comp, Functor.map_map, h above more]

/-- An element with content is written as two tags with the content between them. -/
theorem Writes.element {inside events : List Event} {children : List ResultTree}
    {content text : List Char} (hinside : Describes inside children) (hne : inside ≠ [])
    (hcontent : Writes inside content) (h : Writes events text) (name : String)
    (attrs : List (String × String)) :
    Writes (.start name :: (attrs.map Event.ofAttribute ++ inside ++ .stop :: events))
      (startTag ['>'] (name, mergedAttributes attrs) ++
        (content ++ '<' :: '/' :: name.toList ++ '>' :: text)) := by
  intro above more
  rw [List.cons_append, List.append_assoc, List.append_assoc, markupFrom, enclosing,
    markupFrom_attributes, markupFrom_release hinside hne, hcontent, List.cons_append]
  simp [markupFrom, release, bind_pure_comp, Functor.map_map, h above more]

end Written

end Restyle
