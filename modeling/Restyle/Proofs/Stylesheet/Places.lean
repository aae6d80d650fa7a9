import Restyle.Stylesheet.Assembly

/-!
# Restyle.Proofs.Stylesheet.Places

Places are for messages only.

Tags, texts and open constructs know where they stand in the markup, and a failure says so.  Nothing
else depends on it: when all places are forgotten, each step fails just if it failed before, and
otherwise does what it did.  So stylesheets that differ in nothing but where their parts stand are put
together alike.

* `Agree` — two computations fail together, or succeed together with results that belong together;
* `Assembly.agree_meet` — a step with and without places;
* `Stylesheet.agree_ofEvents` — a run with and without places;
* `Stylesheet.ofEvents_congr` — stylesheets that differ in places only.
-/

namespace Restyle

open Markup (Item Tag Place)

/-! ## Computations that agree -/

section Agree

variable {ε α β γ δ : Type} {R : α → β → Prop} {S : γ → δ → Prop}

/-- Two computations fail together, or succeed together with results that belong together. -/
inductive Agree (R : α → β → Prop) : Except ε α → Except ε β → Prop
  | ok {a : α} {b : β} (h : R a b) : Agree R (.ok a) (.ok b)
  | error {e e' : ε} : Agree R (.error e) (.error e')

theorem Agree.refl (x : Except ε α) : Agree Eq x x := by
  cases x with
  | error => exact .error
  | ok => exact .ok rfl

theorem Agree.bind {x : Except ε α} {y : Except ε β} {f : α → Except ε γ} {g : β → Except ε δ}
    (h : Agree R x y) (hfg : ∀ a b, R a b → Agree S (f a) (g b)) :
    Agree S (x >>= f) (y >>= g) := by
  cases h with
  | ok h => exact hfg _ _ h
  | error => exact .error

/-- After computations with the same result it is enough to go on alike from that. -/
theorem Agree.andThen {x y : Except ε α} {f : α → Except ε γ} {g : α → Except ε δ}
    (h : Agree Eq x y) (hfg : ∀ a, Agree S (f a) (g a)) : Agree S (x >>= f) (y >>= g) :=
  h.bind fun a _ hab => hab ▸ hfg a

theorem Agree.eq_ok_iff {x y : Except ε α} (h : Agree Eq x y) {a : α} : x = .ok a ↔ y = .ok a := by
  cases h with
  | ok h => rw [h]
  | error => exact ⟨nofun, nofun⟩

end Agree

/-! ## Tags -/

namespace StyleTag

/-- A tag of which nobody knows where it stands. -/
def unplaced (tag : StyleTag) : StyleTag := { tag with place := default }

variable (tag : StyleTag)

theorem attr?_unplaced : tag.unplaced.attr? = tag.attr? := rfl

theorem trimmed?_unplaced : tag.unplaced.trimmed? = tag.trimmed? := rfl

theorem agree_required (name element : String) :
    Agree Eq (tag.required name element) (tag.unplaced.required name element) := by
  unfold required
  rw [attr?_unplaced]
  cases tag.attr? name with
  | none => exact .error
  | some => exact .ok rfl

theorem agree_flag (name element : String) :
    Agree Eq (tag.flag name element) (tag.unplaced.flag name element) := by
  unfold flag
  rw [trimmed?_unplaced]
  cases tag.trimmed? name with
  | none => exact .ok rfl
  | some value =>
    by_cases hyes : value = "yes"
    · simpa only [hyes, if_true] using .ok rfl
    · by_cases hno : value = "no"
      · simpa only [hno] using .ok rfl
      · simpa only [hyes, hno, if_false] using .error

theorem agree_requiredExpr (name element : String) :
    Agree Eq (tag.requiredExpr name element) (tag.unplaced.requiredExpr name element) :=
  (tag.agree_required name element).andThen fun source => .refl (styleExpr source)

theorem agree_nameAndSelect (element : String) :
    Agree Eq (tag.nameAndSelect element) (tag.unplaced.nameAndSelect element) :=
  (tag.agree_required "name" element).andThen fun _ => .refl _

theorem agree_priority : Agree Eq tag.priority tag.unplaced.priority := by
  unfold priority
  rw [attr?_unplaced]
  cases tag.attr? "priority" with
  | none => exact .ok rfl
  | some text =>
    by_cases hnan : (readNumber text).isNaN
    · simpa only [hnan, if_true] using .error
    · simpa only [hnan] using .ok rfl

theorem agree_outputForm : Agree Eq tag.outputForm tag.unplaced.outputForm := by
  have hflag := tag.agree_flag "omit-xml-declaration" "xsl:output"
  unfold outputForm
  rw [trimmed?_unplaced]
  dsimp only
  split
  case h_4 => exact .error
  all_goals exact hflag.andThen fun _ => .ok rfl

theorem agree_sortKey : Agree Eq tag.sortKey tag.unplaced.sortKey := by
  unfold sortKey
  rw [trimmed?_unplaced]
  refine Agree.andThen (.refl _) fun select => ?_
  dsimp only
  split
  case h_3 => exact .error
  -- the type is read alike for both orders
  all_goals
    refine Agree.andThen (.refl _) fun order => ?_
    split
    · exact .ok rfl
    · exact .ok rfl
    · exact .error

theorem agree_templateConstruct :
    Agree Eq tag.templateConstruct tag.unplaced.templateConstruct := by
  unfold templateConstruct
  rw [attr?_unplaced]
  dsimp only
  split
  · exact .error
  · split
    · exact .error
    · exact tag.agree_priority.andThen fun _ => .refl _

/-- The same instructions can be opened, and their constructs are read alike. -/
theorem agree_instructionConstruct? (localPart : String) :
    Option.Rel (Agree Eq) (tag.instructionConstruct? localPart)
      (tag.unplaced.instructionConstruct? localPart) := by
  unfold instructionConstruct?
  split
  case h_14 => exact .none
  all_goals refine .some ?_
  · exact .refl _
  · exact (tag.agree_required _ _).andThen fun _ => .refl _
  · exact (tag.agree_requiredExpr _ _).andThen fun _ => .refl _
  · exact (tag.agree_requiredExpr _ _).andThen fun _ => .refl _
  · exact .refl _
  · exact .refl _
  · exact (tag.agree_requiredExpr _ _).andThen fun _ => .refl _
  · exact (tag.agree_requiredExpr _ _).andThen fun _ => .refl _
  · exact .refl _
  · exact (tag.agree_required _ _).andThen fun _ => .refl _
  · exact (tag.agree_required _ _).andThen fun _ => .refl _
  · exact .refl _
  · exact (tag.agree_flag _ _).andThen fun _ => .refl _

theorem literalConstruct_unplaced (name : QName) :
    tag.unplaced.literalConstruct name = tag.literalConstruct name := rfl

end StyleTag

/-! ## Assemblies -/

/-- An open construct of which nobody knows where it was opened. -/
def OpenConstruct.unplaced (element : OpenConstruct) : OpenConstruct :=
  { element with place := default }

namespace Assembly

/-- An assembly in which nobody knows where the open constructs were opened. -/
def unplaced (a : Assembly) : Assembly :=
  { a with opened := a.opened.map OpenConstruct.unplaced }

/-- Whether the second assembly is the first one without places. -/
def Forgets (a b : Assembly) : Prop := b = a.unplaced

variable (a : Assembly) (tag : StyleTag)

@[simp] theorem parent_unplaced : a.unplaced.parent = a.parent := by
  cases a with
  | mk opened => cases opened <;> rfl

theorem amend_unplaced (change : Construct → Construct) :
    (a.amend change).unplaced = a.unplaced.amend change := by
  cases a with
  | mk opened => cases opened <;> rfl

theorem emit_unplaced (instruction : Instruction) :
    (a.emit instruction).unplaced = a.unplaced.emit instruction := by
  cases a with
  | mk opened bodies => cases bodies <;> rfl

theorem emitAll_unplaced (body : List Instruction) :
    (body.foldl emit a).unplaced = body.foldl emit a.unplaced := by
  induction body generalizing a with
  | nil => rfl
  | cons instruction body ih => rw [List.foldl_cons, ih, emit_unplaced, List.foldl_cons]

theorem agree_of_eq {a b : Assembly} (h : a.unplaced = b) :
    Agree Forgets (.ok a : Except Failure Assembly) (.ok b) := .ok h.symm

/-- After a reading with one result it is enough to open the construct that was read. -/
theorem agree_push {x y : Except Failure Construct} (h : Agree Eq x y) (place : Place) :
    Agree Forgets (do return a.push (← x) place) (do return a.unplaced.push (← y) default) :=
  h.andThen fun _ => agree_of_eq rfl

/-! ### Start tags -/

theorem agree_begin (element : String) :
    Agree Forgets (a.begin tag element) (a.unplaced.begin tag.unplaced element) := by
  cases a with
  | mk opened bodies rules globals output =>
    cases opened with
    | nil => exact .error
    | cons inner outer =>
      change Agree _ (if inner.construct.holdsInstructions then _ else _)
        (if inner.construct.holdsInstructions then _ else _)
      split
      · exact agree_of_eq (amend_unplaced _ _)
      · exact .error

theorem agree_expectTop (element : String) (parent : Construct) :
    Agree Eq (expectTop tag element parent) (expectTop tag.unplaced element parent) := by
  cases parent with
  | stylesheet => exact .ok rfl
  | _ => exact .error

theorem agree_expectChoice (element : String) (parent : Construct) :
    Agree Eq (expectChoice tag element parent) (expectChoice tag.unplaced element parent) := by
  cases parent with
  | choose whens otherwise =>
    cases otherwise with
    | none => exact .ok rfl
    | some => exact .error
  | _ => exact .error

theorem agree_startParam : Agree Forgets (a.startParam tag) (a.unplaced.startParam tag.unplaced) := by
  have hpush (isGlobal : Bool) : Agree Forgets
      (do
        let named ← tag.nameAndSelect "xsl:param"
        return a.push (.param named.1 named.2 isGlobal) tag.place)
      (do
        let named ← tag.unplaced.nameAndSelect "xsl:param"
        return a.unplaced.push (.param named.1 named.2 isGlobal) default) :=
    (tag.agree_nameAndSelect _).andThen fun _ => agree_of_eq rfl
  unfold startParam
  rw [parent_unplaced]
  dsimp only
  split
  · exact hpush true
  · exact hpush false
  · exact .error
  · exact .error

theorem agree_startVariable :
    Agree Forgets (a.startVariable tag) (a.unplaced.startVariable tag.unplaced) := by
  have hpush (a : Assembly) (isGlobal : Bool) : Agree Forgets
      (do
        let named ← tag.nameAndSelect "xsl:variable"
        return a.push (.variable named.1 named.2 isGlobal) tag.place)
      (do
        let named ← tag.unplaced.nameAndSelect "xsl:variable"
        return a.unplaced.push (.variable named.1 named.2 isGlobal) default) :=
    (tag.agree_nameAndSelect _).andThen fun _ => agree_of_eq rfl
  unfold startVariable
  rw [parent_unplaced]
  dsimp only
  split
  · exact hpush a true
  · refine (a.agree_begin tag _).bind fun begun _ h => ?_
    rw [h]
    exact hpush begun false

theorem agree_startWithParam :
    Agree Forgets (a.startWithParam tag) (a.unplaced.startWithParam tag.unplaced) := by
  have hpush : Agree Forgets
      (do
        let named ← tag.nameAndSelect "xsl:with-param"
        return a.push (.withParam named.1 named.2) tag.place)
      (do
        let named ← tag.unplaced.nameAndSelect "xsl:with-param"
        return a.unplaced.push (.withParam named.1 named.2) default) :=
    (tag.agree_nameAndSelect _).andThen fun _ => agree_of_eq rfl
  unfold startWithParam
  rw [parent_unplaced]
  dsimp only
  split
  · exact hpush
  · exact hpush
  · exact .error

theorem agree_addSort (key : SortKey) :
    Agree Forgets (a.addSort tag key) (a.unplaced.addSort tag.unplaced key) := by
  cases a with
  | mk opened bodies rules globals output =>
    cases opened with
    | nil => exact .error
    | cons inner outer =>
      cases inner with
      | mk construct place =>
        cases construct with
        | applyTemplates => exact agree_of_eq rfl
        | forEach select sorts hasContent =>
          cases hasContent with
          | false => exact agree_of_eq rfl
          | true => exact .error
        | _ => exact .error

theorem agree_startSort : Agree Forgets (a.startSort tag) (a.unplaced.startSort tag.unplaced) :=
  tag.agree_sortKey.andThen fun key => (a.agree_addSort tag key).bind fun _ _ h => by
    rw [h]
    exact agree_of_eq rfl

theorem agree_startLanguage (localPart : String) :
    Agree Forgets (a.startLanguage tag localPart)
      (a.unplaced.startLanguage tag.unplaced localPart) := by
  unfold startLanguage
  rw [parent_unplaced]
  split
  · exact (agree_expectTop tag _ _).andThen fun _ => a.agree_push tag.agree_templateConstruct _
  · exact (agree_expectTop tag _ _).andThen fun _ => tag.agree_outputForm.andThen fun _ =>
      agree_of_eq rfl
  · exact (agree_expectTop tag _ _).andThen fun _ => agree_of_eq rfl
  · exact (agree_expectTop tag _ _).andThen fun _ => agree_of_eq rfl
  · exact a.agree_startParam tag
  · exact a.agree_startVariable tag
  · exact a.agree_startWithParam tag
  · exact a.agree_startSort tag
  · exact (agree_expectChoice tag _ _).andThen fun _ =>
      (tag.agree_requiredExpr _ _).andThen fun _ => agree_of_eq rfl
  · exact (agree_expectChoice tag _ _).andThen fun _ => agree_of_eq rfl
  · have hread := tag.agree_instructionConstruct? localPart
    generalize tag.instructionConstruct? localPart = read at hread ⊢
    generalize tag.unplaced.instructionConstruct? localPart = read' at hread ⊢
    cases hread with
    | none => exact .error
    | some hread =>
      refine (a.agree_begin tag _).bind fun begun _ h => ?_
      rw [h]
      exact begun.agree_push hread _

theorem agree_startLiteral (name : QName) :
    Agree Forgets (a.startLiteral tag name) (a.unplaced.startLiteral tag.unplaced name) := by
  refine (a.agree_begin tag _).bind fun begun _ h => ?_
  rw [h, tag.literalConstruct_unplaced]
  exact begun.agree_push (.refl _) _

theorem agree_startDocument :
    Agree Forgets (a.startDocument tag) (a.unplaced.startDocument tag.unplaced) := by
  have hname : tag.unplaced.name = tag.name := rfl
  unfold startDocument
  rw [hname]
  split
  · split
    · exact agree_of_eq rfl
    · exact .error
  · exact .error

theorem agree_start : Agree Forgets (a.start tag) (a.unplaced.start tag.unplaced) := by
  have hname : tag.unplaced.name = tag.name := rfl
  unfold start
  rw [parent_unplaced, hname]
  split
  · exact agree_of_eq rfl
  · exact a.agree_startDocument tag
  · exact a.agree_startLanguage tag _
  · exact agree_of_eq rfl
  · exact a.agree_startLiteral tag _

/-! ### Text and end tags -/

theorem agree_text (content : String) (place : Place) :
    Agree Forgets (a.text content place) (a.unplaced.text content default) := by
  unfold text
  rw [parent_unplaced]
  split
  · exact agree_of_eq (a.emit_unplaced _)
  · exact agree_of_eq rfl
  · split
    · exact agree_of_eq rfl
    · cases a with
      | mk opened bodies rules globals output =>
        cases opened with
        | nil => exact .error
        | cons inner outer =>
          change Agree _ (if inner.construct.holdsInstructions then _ else _)
            (if inner.construct.holdsInstructions then _ else _)
          split
          · refine agree_of_eq ?_
            rw [emit_unplaced, amend_unplaced]
          · exact .error

theorem agree_valueSource (element : String) (place : Place) (select : Option Expr)
    (body : List Instruction) : Agree Eq (valueSource element place select body)
      (valueSource element default select body) := by
  unfold valueSource
  split
  · exact .error
  all_goals exact .ok rfl

theorem agree_addGlobal (place : Place) (new : Global) :
    Agree Forgets (a.addGlobal place new) (a.unplaced.addGlobal default new) := by
  change Agree _ (if a.globals.any _ then _ else _) (if a.globals.any _ then _ else _)
  split
  · exact .error
  · exact agree_of_eq rfl

theorem agree_addParam (place : Place) (name : String) (value : ValueSource Instruction) :
    Agree Forgets (a.addParam place name value) (a.unplaced.addParam default name value) := by
  unfold addParam
  rw [parent_unplaced]
  split
  · split
    · exact .error
    · exact agree_of_eq (a.amend_unplaced _)
  · exact agree_of_eq rfl

theorem agree_addPassed (name : String) (value : ValueSource Instruction) :
    Agree Forgets (a.addPassed name value) (a.unplaced.addPassed name value) := by
  unfold addPassed
  rw [parent_unplaced]
  split
  · exact agree_of_eq (a.amend_unplaced _)
  · exact agree_of_eq (a.amend_unplaced _)
  · exact .error

theorem agree_close (place : Place) (body : List Instruction) (construct : Construct) :
    Agree Forgets (a.close place body construct) (a.unplaced.close default body construct) := by
  cases construct with
  | document => exact .error
  | stylesheet | ignored => exact agree_of_eq rfl
  | template name pattern mode priority params =>
    have hadd : Agree Eq
        ((a.rules.add ⟨name, pattern, mode, priority, params, body⟩).mapError
          (Failure.stylesheet · place))
        ((a.rules.add ⟨name, pattern, mode, priority, params, body⟩).mapError
          (Failure.stylesheet · default)) := by
      cases a.rules.add ⟨name, pattern, mode, priority, params, body⟩ with
      | error => exact .error
      | ok => exact .ok rfl
    exact hadd.andThen fun _ => agree_of_eq rfl
  | param name select isGlobal =>
    refine (agree_valueSource _ place select body).andThen fun value => ?_
    cases isGlobal with
    | true => exact a.agree_addGlobal place _
    | false => exact a.agree_addParam place name value
  | «variable» name select isGlobal =>
    refine (agree_valueSource _ place select body).andThen fun value => ?_
    cases isGlobal with
    | true => exact a.agree_addGlobal place _
    | false => exact agree_of_eq (a.emit_unplaced _)
  | withParam name select =>
    exact (agree_valueSource _ place select body).andThen fun value => a.agree_addPassed name value
  | choose whens otherwise =>
    change Agree _ (if whens.isEmpty then _ else _) (if whens.isEmpty then _ else _)
    split
    · exact .error
    · exact agree_of_eq (a.emit_unplaced _)
  | when | otherwise => exact agree_of_eq (a.amend_unplaced _)
  | text => exact agree_of_eq (a.emitAll_unplaced body)
  | empty name made =>
    cases made with
    | none => exact agree_of_eq rfl
    | some instruction => exact agree_of_eq (a.emit_unplaced instruction)
  | _ => exact agree_of_eq (a.emit_unplaced _)

theorem agree_stop : Agree Forgets a.stop a.unplaced.stop := by
  cases a with
  | mk opened bodies rules globals output =>
    cases opened with
    | nil => exact .error
    | cons inner outer => exact agree_close ⟨outer, bodies.tail, rules, globals, output⟩ _ _ _

end Assembly

/-! ## Runs -/

/-- What is met, when nobody knows where it stands. -/
def StyleEvent.unplaced : StyleEvent → StyleEvent
  | .start tag => .start tag.unplaced
  | .text content _ => .text content default
  | .stop => .stop

namespace Assembly

/-- A step with places and the same step without them. -/
theorem agree_meet (a : Assembly) (event : StyleEvent) :
    Agree Forgets (a.meet event) (a.unplaced.meet event.unplaced) := by
  cases event with
  | start tag => exact a.agree_start tag
  | text content place => exact a.agree_text content place
  | stop => exact a.agree_stop

theorem agree_foldlM_meet (a : Assembly) (events : List StyleEvent) :
    Agree Forgets (events.foldlM meet a)
      ((events.map StyleEvent.unplaced).foldlM meet a.unplaced) := by
  induction events generalizing a with
  | nil => exact agree_of_eq rfl
  | cons event events ih =>
    rw [List.foldlM_cons, List.map_cons, List.foldlM_cons]
    refine (a.agree_meet event).bind fun next _ h => ?_
    rw [h]
    exact ih next

end Assembly

/-! ## Stylesheets -/

namespace Markup

mutual

/-- A part of a marked-up document when nobody knows where it stands. -/
def Item.unplaced : Item → Item
  | .element tag children => .element { tag with place := default } (unplacedIn children)
  | .text content _ => .text content default
  | .comment content => .comment content
  | .instruction target content => .instruction target content

/-- Parts of a marked-up document when nobody knows where they stand. -/
def unplacedIn : List Item → List Item
  | [] => []
  | item :: items => item.unplaced :: unplacedIn items

end

end Markup

namespace StyleEvent

theorem styleTag_unplaced (excluded : List String) (outer : List Markup.Namespace) (tag : Tag) :
    styleTag excluded outer { tag with place := default } = (styleTag excluded outer tag).unplaced := by
  unfold styleTag
  change (if isLanguage tag then _ else _) = _
  split <;> rfl

mutual

theorem ofItem_unplaced (excluded : List String) (outer : List Markup.Namespace) : (item : Item) →
    ofItem excluded outer item.unplaced = (ofItem excluded outer item).map unplaced
  | .element tag children => by
      rw [Item.unplaced, ofItem, ofItem, List.map_cons, List.map_append,
        ← ofItems_unplaced excluded _ children, styleTag_unplaced]
      rfl
  | .text .. | .comment _ | .instruction .. => rfl

theorem ofItems_unplaced (excluded : List String) (outer : List Markup.Namespace) :
    (items : List Item) →
    ofItems excluded outer (Markup.unplacedIn items) = (ofItems excluded outer items).map unplaced
  | [] => rfl
  | item :: items => by
      rw [Markup.unplacedIn, ofItems, ofItems, List.map_append, ofItem_unplaced excluded outer item,
        ofItems_unplaced excluded outer items]

end

theorem ofDocument_unplaced (items : List Item) :
    ofDocument (Markup.unplacedIn items) = (ofDocument items).map unplaced := by
  induction items with
  | nil => rfl
  | cons item items ih =>
    cases item with
    | element tag children => exact ofItem_unplaced (excludedBy tag) [] (.element tag children)
    | text | comment | instruction => exact ih

end StyleEvent

namespace Stylesheet

/-- A stylesheet is put together with places just as without them. -/
theorem agree_ofEvents (events : List StyleEvent) :
    Agree Eq (ofEvents events) (do
      let a ← (events.map StyleEvent.unplaced).foldlM Assembly.meet Assembly.empty.unplaced
      a.finish) := by
  refine (Assembly.empty.agree_foldlM_meet events).bind fun a _ h => ?_
  have hfinish : a.unplaced.finish = a.finish := by
    simp only [Assembly.finish, Assembly.unplaced, List.length_map]
  rw [h, hfinish]
  exact .refl _

/-- Stylesheets that differ in places only are put together alike. -/
theorem ofEvents_congr {items items' : List Item}
    (h : Markup.unplacedIn items = Markup.unplacedIn items') {sheet : Stylesheet} :
    ofEvents (StyleEvent.ofDocument items) = .ok sheet ↔
      ofEvents (StyleEvent.ofDocument items') = .ok sheet := by
  have hevents : (StyleEvent.ofDocument items).map StyleEvent.unplaced =
      (StyleEvent.ofDocument items').map StyleEvent.unplaced := by
    rw [← StyleEvent.ofDocument_unplaced, h, StyleEvent.ofDocument_unplaced]
  rw [(agree_ofEvents _).eq_ok_iff, (agree_ofEvents _).eq_ok_iff, hevents]

end Stylesheet

end Restyle
