import Restyle.Markup.Reading

/-!
# Restyle.Proofs.Markup.Scope

What is true of the tags in markup that has been read.

In the scope of a tag a prefix stands for one namespace, and neither the prefix `xml` nor its
namespace is declared.  The attributes of a tag have different expanded names, and each of their
namespaces has been declared for a prefix.  Every tag is made from declarations and attributes that
have been checked, wherever they were written, so all tags that are read are proper.

* `ProperScope`, `Tag.Proper` — what is true of a scope and of a tag;
* `ProperScope.qualifierOf_inj` — a prefix is found for one namespace only;
* `StartedTag.proper_finish` — a tag that ends is proper;
* `proper_read` — all tags that are read are proper.
-/

namespace Restyle.Markup

open Source

/-! ## Proper scopes -/

/-- Namespaces of which a prefix stands for one only, and which need to be declared. -/
structure ProperScope (scope : List Namespace) : Prop where
  unique : ∀ qualifier uri uri', ⟨some qualifier, uri⟩ ∈ scope → ⟨some qualifier, uri'⟩ ∈ scope →
    uri = uri'
  declarable : ∀ ns ∈ scope, ns.qualifier ≠ some "xml" ∧ ns.uri ≠ xmlUri

namespace ProperScope

theorem nil : ProperScope [] := ⟨nofun, nofun⟩

/-- A namespace may be declared after others if its prefix is not declared yet. -/
theorem append {scope : List Namespace} (h : ProperScope scope) {ns : Namespace}
    (hfresh : ∀ other ∈ scope, ns.qualifier.isSome → other.qualifier ≠ ns.qualifier)
    (hqualifier : ns.qualifier ≠ some "xml") (huri : ns.uri ≠ xmlUri) :
    ProperScope (scope ++ [ns]) := by
  constructor
  · intro qualifier uri uri' hmem hmem'
    rcases List.mem_append.1 hmem with hold | hlast <;>
      rcases List.mem_append.1 hmem' with hold' | hlast'
    · exact h.unique qualifier uri uri' hold hold'
    · obtain rfl := List.mem_singleton.1 hlast'
      exact (hfresh _ hold rfl rfl).elim
    · obtain rfl := List.mem_singleton.1 hlast
      exact (hfresh _ hold' rfl rfl).elim
    · obtain rfl := List.mem_singleton.1 hlast
      exact (congrArg Namespace.uri (List.mem_singleton.1 hlast')).symm
  · intro other hmem
    rcases List.mem_append.1 hmem with hmem | hlast
    · exact h.declarable other hmem
    · rw [List.mem_singleton.1 hlast]
      exact ⟨hqualifier, huri⟩

variable {scope : List Namespace} {uri uri' qualifier : String}

/-- A prefix other than `xml` is found for a namespace that is declared for it. -/
theorem mem_of_qualifierOf (h : Tag.qualifierOf scope uri = some qualifier)
    (hxml : qualifier ≠ "xml") : ⟨some qualifier, uri⟩ ∈ scope := by
  unfold Tag.qualifierOf at h
  split at h
  · exact absurd (Option.some.inj h).symm hxml
  · obtain ⟨ns, hfind, hqualifier⟩ := Option.bind_eq_some_iff.1 h
    have huri : ns.uri = uri := by simpa using List.find?_some hfind
    rw [← hqualifier, ← huri]
    exact List.mem_of_find?_eq_some hfind

/-- The prefix `xml` is found for its own namespace only. -/
theorem eq_xmlUri_of_qualifierOf (hscope : ProperScope scope)
    (h : Tag.qualifierOf scope uri = some "xml") : uri = xmlUri := by
  unfold Tag.qualifierOf at h
  split at h
  · assumption
  · obtain ⟨ns, hfind, hqualifier⟩ := Option.bind_eq_some_iff.1 h
    exact absurd hqualifier (hscope.declarable ns (List.mem_of_find?_eq_some hfind)).1

/-- A prefix is found for one namespace only. -/
theorem qualifierOf_inj (hscope : ProperScope scope)
    (h : Tag.qualifierOf scope uri = some qualifier)
    (h' : Tag.qualifierOf scope uri' = some qualifier) : uri = uri' := by
  by_cases hxml : qualifier = "xml"
  · subst hxml
    exact (hscope.eq_xmlUri_of_qualifierOf h).trans (hscope.eq_xmlUri_of_qualifierOf h').symm
  · exact hscope.unique qualifier uri uri' (mem_of_qualifierOf h hxml) (mem_of_qualifierOf h' hxml)

end ProperScope

/-! ## Declarations -/

theorem declarable_of_declaredNamespace {attr : ReadAttribute} {ns : Namespace}
    (h : declaredNamespace attr = some (some ns)) :
    ns.qualifier ≠ some "xml" ∧ ns.uri ≠ xmlUri := by
  unfold declaredNamespace at h
  split at h
  · split at h
    · cases h
    · split at h
      · cases h
      · next hboth =>
        split at h
        · cases h
        · next hvalue =>
          obtain rfl := Option.some.inj (Option.some.inj h)
          refine ⟨fun hlocal => ?_, by simpa using hvalue⟩
          rw [Option.some.inj hlocal] at hboth
          simp [hvalue] at hboth
  · split at h
    · split at h
      · cases h
      · next hvalue =>
        obtain rfl := Option.some.inj (Option.some.inj h)
        have hneither : attr.value ≠ xmlUri ∧ attr.value ≠ xmlnsUri := by simpa using hvalue
        exact ⟨nofun, hneither.1⟩
    · cases h

theorem proper_declaredNamespaces {attrs : List ReadAttribute} {own declared : List Namespace}
    (hown : ProperScope own) (h : declaredNamespaces own attrs = some declared) :
    ProperScope declared := by
  induction attrs generalizing own with
  | nil =>
      obtain rfl := Option.some.inj h
      exact hown
  | cons attr attrs ih =>
      obtain ⟨found, hfound, h⟩ := Option.bind_eq_some_iff.1 h
      cases found with
      | none => exact ih hown h
      | some ns =>
          dsimp only at h
          split at h
          · cases h
          · next hfresh =>
            obtain ⟨hqualifier, huri⟩ := declarable_of_declaredNamespace hfound
            refine ih (hown.append (fun other hother hsome heq => hfresh ?_) hqualifier huri) h
            simpa [hsome] using ⟨other, hother, heq⟩

theorem proper_inherit {scope : List Namespace} {ns : Namespace} (hscope : ProperScope scope)
    (hns : ns.qualifier ≠ some "xml" ∧ ns.uri ≠ xmlUri) : ProperScope (inherit scope ns) := by
  unfold inherit
  split
  · exact hscope
  · next hfresh =>
    refine hscope.append (fun other hother _ heq => hfresh ?_) hns.1 hns.2
    exact List.any_eq_true.2 ⟨other, hother, by simp [heq]⟩

theorem proper_innerScope {own outer : List Namespace} (hown : ProperScope own)
    (houter : ProperScope outer) : ProperScope (innerScope own outer) := by
  have hfold (inherited : List Namespace) : (∀ ns ∈ inherited, ns ∈ outer) → ∀ scope,
      ProperScope scope → ProperScope (inherited.foldl inherit scope) := by
    induction inherited with
    | nil => exact fun _ _ hscope => hscope
    | cons ns inherited ih =>
        intro hmem scope hscope
        have hns := houter.declarable ns (hmem ns List.mem_cons_self)
        exact ih (fun ns hns => hmem ns (List.mem_cons_of_mem _ hns)) _ (proper_inherit hscope hns)
  unfold innerScope
  split
  · exact houter
  · exact hfold outer (fun _ hns => hns) own hown

/-! ## Proper tags -/

/-- A name in a namespace has it from a prefix. -/
def Prefixed (scope : List Namespace) (name : ExpandedName) : Prop :=
  ∀ uri, name.uri = some uri → uri = xmlUri ∨ ∃ qualifier, ⟨some qualifier, uri⟩ ∈ scope

/-- What is true of a tag that has been read. -/
structure Tag.Proper (tag : Tag) : Prop where
  scope : ProperScope tag.scope
  attributes : (tag.attributes.map Prod.fst).Nodup
  prefixed : ∀ name ∈ tag.attributes.map Prod.fst, Prefixed tag.scope name

theorem prefixed_attributeName {scope : List Namespace} {written : Written} {name : ExpandedName}
    (h : attributeName scope written = some name) : Prefixed scope name := by
  unfold attributeName at h
  split at h
  · obtain rfl := Option.some.inj h
    rintro uri ⟨⟩
    exact .inl rfl
  · split at h
    · obtain rfl := Option.some.inj h
      exact nofun
    · next hqualifier =>
      obtain ⟨found, hfound, rfl⟩ := Option.map_eq_some_iff.1 h
      rintro uri rfl
      unfold Tag.uriOf? at hfound
      simp only [hqualifier] at hfound
      split at hfound
      · next ns hns =>
        have hqualifier : ns.qualifier = some written.qualifier := by
          simpa using List.find?_some hns
        have huri : ns.uri = uri := Option.some.inj (Option.some.inj hfound)
        refine .inr ⟨written.qualifier, ?_⟩
        rw [← hqualifier, ← huri]
        exact List.mem_of_find?_eq_some hns
      · cases hfound

theorem nodup_expandAttributes {scope : List Namespace} {attrs : List ReadAttribute}
    {known expanded : List (ExpandedName × String)}
    (h : expandAttributes scope known attrs = some expanded)
    (hknown : (known.map Prod.fst).Nodup ∧ ∀ name ∈ known.map Prod.fst, Prefixed scope name) :
    (expanded.map Prod.fst).Nodup ∧ ∀ name ∈ expanded.map Prod.fst, Prefixed scope name := by
  induction attrs generalizing known with
  | nil =>
      obtain rfl := Option.some.inj h
      exact hknown
  | cons attr attrs ih =>
      obtain ⟨name, hname, h⟩ := Option.bind_eq_some_iff.1 h
      split at h
      · cases h
      · next hfresh =>
        refine ih h ⟨?_, ?_⟩
        · rw [List.map_append, List.nodup_append]
          refine ⟨hknown.1, by simp, fun other hother last hlast heq => hfresh ?_⟩
          obtain ⟨entry, hentry, rfl⟩ := List.mem_map.1 hother
          obtain rfl : last = name := by simpa using hlast
          exact List.any_eq_true.2 ⟨entry, hentry, by simp [heq]⟩
        · intro other hother
          rw [List.map_append, List.mem_append] at hother
          obtain hother | hlast := hother
          · exact hknown.2 other hother
          · obtain rfl : other = name := by simpa using hlast
            exact prefixed_attributeName hname

namespace StartedTag

theorem proper_add {started started' : StartedTag} {attrs : List ReadAttribute}
    (h : started.add attrs = some started') (hproper : ProperScope started.declared) :
    ProperScope started'.declared := by
  obtain ⟨declared, hdeclared, h⟩ := Option.bind_eq_some_iff.1 h
  obtain rfl := Option.some.inj h
  exact proper_declaredNamespaces hproper hdeclared

/-- A tag that ends is proper. -/
theorem proper_finish {started : StartedTag} {outer : List Namespace} {place : Place}
    {name : Written} {tag : Tag} (h : started.finish outer place name = some tag)
    (hproper : ProperScope started.declared) (houter : ProperScope outer) : tag.Proper := by
  obtain ⟨attributes, hattributes, h⟩ := Option.bind_eq_some_iff.1 h
  obtain ⟨uri, -, h⟩ := Option.bind_eq_some_iff.1 h
  obtain rfl := Option.some.inj h
  obtain ⟨hnodup, hprefixed⟩ := nodup_expandAttributes hattributes ⟨List.nodup_nil, nofun⟩
  exact ⟨proper_innerScope hproper houter, hnodup, hprefixed⟩

end StartedTag

/-! ## Documents in the making -/

mutual

/-- Whether all tags in a part of a document have a property. -/
def Item.AllTags (P : Tag → Prop) : Item → Prop
  | .element tag children => P tag ∧ AllTagsIn P children
  | .text .. | .comment _ | .instruction .. => True

/-- Whether all tags in parts of a document have a property. -/
def AllTagsIn (P : Tag → Prop) : List Item → Prop
  | [] => True
  | item :: items => item.AllTags P ∧ AllTagsIn P items

end

theorem allTagsIn_iff {P : Tag → Prop} {items : List Item} :
    AllTagsIn P items ↔ ∀ item ∈ items, item.AllTags P := by
  induction items with
  | nil => simp [AllTagsIn]
  | cons item items ih => simp [AllTagsIn, ih]

/-- What is true of a document in the making. -/
structure Building.Proper (b : Building) : Prop where
  content : ∀ item ∈ b.content, item.AllTags Tag.Proper
  above : ∀ element ∈ b.above, element.tag.Proper ∧
    ∀ item ∈ element.before, item.AllTags Tag.Proper
  started : ProperScope b.started.declared

namespace Building

variable {b b' : Building}

theorem proper_empty : Building.empty.Proper := ⟨nofun, nofun, .nil⟩

theorem Proper.scope (h : b.Proper) : ProperScope b.scope := by
  unfold Building.scope
  split
  · exact .nil
  · next element outer habove => exact (h.above element (habove ▸ List.mem_cons_self)).1.scope

theorem Proper.endText (h : b.Proper) : b.endText.Proper := by
  unfold Building.endText
  split
  · refine ⟨fun item hitem => ?_, h.above, h.started⟩
    obtain rfl | hitem := List.mem_cons.1 hitem
    · exact trivial
    · exact h.content item hitem
  · exact h

theorem Proper.add (h : b.Proper) {item : Item} (hitem : item.AllTags Tag.Proper) :
    (b.add item).Proper := by
  refine ⟨fun other hother => ?_, h.endText.above, h.endText.started⟩
  obtain rfl | hother := List.mem_cons.1 hother
  · exact hitem
  · exact h.endText.content other hother

theorem Proper.addText (h : b.Proper) (cs : List Char) (place : Place) :
    (b.addText cs place).Proper := by
  unfold Building.addText
  split <;> exact ⟨h.content, h.above, h.started⟩

theorem Proper.flush (h : b.Proper) (place : Place) (gathered : List Char) :
    (flush place gathered b).Proper := by
  unfold Markup.flush
  split
  · exact h
  · exact h.addText _ _

theorem Proper.start (h : b.Proper) {place : Place} {name : Written}
    {attrs : List ReadAttribute} {tagEnd : TagEnd}
    (hstart : b.start place name attrs tagEnd = some b') : b'.Proper := by
  unfold Building.start at hstart
  split at hstart
  · cases hstart
  · obtain ⟨started, hstarted, hstart⟩ := Option.bind_eq_some_iff.1 hstart
    have hproper := StartedTag.proper_add hstarted h.endText.started
    cases tagEnd with
    | cutOff =>
        obtain rfl := Option.some.inj hstart
        exact ⟨h.endText.content, h.endText.above, hproper⟩
    | closing =>
        obtain ⟨tag, htag, hstart⟩ := Option.bind_eq_some_iff.1 hstart
        obtain rfl := Option.some.inj hstart
        have hadd : (b.endText.add (.element tag [])).Proper :=
          h.endText.add ⟨StartedTag.proper_finish htag hproper h.endText.scope, trivial⟩
        exact ⟨hadd.content, hadd.above, .nil⟩
    | opening =>
        obtain ⟨tag, htag, hstart⟩ := Option.bind_eq_some_iff.1 hstart
        obtain rfl := Option.some.inj hstart
        refine ⟨nofun, fun element helement => ?_, .nil⟩
        obtain rfl | helement := List.mem_cons.1 helement
        · exact ⟨StartedTag.proper_finish htag hproper h.endText.scope, h.endText.content⟩
        · exact h.endText.above element helement

theorem Proper.stop (h : b.Proper) {name : Written} (hstop : b.stop name = some b') :
    b'.Proper := by
  unfold Building.stop at hstop
  dsimp only at hstop
  split at hstop
  · cases hstop
  · next element outer habove =>
    split at hstop
    · obtain rfl := Option.some.inj hstop
      obtain ⟨htag, hbefore⟩ := h.endText.above element (habove ▸ List.mem_cons_self)
      refine ⟨fun item hitem => ?_, fun other hother => ?_, .nil⟩
      · obtain rfl | hitem := List.mem_cons.1 hitem
        · refine ⟨htag, allTagsIn_iff.2 fun inner hinner => ?_⟩
          exact h.endText.content inner (List.mem_reverse.1 hinner)
        · exact hbefore item hitem
      · exact h.endText.above other (habove ▸ List.mem_cons_of_mem _ hother)
    · cases hstop

theorem Proper.top (h : b.Proper) : AllTagsIn Tag.Proper b.top := by
  refine allTagsIn_iff.2 fun item hitem => ?_
  unfold Building.top at hitem
  split at hitem
  · obtain rfl | hitem := List.mem_cons.1 (List.mem_reverse.1 hitem)
    · exact trivial
    · exact h.content item hitem
  · exact h.content item (List.mem_reverse.1 hitem)

end Building

/-! ## Reading -/

/-- Whatever is fed, a document in the making stays proper. -/
def KeepsProper (step : Building → Option Building) : Prop :=
  ∀ b b', step b = some b' → b.Proper → b'.Proper

section Feeding

variable {expand : String → Building → Option Building}
  (hexpand : ∀ name, KeepsProper (expand name))

include hexpand

theorem keepsProper_addPieces (inside : Bool) (place : Place) (pieces : List Piece)
    (gathered : List Char) (asIs : Bool) :
    KeepsProper (addPieces inside expand place gathered asIs pieces) := by
  induction pieces generalizing gathered asIs with
  | nil =>
      intro b b' h hb
      obtain rfl := Option.some.inj h
      exact hb.flush place gathered
  | cons piece pieces ih =>
      intro b b' h hb
      cases piece with
      | plain c => exact ih _ _ b b' h hb
      | char c =>
          rw [addPieces] at h
          split at h
          · exact ih _ _ b b' h hb
          · exact ih _ _ b b' h hb
      | entity name =>
          obtain ⟨next, hnext, h⟩ := Option.bind_eq_some_iff.1 h
          exact ih _ _ next b' h (hexpand name _ next hnext (hb.flush place gathered))

theorem keepsProper_feed (entities : List Entity) (left : Nat) (token : Token) :
    KeepsProper (feed entities left expand token) := by
  intro b b' h hb
  cases token with
  | start place name attributes tagEnd =>
      obtain ⟨⟨attrs, count⟩, -, h⟩ := Option.bind_eq_some_iff.1 h
      have hcounted : ({ b with count := count } : Building).Proper :=
        ⟨hb.content, hb.above, hb.started⟩
      exact hcounted.start h
  | stop name => exact hb.stop h
  | text content =>
      obtain ⟨pieces, -, h⟩ := Option.bind_eq_some_iff.1 h
      exact keepsProper_addPieces hexpand _ _ pieces [] false b b' h hb
  | data place content =>
      obtain rfl := Option.some.inj h
      exact hb.addText _ _
  | comment content =>
      obtain rfl := Option.some.inj h
      exact Building.Proper.add hb trivial
  | instruction target content =>
      obtain rfl := Option.some.inj h
      exact Building.Proper.add hb trivial

theorem keepsProper_feedAll (entities : List Entity) (left : Nat) (tokens : List Token) :
    KeepsProper (feedAll entities left expand tokens) := by
  induction tokens with
  | nil =>
      intro b b' h hb
      obtain rfl := Option.some.inj h
      exact hb
  | cons token tokens ih =>
      intro b b' h hb
      obtain ⟨next, hnext, h⟩ := Option.bind_eq_some_iff.1 h
      exact ih next b' h (keepsProper_feed hexpand entities left token b next hnext hb)

end Feeding

theorem keepsProper_entityInContent (entities : List Entity) (left : Nat) (name : String) :
    KeepsProper (entityInContent entities left name) := by
  induction left generalizing name with
  | zero => exact nofun
  | succ left ih =>
      intro b b' h hb
      obtain ⟨value, -, h⟩ := Option.bind_eq_some_iff.1 h
      obtain ⟨count, -, h⟩ := Option.bind_eq_some_iff.1 h
      obtain ⟨⟨tokens, rest⟩, -, h⟩ := Option.bind_eq_some_iff.1 h
      dsimp only at h
      split at h
      · cases h
      · obtain ⟨fed, hfed, h⟩ := Option.bind_eq_some_iff.1 h
        obtain rfl := Option.some.inj h
        have hcounted : ({ b with count := count } : Building).Proper :=
          ⟨hb.content, hb.above, hb.started⟩
        have hproper := keepsProper_feedAll ih entities left tokens _ fed hfed hcounted
        exact ⟨hproper.content, hproper.above, hproper.started⟩

/-- All tags that are read are proper. -/
theorem proper_read {text : String} {items : List Item} (h : read text = some items) :
    AllTagsIn Tag.Proper items := by
  obtain ⟨⟨prolog, rest⟩, -, h⟩ := Option.bind_eq_some_iff.1 h
  have hfed {tokens : List Token} {b : Building}
      (hfeed : feedAll prolog.entities depthLimit (entityInContent prolog.entities depthLimit)
        tokens .empty = some b) : AllTagsIn Tag.Proper b.top :=
    (keepsProper_feedAll (keepsProper_entityInContent prolog.entities depthLimit)
      prolog.entities depthLimit tokens _ b hfeed Building.proper_empty).top
  dsimp only at h
  -- with an element behind the prolog and without one, the tokens are fed alike
  split at h
  all_goals
    obtain ⟨⟨tokens, rest'⟩, -, h⟩ := Option.bind_eq_some_iff.1 h
    obtain ⟨⟨after, rest'⟩, -, h⟩ := Option.bind_eq_some_iff.1 h
    obtain ⟨b, hfeed, h⟩ := Option.bind_eq_some_iff.1 h
    split at h
    · obtain rfl := Option.some.inj h
      exact hfed hfeed
    · cases h

end Restyle.Markup
