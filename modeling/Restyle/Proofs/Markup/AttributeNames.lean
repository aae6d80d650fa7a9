import Mathlib
import Restyle.Document.OfMarkup
import Restyle.Proofs.Document.Ascending
import Restyle.Proofs.Stylesheet.Walk

/-!
# Restyle.Proofs.Markup.AttributeNames

The names that attributes get in documents and in stylesheets.

The prefix of a name is found again from its namespace, and a default declaration that comes first
gives no prefix, although it does not apply to attributes.  So an attribute in a namespace can get
a name without a prefix, which another attribute may have as well.  Names with a prefix are never
alike.

* `DefaultFirst`, `NamedIn` — which names are given in a scope, and which of them are alike;
* `namedIn_qualified` — different expanded names that have been read are given such names;
* `Node.itemIn`, `Document.Holds.trees_eq` — the markup that a node stands for;
* `namedIn_of_read` — the names of the attributes of all elements of a text.
-/

namespace Restyle

open Markup (Item ExpandedName Namespace ProperScope Prefixed Tag xmlUri AllTagsIn allTagsIn_iff)

attribute [ext] QName Markup.ExpandedName

namespace Markup

/-! ## Names given in a scope -/

/-- Whether the first declaration of a namespace is that of a default one. -/
def DefaultFirst (scope : List Namespace) (uri : String) : Prop :=
  ∃ ns, (scope.find? fun ns => ns.uri == uri) = some ns ∧ ns.qualifier = none

/-- Whether a name that is given for an expanded name has the same local part and a prefix that
stands for its namespace, or none if there is no namespace or a default declaration comes first. -/
structure GivenFor (scope : List Namespace) (name : ExpandedName) (given : QName) : Prop where
  localPart : given.localPart = name.localPart
  unprefixed : given.qualifier = none ↔ ∀ uri, name.uri = some uri → DefaultFirst scope uri
  declared : ∀ qualifier, given.qualifier = some qualifier → ∃ uri, name.uri = some uri ∧
    (⟨some qualifier, uri⟩ ∈ scope ∨ qualifier = "xml" ∧ uri = xmlUri)

/-- Names that are given for expanded names, of which two are alike only if they have no prefix. -/
structure NamedIn (scope : List Namespace) (names : List ExpandedName) (given : List QName) :
    Prop where
  each : List.Forall₂ (GivenFor scope) names given
  alike : given.Pairwise fun one other => one = other ↔
    one.localPart = other.localPart ∧ one.qualifier = none ∧ other.qualifier = none

section Given

variable {scope : List Namespace} {uri : String}

/-- A namespace that is declared for a prefix is given none if a default declaration of it comes
first. -/
theorem qualifierOf_eq_none_iff (hscope : ProperScope scope)
    (hdeclared : uri = xmlUri ∨ ∃ qualifier, ⟨some qualifier, uri⟩ ∈ scope) :
    Tag.qualifierOf scope uri = none ↔ DefaultFirst scope uri := by
  unfold Tag.qualifierOf
  split
  · next hxml =>
    refine iff_of_false nofun ?_
    rintro ⟨ns, hfind, -⟩
    have huri : ns.uri = uri := by simpa using List.find?_some hfind
    exact (hscope.declarable ns (List.mem_of_find?_eq_some hfind)).2 (huri.trans hxml)
  · next hxml =>
    obtain ⟨qualifier, hmem⟩ := hdeclared.resolve_left hxml
    cases hfind : scope.find? fun ns => ns.uri == uri with
    | none => simpa using List.find?_eq_none.1 hfind _ hmem
    | some ns => simp [DefaultFirst, hfind]

theorem givenFor_qualified (hscope : ProperScope scope) {name : ExpandedName}
    (hname : Prefixed scope name) : GivenFor scope name (Tag.qualified scope name) := by
  refine ⟨rfl, ?_, fun qualifier h => ?_⟩
  · rw [Tag.qualified, Option.bind_eq_none_iff]
    exact forall₂_congr fun uri huri => qualifierOf_eq_none_iff hscope (hname uri huri)
  · obtain ⟨uri, huri, hfound⟩ := Option.bind_eq_some_iff.1 h
    refine ⟨uri, huri, ?_⟩
    by_cases hxml : qualifier = "xml"
    · exact .inr ⟨hxml, hscope.eq_xmlUri_of_qualifierOf (hxml ▸ hfound)⟩
    · exact .inl (ProperScope.mem_of_qualifierOf hfound hxml)

/-- Two expanded names are given the same name only without a prefix: a prefix is found for one
namespace only, and one that is in no namespace is not given any. -/
theorem qualified_eq_iff (hscope : ProperScope scope) {one other : ExpandedName}
    (hne : one ≠ other) :
    Tag.qualified scope one = Tag.qualified scope other ↔
      (Tag.qualified scope one).localPart = (Tag.qualified scope other).localPart ∧
        (Tag.qualified scope one).qualifier = none ∧
        (Tag.qualified scope other).qualifier = none := by
  constructor
  · intro h
    refine ⟨congrArg QName.localPart h, ?_⟩
    rw [← h]
    cases hqualifier : (Tag.qualified scope one).qualifier with
    | none => exact ⟨rfl, rfl⟩
    | some qualifier =>
        obtain ⟨uri, huri, hfound⟩ := Option.bind_eq_some_iff.1 hqualifier
        obtain ⟨uri', huri', hfound'⟩ :=
          Option.bind_eq_some_iff.1 ((congrArg QName.qualifier h).symm.trans hqualifier)
        obtain rfl := hscope.qualifierOf_inj hfound hfound'
        exact absurd (ExpandedName.ext (huri.trans huri'.symm) (congrArg QName.localPart h)) hne
  · rintro ⟨hlocal, hone, hother⟩
    exact QName.ext (hone.trans hother.symm) hlocal

/-- Different expanded names are given names that are alike only without a prefix. -/
theorem namedIn_qualified (hscope : ProperScope scope) {names : List ExpandedName}
    (hnodup : names.Nodup) (hprefixed : ∀ name ∈ names, Prefixed scope name) :
    NamedIn scope names (names.map (Tag.qualified scope)) := by
  constructor
  · refine List.forall₂_map_right_iff.2 (List.forall₂_same.2 fun name hname => ?_)
    exact givenFor_qualified hscope (hprefixed name hname)
  · exact List.pairwise_map.2 (hnodup.imp fun hne => qualified_eq_iff hscope hne)

end Given

end Markup

open Markup (NamedIn namedIn_qualified)

/-! ## The markup of a node -/

/-- The markup right below a node of the document for some markup. -/
def Node.contentIn (items : List Item) : Node → List Item
  | .root _ => items
  | .child parent index _ _ =>
    match (parent.contentIn items)[index]? with
    | some (.element _ content) => content
    | _ => []
  | .attr .. => []

/-- The markup that a child of another node stands for, in the document for some markup. -/
def Node.itemIn (items : List Item) : Node → Option Item
  | .child parent index _ _ => (parent.contentIn items)[index]?
  | .root _ | .attr .. => none

theorem Tree.ofItems_eq_map (items : List Item) : Tree.ofItems items = items.map Tree.ofItem := by
  induction items with
  | nil => rfl
  | cons item items ih => rw [Tree.ofItems, ih, List.map_cons]

namespace Document.Holds

variable {items : List Item} {node : Node}

/-- The trees below a node are made from the markup below it. -/
theorem trees_eq (h : (⟨Tree.ofItems items⟩ : Document).Holds node) :
    node.trees = Tree.ofItems (node.contentIn items) := by
  induction h with
  | root => rfl
  | @child parent index tree _ htree ih =>
      rw [ih, Tree.ofItems_eq_map, List.getElem?_map] at htree
      obtain ⟨item, hitem, rfl⟩ := Option.map_eq_some_iff.1 htree
      rw [Node.contentIn, hitem]
      cases item <;> rfl
  | attr => rfl

/-- What is true of all tags in some markup is true of those below a node. -/
theorem allTagsIn_contentIn (h : (⟨Tree.ofItems items⟩ : Document).Holds node) {P : Tag → Prop}
    (hall : AllTagsIn P items) : AllTagsIn P (node.contentIn items) := by
  induction h with
  | root => exact hall
  | @child parent index tree _ htree ih =>
      rw [Node.contentIn]
      split
      · next tag content hitem =>
        have helement := allTagsIn_iff.1 ih _ (List.mem_of_getElem? hitem)
        rw [Item.AllTags] at helement
        exact helement.2
      · exact trivial
  | attr => exact trivial

/-- The tag of an element in proper markup is proper. -/
theorem proper_of_itemIn (h : (⟨Tree.ofItems items⟩ : Document).Holds node) {tag : Tag}
    {content : List Item} (hitem : node.itemIn items = some (.element tag content))
    (hproper : AllTagsIn Tag.Proper items) : tag.Proper := by
  cases h with
  | root => cases hitem
  | child hparent _ =>
      have helement := allTagsIn_iff.1 (hparent.allTagsIn_contentIn hproper) _
        (List.mem_of_getElem? hitem)
      rw [Item.AllTags] at helement
      exact helement.1
  | attr => cases hitem

/-- An element is made from the markup of an element. -/
theorem exists_itemIn (h : (⟨Tree.ofItems items⟩ : Document).Holds node)
    (hkind : node.kind = .element) :
    ∃ tag content, node.itemIn items = some (.element tag content) ∧
      node.held = tag.attributes.map fun attr => ⟨Tag.qualified tag.scope attr.1, attr.2⟩ := by
  cases h with
  | root => cases hkind
  | @child parent index tree hparent htree =>
      rw [hparent.trees_eq, Tree.ofItems_eq_map, List.getElem?_map] at htree
      obtain ⟨item, hitem, rfl⟩ := Option.map_eq_some_iff.1 htree
      cases item with
      | element tag content => exact ⟨tag, content, hitem, rfl⟩
      | text | comment | instruction => cases hkind
  | attr => cases hkind

end Document.Holds

/-! ## The names of attributes -/

theorem Node.filterMap_name_attributes (node : Node) :
    node.attributes.filterMap Node.name = node.held.map Attribute.name := by
  rw [Node.attributes, List.mapIdx_eq_zipIdx_map, List.filterMap_map]
  calc node.held.zipIdx.filterMap _
    _ = (node.held.zipIdx.map Prod.fst).filterMap (some ∘ Attribute.name) :=
      List.filterMap_map.symm
    _ = node.held.map Attribute.name := by rw [List.zipIdx_map_fst, List.filterMap_eq_map]

theorem namesOutside_sublist (tag : Tag) :
    (StyleEvent.namesOutside tag).Sublist (tag.attributes.map Prod.fst) := List.filter_sublist

/-- In a text that is well-formed, the attributes of an element are given names with the prefixes
that are declared for their namespaces, or none if a default declaration comes first.  Two of them
are alike only if they have the same local part and both have no prefix.  The same is true of those
that are reported of a literal element if the text is a stylesheet. -/
theorem Markup.namedIn_of_read {text : String} {items : List Item}
    (hread : Markup.read text = some items) :
    (∀ node, (⟨Tree.ofItems items⟩ : Document).Holds node → node.kind = .element →
      ∃ tag content, node.itemIn items = some (.element tag content) ∧
        NamedIn tag.scope (tag.attributes.map Prod.fst) (node.attributes.filterMap Node.name)) ∧
    ∀ report ∈ StyleEvent.reports text, ∃ tag met,
      report.tags.head? = some tag ∧ report.met.head? = some met ∧
        (met.isLiteral = true →
          NamedIn tag.scope (StyleEvent.namesOutside tag) (met.attributes.map Attribute.name)) := by
  have hproper := Markup.proper_read hread
  constructor
  · intro node hnode hkind
    obtain ⟨tag, content, hitem, hheld⟩ := hnode.exists_itemIn hkind
    have htag := hnode.proper_of_itemIn hitem hproper
    refine ⟨tag, content, hitem, ?_⟩
    rw [Node.filterMap_name_attributes, hheld, List.map_map]
    have hnamed := namedIn_qualified htag.scope htag.attributes htag.prefixed
    rwa [List.map_map] at hnamed
  · intro report hreport
    obtain ⟨hne, hmet, htags⟩ := StyleEvent.mem_reports hreport
    obtain ⟨tag, around, heq⟩ := List.exists_cons_of_ne_nil hne
    rw [heq] at hmet htags
    have htag := htags tag List.mem_cons_self
    refine ⟨tag, _, by rw [heq]; rfl, by rw [hmet]; rfl, fun hliteral => ?_⟩
    rw [StyleEvent.isLiteral_styleTag] at hliteral
    rw [StyleEvent.attributeNames_styleTag _ _ (by simpa using hliteral)]
    have hsublist := namesOutside_sublist tag
    exact namedIn_qualified htag.scope (htag.attributes.sublist hsublist) fun name hname =>
      htag.prefixed name (hsublist.subset hname)

/-! ### Two attributes with the same name -/

/-- An element in a namespace that is declared as the default one and for a prefix, with an
attribute in it and another one in no namespace that has the same local part. -/
def clashing : String := "<a xmlns='u' xmlns:p='u' p:x='1' x='2'/>"

theorem exists_clashing : ∃ items, Markup.read clashing = some items ∧
    ∃ node, (⟨Tree.ofItems items⟩ : Document).Holds node ∧ node.kind = .element ∧
      ¬ (node.attributes.map Node.name).Nodup := by
  have h : ((Markup.read clashing).any fun items =>
      (⟨Tree.ofItems items⟩ : Document).nodes.any fun node =>
        node.kind == .element && !decide (node.attributes.map Node.name).Nodup) = true := by
    decide +kernel
  obtain ⟨items, hread, hnodes⟩ := (Option.any_eq_true _ _).1 h
  obtain ⟨node, hnode, hfound⟩ := List.any_eq_true.1 hnodes
  rw [Bool.and_eq_true, beq_iff_eq, Bool.not_eq_true', decide_eq_false_iff_not] at hfound
  exact ⟨items, hread, node, Document.mem_nodes.1 hnode, hfound.1, hfound.2⟩

theorem Markup.namedIn_clashing : ∃ items, Markup.read clashing = some items ∧
    ∃ node, (⟨Tree.ofItems items⟩ : Document).Holds node ∧ node.kind = .element ∧
      ∃ tag content, node.itemIn items = some (.element tag content) ∧
        NamedIn tag.scope (tag.attributes.map Prod.fst) (node.attributes.filterMap Node.name) := by
  obtain ⟨items, hread, node, hnode, hkind, -⟩ := exists_clashing
  exact ⟨items, hread, node, hnode, hkind,
    (Markup.namedIn_of_read hread).1 node hnode hkind⟩

/-- Two attributes of an element may have the same name. -/
theorem Document.not_nodup_attributeNames : ¬ ∀ (text : String) (items : List Item) (node : Node),
    Markup.read text = some items → (⟨Tree.ofItems items⟩ : Document).Holds node →
      node.kind = .element → (node.attributes.map Node.name).Nodup := by
  intro h
  obtain ⟨items, hread, node, hnode, hkind, halike⟩ := exists_clashing
  exact halike (h clashing items node hread hnode hkind)

end Restyle
