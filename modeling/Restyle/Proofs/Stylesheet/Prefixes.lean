import Mathlib
import Restyle.Proofs.Stylesheet.Walk

/-!
# Restyle.Proofs.Stylesheet.Prefixes

The namespace declarations that literal elements carry, and the prefixes of the names reported.

A literal element leaves out a declaration that the literal element right around it has in scope,
whether or not that element declares it in the result.  For a prefix that is not excluded it does,
or one further out does.  An excluded prefix is only declared by an element that is itself in the
namespace and brings it into scope, so elsewhere a name can be reported with a prefix that nothing
declares.

* `StyleTag.declaredFor`, `StyleTag.nearest` — what a prefix is declared for in the result;
* `Markup.Tag.brings`, `Markup.broughtNearest` — what elements bring into scope for themselves;
* `StyleEvent.nearest_met` — a prefix that is not excluded is declared where its namespace is in
  scope;
* `StyleEvent.nearest_met_of_isExcluded` — all that is declared for an excluded prefix;
* `StyleEvent.nearest_iff` — when the prefix of a reported name is declared for its namespace.
-/

namespace Restyle

open Markup (Namespace ExpandedName ProperScope Tag)

/-! ## Declarations in the result -/

namespace StyleTag

/-- The namespace that a literal element declares for a prefix, if it does. -/
def declaredFor (qualifier : String) (tag : StyleTag) : Option String :=
  (tag.namespaces.find? fun ns => ns.qualifier == some qualifier).map Namespace.uri

/-- The namespace that the nearest start tag with a declaration for a prefix declares, among those
of literal elements of which each stands right in the next. -/
def nearest (qualifier : String) (tags : List StyleTag) : Option String :=
  (tags.takeWhile isLiteral).findSome? (declaredFor qualifier)

end StyleTag

/-! ## Declarations brought into scope -/

/-- The namespace that an element inside `outer` is in and brings into scope for a prefix. -/
def Markup.Tag.brings (qualifier : String) (outer : List Namespace) (tag : Tag) : Option String :=
  tag.name.uri.filter fun uri =>
    tag.scope.contains ⟨some qualifier, uri⟩ && !outer.contains ⟨some qualifier, uri⟩

/-- The namespace that the nearest element is in and brings into scope for a prefix, among literal
elements of which each stands right in the next. -/
def Markup.broughtNearest (qualifier : String) : List Tag → Option String
  | [] => none
  | tag :: around =>
    if StyleEvent.isLanguage tag then none
    else (tag.brings qualifier (StyleEvent.outerScope around)).or (broughtNearest qualifier around)

namespace StyleEvent

open StyleTag (nearest)

variable {excluded : List String} {outer : List Namespace} {tag : Tag} {qualifier uri : String}

theorem mem_declaredIn {ns : Namespace} :
    ns ∈ declaredIn excluded outer tag ↔
      ns ∈ tag.scope ∧ ns.uri ≠ languageUri ∧ ns.uri ≠ Markup.xmlUri ∧ ns ∉ outer ∧
        (some ns.uri = tag.name.uri ∨ isExcluded excluded ns.qualifier = false) := by
  simp [declaredIn, and_assoc]

/-- A prefix stands for one namespace in the scope of a literal element, so only for that one can
it be declared. -/
theorem declaredFor_styleTag (hlanguage : isLanguage tag = false) (hscope : ProperScope tag.scope) :
    (styleTag excluded outer tag).declaredFor qualifier = some uri ↔
      ⟨some qualifier, uri⟩ ∈ declaredIn excluded outer tag := by
  have hnamespaces : (styleTag excluded outer tag).namespaces = declaredIn excluded outer tag := by
    simp [styleTag, hlanguage]
  rw [StyleTag.declaredFor, hnamespaces]
  constructor
  · intro h
    obtain ⟨ns, hfind, rfl⟩ := Option.map_eq_some_iff.1 h
    have hqualifier : ns.qualifier = some qualifier := by simpa using List.find?_some hfind
    rw [← hqualifier]
    exact List.mem_of_find?_eq_some hfind
  · intro hmem
    cases hfind : (declaredIn excluded outer tag).find? fun ns =>
      ns.qualifier == some qualifier with
    | none => simpa using List.find?_eq_none.1 hfind _ hmem
    | some ns =>
        have hqualifier : ns.qualifier = some qualifier := by simpa using List.find?_some hfind
        have hfound : ⟨some qualifier, ns.uri⟩ ∈ tag.scope := by
          rw [← hqualifier]
          exact (mem_declaredIn.1 (List.mem_of_find?_eq_some hfind)).1
        rw [Option.map_some, hscope.unique qualifier _ _ hfound (mem_declaredIn.1 hmem).1]

theorem nearest_met_cons (qualifier : String) (excluded : List String) (tag : Tag)
    (around : List Tag) :
    nearest qualifier (met excluded (tag :: around)) =
      if isLanguage tag then none else
        ((styleTag excluded (outerScope around) tag).declaredFor qualifier).or
          (nearest qualifier (met excluded around)) := by
  rw [nearest, met_cons, List.takeWhile_cons, isLiteral_styleTag]
  cases isLanguage tag with
  | true => rfl
  | false =>
      simp only [Bool.not_false, if_true, List.findSome?_cons]
      cases (styleTag excluded (outerScope around) tag).declaredFor qualifier with
      | some uri => rfl
      | none => rfl

/-! ## Prefixes that are not excluded -/

/-- A prefix that is not excluded is declared where it is brought into scope. -/
theorem declaredFor_of_notMem (hproper : tag.Proper) (hlanguage : isLanguage tag = false)
    (hmem : ⟨some qualifier, uri⟩ ∈ tag.scope) (huri : uri ≠ languageUri)
    (hexcluded : isExcluded excluded (some qualifier) = false)
    (houter : ⟨some qualifier, uri⟩ ∉ outer) :
    (styleTag excluded outer tag).declaredFor qualifier = some uri :=
  (declaredFor_styleTag hlanguage hproper.scope).2
    (mem_declaredIn.2 ⟨hmem, huri, (hproper.scope.declarable _ hmem).2, houter, .inr hexcluded⟩)

/-- No prefix is declared where the namespace that it stands for is in scope around the element. -/
theorem declaredFor_of_mem (hproper : tag.Proper) (hlanguage : isLanguage tag = false)
    (hmem : ⟨some qualifier, uri⟩ ∈ tag.scope) (houter : ⟨some qualifier, uri⟩ ∈ outer) :
    (styleTag excluded outer tag).declaredFor qualifier = none := by
  refine Option.eq_none_iff_forall_ne_some.2 fun uri' h => ?_
  obtain ⟨hmem', -, -, hfresh, -⟩ :=
    mem_declaredIn.1 ((declaredFor_styleTag hlanguage hproper.scope).1 h)
  exact hfresh (hproper.scope.unique qualifier _ _ hmem hmem' ▸ houter)

/-- A prefix that is not excluded is declared by the nearest literal element with a declaration for
it, for the namespace that it stands for in the scope of the innermost one. -/
theorem nearest_met {around : List Tag} (hproper : ∀ other ∈ tag :: around, other.Proper)
    (hlanguage : isLanguage tag = false) (hmem : ⟨some qualifier, uri⟩ ∈ tag.scope)
    (huri : uri ≠ languageUri) (hexcluded : isExcluded excluded (some qualifier) = false) :
    nearest qualifier (met excluded (tag :: around)) = some uri := by
  -- outwards, as long as the literal element right around has the declaration in scope
  induction around generalizing tag with
  | nil =>
      have hdeclared : (styleTag excluded (outerScope []) tag).declaredFor qualifier = some uri :=
        declaredFor_of_notMem (hproper tag List.mem_cons_self) hlanguage hmem huri hexcluded nofun
      rw [nearest_met_cons, hlanguage, hdeclared]
      rfl
  | cons next around ih =>
      rw [nearest_met_cons, hlanguage]
      have htag := hproper tag List.mem_cons_self
      by_cases houter : ⟨some qualifier, uri⟩ ∈ outerScope (next :: around)
      · rw [declaredFor_of_mem htag hlanguage hmem houter]
        rw [outerScope_cons] at houter
        split at houter
        · simp at houter
        · next hnext =>
          exact ih (fun other hother => hproper other (List.mem_cons_of_mem _ hother))
            (by simpa using hnext) houter
      · rw [declaredFor_of_notMem htag hlanguage hmem huri hexcluded houter]
        rfl

/-! ## Excluded prefixes -/

/-- A literal element declares an excluded prefix only for its own namespace, where it brings the
declaration into scope. -/
theorem declaredFor_styleTag_of_isExcluded (hlanguage : isLanguage tag = false)
    (hscope : ProperScope tag.scope) (hexcluded : isExcluded excluded (some qualifier) = true) :
    (styleTag excluded outer tag).declaredFor qualifier = tag.brings qualifier outer := by
  refine Option.ext fun uri => ?_
  rw [declaredFor_styleTag hlanguage hscope, mem_declaredIn, Tag.brings, Option.filter_eq_some_iff]
  simp only [hexcluded, Bool.and_eq_true, List.contains_iff_mem, Bool.not_eq_true']
  constructor
  · rintro ⟨hmem, -, -, houter, hown⟩
    simpa [hmem, houter, eq_comm] using hown
  · rintro ⟨hown, hmem, houter⟩
    refine ⟨hmem, fun hlang => ?_, (hscope.declarable _ hmem).2, by simpa using houter,
      .inl hown.symm⟩
    simp [isLanguage, hown, hlang] at hlanguage

/-- All that literal elements declare for an excluded prefix is what they bring into scope for
themselves. -/
theorem nearest_met_of_isExcluded {tags : List Tag} (hproper : ∀ tag ∈ tags, tag.Proper)
    (hexcluded : isExcluded excluded (some qualifier) = true) :
    nearest qualifier (met excluded tags) = Markup.broughtNearest qualifier tags := by
  induction tags with
  | nil => rfl
  | cons tag around ih =>
      rw [nearest_met_cons, Markup.broughtNearest,
        ih fun other hother => hproper other (List.mem_cons_of_mem _ hother)]
      split
      · rfl
      · next hlanguage =>
        rw [declaredFor_styleTag_of_isExcluded (by simpa using hlanguage)
          (hproper tag List.mem_cons_self).scope hexcluded]

/-! ## The prefixes of reported names -/

/-- A name is reported with a prefix other than `xml` only for a namespace that the prefix stands
for in the scope of the element. -/
theorem mem_scope_of_mem_names {text : String} {report : Report} {name : ExpandedName}
    {written : QName} (hreport : report ∈ reports text) (hname : (name, written) ∈ report.names)
    (hqualifier : written.qualifier = some qualifier) (hxml : qualifier ≠ "xml") :
    ∃ tag around uri, report.tags = tag :: around ∧ isLanguage tag = false ∧
      name.uri = some uri ∧ uri ≠ languageUri ∧ ⟨some qualifier, uri⟩ ∈ tag.scope := by
  obtain ⟨-, hmet, -⟩ := mem_reports hreport
  cases htags : report.tags with
  | nil => simp [Report.names, htags] at hname
  | cons tag around =>
      rw [htags] at hmet
      rw [Report.names, htags, hmet] at hname
      simp only [met_cons, namesOf_styleTag] at hname
      split at hname
      · simp at hname
      · next hlanguage =>
        obtain ⟨name', hname', hpair⟩ := List.mem_map.1 hname
        obtain ⟨rfl, rfl⟩ := Prod.mk.inj hpair
        obtain ⟨uri, huri, hfound⟩ := Option.bind_eq_some_iff.1 hqualifier
        refine ⟨tag, around, uri, rfl, by simpa using hlanguage, huri, ?_,
          ProperScope.mem_of_qualifierOf hfound hxml⟩
        rintro rfl
        obtain rfl | hattr := List.mem_cons.1 hname'
        · simp [isLanguage, huri] at hlanguage
        · simpa [huri] using (List.mem_filter.1 hattr).2

/-- The prefix of a reported name is declared for the namespace of the name by the nearest literal
element that declares it, unless it is excluded and the nearest literal element that brings it into
scope for itself is missing or is in another namespace. -/
theorem nearest_iff {text : String} {report : Report} {name : ExpandedName} {written : QName}
    (hreport : report ∈ reports text) (hname : (name, written) ∈ report.names)
    (hqualifier : written.qualifier = some qualifier) (hxml : qualifier ≠ "xml") :
    ∃ uri, name.uri = some uri ∧
      (nearest qualifier report.met = some uri ↔
        isExcluded (excludedIn report.tags) (some qualifier) = false ∨
          Markup.broughtNearest qualifier report.tags = some uri) := by
  obtain ⟨-, hmet, hproper⟩ := mem_reports hreport
  obtain ⟨tag, around, uri, htags, hlanguage, huri, hnot, hmem⟩ :=
    mem_scope_of_mem_names hreport hname hqualifier hxml
  refine ⟨uri, huri, ?_⟩
  rw [hmet]
  cases hexcluded : isExcluded (excludedIn report.tags) (some qualifier) with
  | true =>
      rw [nearest_met_of_isExcluded hproper hexcluded]
      simp
  | false =>
      rw [htags] at hproper hexcluded ⊢
      simpa using nearest_met hproper hlanguage hmem hnot hexcluded

/-! ### A prefix that nothing declares -/

/-- A stylesheet that excludes a prefix, with a literal element in the namespace of the prefix
inside another one that is in no namespace. -/
def innerPrefix : String :=
  "<xsl:stylesheet version='1.0' xmlns:xsl='http://www.w3.org/1999/XSL/Transform' " ++
    "xmlns:p='urn:p' exclude-result-prefixes='p'><xsl:template match='/'>" ++
    "<out><p:in/></out></xsl:template></xsl:stylesheet>"

theorem exists_name_innerPrefix : ∃ report ∈ reports innerPrefix, ∃ name ∈ report.names,
    name.2.qualifier = some "p" ∧ name.1.uri = some "urn:p" ∧ nearest "p" report.met = none := by
  decide +kernel

/-- The prefix is reported in the name of the inner element, and its declaration is not, because the
outer one has it in scope. -/
theorem nearest_iff_innerPrefix : ∃ report ∈ reports innerPrefix, ∃ name ∈ report.names,
    name.2.qualifier = some "p" ∧ "p" ≠ "xml" ∧ ∃ uri, name.1.uri = some uri ∧
      (nearest "p" report.met = some uri ↔
        isExcluded (excludedIn report.tags) (some "p") = false ∨
          Markup.broughtNearest "p" report.tags = some uri) := by
  obtain ⟨report, hreport, name, hname, hqualifier, -, -⟩ := exists_name_innerPrefix
  have hxml : "p" ≠ "xml" := by decide
  exact ⟨report, hreport, name, hname, hqualifier, hxml,
    nearest_iff hreport hname hqualifier hxml⟩

/-- Not every prefix of a reported name is declared for the namespace of the name. -/
theorem nearest_undeclared : ¬ ∀ (text : String) (report : Report) (name : ExpandedName)
    (written : QName) (qualifier uri : String), report ∈ reports text →
      (name, written) ∈ report.names → written.qualifier = some qualifier → qualifier ≠ "xml" →
        name.uri = some uri → nearest qualifier report.met = some uri := by
  intro h
  obtain ⟨report, hreport, name, hname, hqualifier, huri, hnearest⟩ := exists_name_innerPrefix
  have hdeclared := h innerPrefix report name.1 name.2 "p" "urn:p" hreport hname hqualifier
    (by decide) huri
  rw [hnearest] at hdeclared
  cases hdeclared

end StyleEvent

end Restyle
