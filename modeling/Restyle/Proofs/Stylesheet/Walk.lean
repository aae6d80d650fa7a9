import Restyle.Stylesheet.Event
import Restyle.Proofs.Markup.Scope

/-!
# Restyle.Proofs.Stylesheet.Walk

What is met in a stylesheet, element by element.

Each start tag that is met stands for an element of the markup, and the start tags open around it
stand for the elements around that one.  A `Report` holds the two side by side, and it is known for
every report what each of its start tags says.

* `StyleEvent.chains`, `Markup.Item.chains` — start tags and elements with all around them;
* `StyleEvent.chains_ofItem` — the start tags that stand for the elements of the markup;
* `StyleEvent.reports` — what is reported of the elements of a stylesheet;
* `StyleEvent.mem_reports` — every report is of proper tags and says what the markup means.
-/

namespace Restyle

open Markup (Item Namespace ExpandedName Tag)

/-! ## Elements with those around them -/

mutual

/-- The tag of each element in a part of a document, in front of those of the elements around it,
innermost first. -/
def Markup.Item.chains (around : List Tag) : Item → List (List Tag)
  | .element tag children => (tag :: around) :: chainsIn (tag :: around) children
  | .text .. | .comment _ | .instruction .. => []

/-- The tag of each element in parts of a document, in front of those of the elements around it. -/
def Markup.chainsIn (around : List Tag) : List Item → List (List Tag)
  | [] => []
  | item :: items => item.chains around ++ chainsIn around items

end

/-- The tag of each element in the document element, in front of those of the elements around
it. -/
def Markup.documentChains : List Item → List (List Tag)
  | [] => []
  | .element tag children :: _ => Item.chains [] (.element tag children)
  | _ :: items => documentChains items

mutual

/-- The elements around a part of a document are around every element in it. -/
theorem Markup.Item.suffix_of_mem_chains {around chain : List Tag} :
    ∀ {item : Item}, chain ∈ item.chains around → around <:+ chain
  | .element tag children, h => by
      rw [Item.chains, List.mem_cons] at h
      obtain rfl | h := h
      · exact List.suffix_cons tag around
      · exact (List.suffix_cons tag around).trans (suffix_of_mem_chainsIn h)
  | .text .., h => by simp [Item.chains] at h
  | .comment _, h => by simp [Item.chains] at h
  | .instruction .., h => by simp [Item.chains] at h

theorem Markup.suffix_of_mem_chainsIn {around chain : List Tag} :
    ∀ {items : List Item}, chain ∈ chainsIn around items → around <:+ chain
  | [], h => by simp [chainsIn] at h
  | item :: items, h => by
      rw [chainsIn, List.mem_append] at h
      obtain h | h := h
      · exact Item.suffix_of_mem_chains h
      · exact suffix_of_mem_chainsIn h

end

/-- An element is around all elements in it. -/
theorem Markup.Item.suffix_of_mem_chains_element {tag : Tag} {children : List Item}
    {chain : List Tag} (h : chain ∈ Item.chains [] (.element tag children)) : [tag] <:+ chain := by
  rw [Item.chains, List.mem_cons] at h
  obtain rfl | h := h
  · exact List.suffix_refl _
  · exact suffix_of_mem_chainsIn h

mutual

/-- What is true of all tags in a part of a document is true along each chain in it. -/
theorem Markup.Item.AllTags.of_mem_chains {P : Tag → Prop} {around chain : List Tag}
    (haround : ∀ tag ∈ around, P tag) :
    ∀ {item : Item}, item.AllTags P → chain ∈ item.chains around → ∀ tag ∈ chain, P tag
  | .element tag children, h, hchain => by
      rw [Item.AllTags] at h
      rw [Item.chains, List.mem_cons] at hchain
      have hinner : ∀ other ∈ tag :: around, P other := List.forall_mem_cons.2 ⟨h.1, haround⟩
      obtain rfl | hchain := hchain
      · exact hinner
      · exact AllTagsIn.of_mem_chainsIn hinner h.2 hchain
  | .text .., _, hchain => by simp [Item.chains] at hchain
  | .comment _, _, hchain => by simp [Item.chains] at hchain
  | .instruction .., _, hchain => by simp [Item.chains] at hchain

theorem Markup.AllTagsIn.of_mem_chainsIn {P : Tag → Prop} {around chain : List Tag}
    (haround : ∀ tag ∈ around, P tag) :
    ∀ {items : List Item}, AllTagsIn P items → chain ∈ chainsIn around items → ∀ tag ∈ chain, P tag
  | [], _, hchain => by simp [chainsIn] at hchain
  | item :: items, h, hchain => by
      rw [AllTagsIn] at h
      rw [chainsIn, List.mem_append] at hchain
      obtain hchain | hchain := hchain
      · exact Item.AllTags.of_mem_chains haround h.1 hchain
      · exact AllTagsIn.of_mem_chainsIn haround h.2 hchain

end

/-- The outermost element of each chain is the document element. -/
theorem Markup.ne_nil_of_mem_documentChains {items : List Item} {chain : List Tag}
    (h : chain ∈ documentChains items) : chain ≠ [] := by
  induction items with
  | nil => simp [documentChains] at h
  | cons item items ih =>
      cases item with
      | element tag children =>
          rintro rfl
          simpa using (Item.suffix_of_mem_chains_element h).length_le
      | text | comment | instruction => exact ih h

theorem Markup.AllTagsIn.of_mem_documentChains {P : Tag → Prop} {chain : List Tag}
    {items : List Item} (h : AllTagsIn P items) (hchain : chain ∈ documentChains items) :
    ∀ tag ∈ chain, P tag := by
  induction items with
  | nil => simp [documentChains] at hchain
  | cons item items ih =>
      rw [AllTagsIn] at h
      cases item with
      | element tag children => exact Item.AllTags.of_mem_chains (List.forall_mem_nil _) h.1 hchain
      | text | comment | instruction => exact ih h.2 hchain

/-- Whether a start tag is that of a literal element. -/
def StyleTag.isLiteral (tag : StyleTag) : Bool :=
  match tag.name with
  | .literal _ => true
  | .language _ => false

namespace StyleEvent

theorem isLiteral_styleTag (excluded : List String) (outer : List Namespace) (tag : Tag) :
    (styleTag excluded outer tag).isLiteral = !isLanguage tag := by
  unfold styleTag
  split
  · next h => simp [StyleTag.isLiteral, h]
  · next h => simp [StyleTag.isLiteral, h]

/-! ## Start tags with those around them -/

/-- Each start tag that is met, in front of the start tags that are still open, innermost first. -/
def chains (opened : List StyleTag) : List StyleEvent → List (List StyleTag)
  | [] => []
  | .start tag :: events => (tag :: opened) :: chains (tag :: opened) events
  | .text .. :: events => chains opened events
  | .stop :: events => chains opened.tail events

/-- The namespaces that a literal element need not declare inside these elements: those in scope
for the innermost one, if it is literal. -/
def outerScope : List Tag → List Namespace
  | [] => []
  | tag :: _ => if isLanguage tag then [] else tag.scope

@[simp] theorem outerScope_cons (tag : Tag) (around : List Tag) :
    outerScope (tag :: around) = if isLanguage tag then [] else tag.scope := rfl

/-- What is met for an element and those around it. -/
def met (excluded : List String) : List Tag → List StyleTag
  | [] => []
  | tag :: around => styleTag excluded (outerScope around) tag :: met excluded around

@[simp] theorem met_cons (excluded : List String) (tag : Tag) (around : List Tag) :
    met excluded (tag :: around) =
      styleTag excluded (outerScope around) tag :: met excluded around := rfl

mutual

/-- The start tags that are met in a part of a stylesheet stand for its elements. -/
theorem chains_ofItem (excluded : List String) (around : List Tag) (rest : List StyleEvent) :
    ∀ item : Item, chains (met excluded around)
        (ofItem excluded (outerScope around) item ++ rest) =
      (item.chains around).map (met excluded) ++ chains (met excluded around) rest
  | .element tag children => by
      have hchildren := chains_ofItems excluded (tag :: around) (.stop :: rest) children
      simp only [met_cons, outerScope_cons] at hchildren
      simp [ofItem, Item.chains, chains, hchildren]
  | .text .. => rfl
  | .comment _ => rfl
  | .instruction .. => rfl

theorem chains_ofItems (excluded : List String) (around : List Tag) (rest : List StyleEvent) :
    ∀ items : List Item, chains (met excluded around)
        (ofItems excluded (outerScope around) items ++ rest) =
      (Markup.chainsIn around items).map (met excluded) ++ chains (met excluded around) rest
  | [] => rfl
  | item :: items => by
      rw [ofItems, List.append_assoc, chains_ofItem excluded around _ item,
        chains_ofItems excluded around rest items, Markup.chainsIn, List.map_append,
        List.append_assoc]

end

/-- The prefixes that the outermost of these elements excludes. -/
def excludedIn (tags : List Tag) : List String :=
  match tags.getLast? with
  | some tag => excludedBy tag
  | none => []

theorem excludedIn_append_singleton (tags : List Tag) (tag : Tag) :
    excludedIn (tags ++ [tag]) = excludedBy tag := by
  simp [excludedIn]

/-- The start tags that are met in a stylesheet stand for the elements of its markup. -/
theorem chains_ofDocument (items : List Item) :
    chains [] (ofDocument items) =
      (Markup.documentChains items).map fun tags => met (excludedIn tags) tags := by
  induction items with
  | nil => rfl
  | cons item items ih =>
      cases item with
      | element tag children =>
          have hitem := chains_ofItem (excludedBy tag) [] [] (.element tag children)
          simp only [List.append_nil] at hitem
          refine hitem.trans (Eq.trans ?_ (List.append_nil _))
          refine congrArg (· ++ []) (List.map_congr_left fun tags htags => ?_)
          obtain ⟨inner, rfl⟩ := Markup.Item.suffix_of_mem_chains_element htags
          rw [excludedIn_append_singleton]
      | text | comment | instruction => exact ih

/-! ## Reports -/

/-- An element of a stylesheet and what is met for it. -/
structure Report where
  /-- The tag of the element, and those of the elements around it, innermost first. -/
  tags : List Tag
  /-- The start tag that is met for the element, and those still open, innermost first. -/
  met : List StyleTag

/-- What is reported of the elements of a stylesheet, in order. -/
def reports (text : String) : List Report :=
  match Markup.read text with
  | some items =>
    List.zipWith Report.mk (Markup.documentChains items) (chains [] (ofDocument items))
  | none => []

/-- The names of the attributes of an element that are outside the stylesheet language. -/
def namesOutside (tag : Tag) : List ExpandedName :=
  (tag.attributes.map Prod.fst).filter fun name => name.uri != some languageUri

/-- The names of an element and its attributes, each with the one that is reported, if the element
is reported as a literal one. -/
def namesOf (tag : Tag) (met : StyleTag) : List (ExpandedName × QName) :=
  match met.name with
  | .language _ => []
  | .literal name => (tag.name, name) :: (namesOutside tag).zip (met.attributes.map Attribute.name)

/-- The names of a literal element and its attributes, each with the one that is reported. -/
def Report.names (report : Report) : List (ExpandedName × QName) :=
  match report.tags, report.met with
  | tag :: _, met :: _ => namesOf tag met
  | _, _ => []

/-- Each element is reported with what it means. -/
theorem reports_of_read {text : String} {items : List Item} (h : Markup.read text = some items) :
    reports text = (Markup.documentChains items).map fun tags =>
      ⟨tags, met (excludedIn tags) tags⟩ := by
  simp only [reports, h]
  rw [chains_ofDocument, List.zipWith_map_right, List.zipWith_self]

/-- All start tags that are met are reported. -/
theorem met_reports {text : String} {items : List Item} (h : Markup.read text = some items) :
    (reports text).map Report.met = chains [] (ofDocument items) := by
  rw [reports_of_read h, chains_ofDocument, List.map_map]
  rfl

/-- A report is of proper tags and says what they mean. -/
theorem mem_reports {text : String} {report : Report} (h : report ∈ reports text) :
    report.tags ≠ [] ∧ report.met = met (excludedIn report.tags) report.tags ∧
      ∀ tag ∈ report.tags, tag.Proper := by
  cases hread : Markup.read text with
  | none => simp [reports, hread] at h
  | some items =>
      rw [reports_of_read hread] at h
      obtain ⟨tags, htags, rfl⟩ := List.mem_map.1 h
      exact ⟨Markup.ne_nil_of_mem_documentChains htags, rfl,
        (Markup.proper_read hread).of_mem_documentChains htags⟩

/-- The attributes of a literal element are reported with the prefixes that are found for their
namespaces. -/
theorem attributeNames_styleTag (excluded : List String) (outer : List Namespace) {tag : Tag}
    (h : isLanguage tag = false) :
    (styleTag excluded outer tag).attributes.map Attribute.name =
      (namesOutside tag).map (Tag.qualified tag.scope) := by
  unfold styleTag namesOutside
  rw [if_neg (by simp [h]), List.filter_map, List.map_map, List.map_map]
  rfl

theorem namesOf_styleTag (excluded : List String) (outer : List Namespace) (tag : Tag) :
    namesOf tag (styleTag excluded outer tag) =
      if isLanguage tag then [] else
        (tag.name :: namesOutside tag).map fun name => (name, Tag.qualified tag.scope name) := by
  split
  · next hlanguage => simp [namesOf, styleTag, hlanguage]
  · next hlanguage =>
    have hname : (styleTag excluded outer tag).name =
        .literal (Tag.qualified tag.scope tag.name) := by simp [styleTag, hlanguage]
    simp only [namesOf, hname]
    rw [attributeNames_styleTag excluded outer (by simpa using hlanguage), List.map_cons]
    exact congrArg _ List.map_prod_left_eq_zip.symm

end StyleEvent

end Restyle
