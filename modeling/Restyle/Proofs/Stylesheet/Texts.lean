import Mathlib
import Restyle.Proofs.Rules
import Restyle.Proofs.Stylesheet.Filling

/-!
# Restyle.Proofs.Stylesheet.Texts

Which texts of a stylesheet count, and where they go.

White space between the elements of a stylesheet is for its reader, and only texts that hold something
else become instructions, but for those in `xsl:text`.  What counts as white space here are the
characters with the Unicode property, the no-break space among them, and not only those that markup
has for it.

* `Assembly.Collects` — what a stylesheet has been given at its top;
* `Assembly.collects_ofItems` — the run over the elements at the top;
* `Stylesheet.layouts_of_ofText` — the main result.
-/

namespace Restyle

open Markup (Item Tag Place)
open Layout (language laidOut)

namespace Assembly

variable {a a' : Assembly} {k : Construct} {p : Place} {tag : StyleTag}

/-! ## What means nothing -/

mutual

/-- Whatever is met in an element that means nothing leaves no trace. -/
theorem foldlM_ofItem_ignored (excluded : List String) (outer : List Markup.Namespace) :
    ∀ (item : Item) (a : Assembly) (p : Place) (b : List Instruction),
      (StyleEvent.ofItem excluded outer item).foldlM meet (a.within .ignored p b) =
        .ok (a.within .ignored p b)
  | .element tag children, a, p, b => by
      rw [StyleEvent.ofItem, List.foldlM_cons, meet]
      change List.foldlM meet ((a.within .ignored p b).within .ignored _ []) _ = _
      rw [List.foldlM_append, foldlM_ofItems_ignored excluded _ children]
      rfl
  | .text .., _, _, _ => rfl
  | .comment _, _, _, _ => rfl
  | .instruction .., _, _, _ => rfl

theorem foldlM_ofItems_ignored (excluded : List String) (outer : List Markup.Namespace) :
    ∀ (items : List Item) (a : Assembly) (p : Place) (b : List Instruction),
      (StyleEvent.ofItems excluded outer items).foldlM meet (a.within .ignored p b) =
        .ok (a.within .ignored p b)
  | [], _, _, _ => rfl
  | item :: items, a, p, b => by
      rw [StyleEvent.ofItems, List.foldlM_append, foldlM_ofItem_ignored excluded outer item]
      exact foldlM_ofItems_ignored excluded outer items a p b

end

/-! ## The top of a stylesheet -/

/-- The construct that an element at the top opens, with whatever has been met in it. -/
inductive Heads : StyleName → Construct → Prop where
  | ignored {name} : Heads (.literal name) .ignored
  | template {name pattern mode priority params hasContent} :
    Heads (.language "template") (.template name pattern mode priority params hasContent)
  | param {name select} : Heads (.language "param") (.param name select true)
  | variable {name select} : Heads (.language "variable") (.variable name select true)
  | setting {localPart element} (h : localPart ∈ ["output", "strip-space", "preserve-space"]) :
    Heads (.language localPart) (.empty element none)

theorem Heads.grows {name : StyleName} {k' : Construct} (h : Heads name k) (hgrows : k.Grows k') :
    Heads name k' := by
  cases h with
  | ignored => cases hgrows; exact .ignored
  | template => cases hgrows <;> exact .template
  | param => cases hgrows; exact .param
  | «variable» => cases hgrows; exact .variable
  | setting h => cases hgrows; exact .setting h

theorem exists_of_templateConstruct (h : tag.templateConstruct = .ok k) :
    ∃ name pattern mode priority, k = .template name pattern mode priority [] false := by
  unfold StyleTag.templateConstruct at h
  dsimp only at h
  split at h
  · cases h
  · split at h
    · cases h
    · obtain ⟨priority, -, h⟩ := bind_eq_ok.1 h
      split at h
      · obtain ⟨pattern, -, h⟩ := bind_eq_ok.1 h
        exact ⟨_, _, _, _, (Except.ok.inj h).symm⟩
      · obtain ⟨pattern, -, h⟩ := bind_eq_ok.1 h
        exact ⟨_, _, _, _, (Except.ok.inj h).symm⟩

/-- A start tag at the top opens a construct for its element, and may change the form of the
result. -/
theorem heads_of_start (h : (a.within .stylesheet p []).start tag = .ok a') :
    ∃ output k, a' = (({ a with output := output } : Assembly).within .stylesheet p []).within k
        tag.place [] ∧ Heads tag.name k ∧ k.inside [] = [] := by
  have hsetting {localPart : String} {element : String}
      (hname : localPart ∈ ["output", "strip-space", "preserve-space"]) (output : OutputForm) :
      ∃ output' k, (({ a with output := output } : Assembly).within .stylesheet p []).push
          (.empty element none) tag.place =
        (({ a with output := output' } : Assembly).within .stylesheet p []).within k tag.place [] ∧
          Heads (.language localPart) k ∧ k.inside [] = [] :=
    ⟨output, _, rfl, .setting hname, rfl⟩
  have hlanguage {localPart : String}
      (h : (a.within .stylesheet p []).startLanguage tag localPart = .ok a') :
      ∃ output k, a' = (({ a with output := output } : Assembly).within .stylesheet p []).within k
        tag.place [] ∧ Heads (.language localPart) k ∧ k.inside [] = [] := by
    unfold startLanguage at h
    split at h
    · obtain ⟨⟨⟩, -, h⟩ := bind_eq_ok.1 h
      obtain ⟨k, hk, h⟩ := bind_eq_ok.1 h
      obtain rfl := Except.ok.inj h
      obtain ⟨name, pattern, mode, priority, rfl⟩ := exists_of_templateConstruct hk
      exact ⟨a.output, _, rfl, .template, rfl⟩
    · obtain ⟨⟨⟩, -, h⟩ := bind_eq_ok.1 h
      obtain ⟨form, -, h⟩ := bind_eq_ok.1 h
      obtain rfl := Except.ok.inj h
      exact hsetting (by decide) form
    · obtain ⟨⟨⟩, -, h⟩ := bind_eq_ok.1 h
      obtain rfl := Except.ok.inj h
      exact hsetting (by decide) a.output
    · obtain ⟨⟨⟩, -, h⟩ := bind_eq_ok.1 h
      obtain rfl := Except.ok.inj h
      exact hsetting (by decide) a.output
    · obtain ⟨isGlobal, hglobal, h⟩ := bind_eq_ok.1 h
      obtain rfl := Except.ok.inj hglobal
      obtain ⟨named, -, h⟩ := bind_eq_ok.1 h
      obtain rfl := Except.ok.inj h
      exact ⟨a.output, _, rfl, .param, rfl⟩
    · obtain ⟨begun, hbegun, h⟩ := bind_eq_ok.1 h
      obtain rfl := Except.ok.inj hbegun
      obtain ⟨named, -, h⟩ := bind_eq_ok.1 h
      obtain rfl := Except.ok.inj h
      exact ⟨a.output, _, rfl, .variable, rfl⟩
    · cases h
    · obtain ⟨key, -, h⟩ := bind_eq_ok.1 h
      cases h
    · cases h
    · cases h
    · split at h
      · cases h
      · cases h
  unfold start at h
  rw [parent_within] at h
  cases hname : tag.name with
  | language localPart =>
      rw [hname] at h
      exact hlanguage h
  | literal name =>
      rw [hname] at h
      obtain rfl := Except.ok.inj h
      exact ⟨a.output, _, rfl, .ignored, rfl⟩

/-- What a stylesheet has been given at its top: templates, in order, and variables and parameters,
laid out like this. -/
structure Collects (a : Assembly) (new : List Layout) (a' : Assembly) : Prop where
  opened : a'.opened = a.opened
  bodies : a'.bodies = a.bodies
  rules : ∃ templates : List Template,
    templates.foldlM (fun (rules : Rules) template => rules.add template) a.rules = .ok a'.rules ∧
      templates.map Template.layout = new.filter (Layout.isAmong ["template"])
  globals : a'.globals.map Global.layout =
    a.globals.map Global.layout ++ new.filter (Layout.isAmong ["param", "variable"])

theorem Collects.refl (a : Assembly) : a.Collects [] a :=
  ⟨rfl, rfl, ⟨[], rfl, rfl⟩, (List.append_nil _).symm⟩

/-- The form of the result has nothing to do with what has been given. -/
theorem Collects.of_output {output : OutputForm} {new : List Layout}
    (h : ({ a with output := output } : Assembly).Collects new a') : a.Collects new a' :=
  ⟨h.opened, h.bodies, h.rules, h.globals⟩

theorem Collects.append {a'' : Assembly} {first second : List Layout} (h : a.Collects first a')
    (h' : a'.Collects second a'') : a.Collects (first ++ second) a'' := by
  obtain ⟨templates, hadded, htemplates⟩ := h.rules
  obtain ⟨templates', hadded', htemplates'⟩ := h'.rules
  refine ⟨h'.opened.trans h.opened, h'.bodies.trans h.bodies, ⟨templates ++ templates', ?_, ?_⟩, ?_⟩
  · rw [List.foldlM_append, hadded]
    exact hadded'
  · rw [List.map_append, htemplates, htemplates', List.filter_append]
  · rw [h'.globals, h.globals, List.filter_append, List.append_assoc]

theorem Heads.eq_ignored {name : StyleName} (h : Heads name k) (hk : ¬k.isInner = true) :
    (∃ literal, name = .literal literal) ∧ k = .ignored := by
  cases h with
  | ignored => exact ⟨⟨_, rfl⟩, rfl⟩
  | _ => exact absurd rfl hk

theorem Heads.counts_eq {name : StyleName} (h : Heads name k) (hk : k.isInner = true) :
    k.counts = countsIn name (Text.holdsOther Text.isBlank) := by
  funext content
  cases h with
  | ignored => cases hk
  | setting hname =>
      obtain rfl | rfl | rfl : _ = "output" ∨ _ = "strip-space" ∨ _ = "preserve-space" := by
        simpa using hname
      all_goals simp [Construct.counts, countsIn]
  | _ => simp [Construct.counts, countsIn]

/-- Closing a construct at the top gives the stylesheet what has been met in it. -/
theorem collects_of_close {name : StyleName} {body : List Instruction} {place : Place}
    (hheads : Heads name k) (hinner : k.isInner = true)
    (h : (a.within .stylesheet p []).close place body k = .ok a') :
    ∃ a'', a' = a''.within .stylesheet p [] ∧ a.Collects (laidOut name (k.inside body)) a'' := by
  have hnew {new : Global} (hadded : (a.within .stylesheet p []).addGlobal place new = .ok a') :
      ∃ a'', a' = a''.within .stylesheet p [] ∧ a.Collects [new.layout] a'' := by
    unfold addGlobal at hadded
    split at hadded
    · cases hadded
    · obtain rfl := Except.ok.inj hadded
      refine ⟨{ a with globals := a.globals ++ [new] }, rfl, rfl, rfl, ⟨[], rfl, ?_⟩, ?_⟩
      · cases hparam : new.isParam <;> simp [Global.layout, hparam, Layout.isAmong]
      · rw [List.map_append]
        cases hparam : new.isParam <;> simp [Global.layout, hparam, Layout.isAmong]
  cases hheads with
  | ignored => cases hinner
  | @template name pattern mode priority params hasContent =>
      obtain ⟨rules, hrules, h⟩ := bind_eq_ok.1 h
      obtain rfl := Except.ok.inj h
      rw [laidOut_of_ne (by simp) (by simp)]
      refine ⟨{ a with rules := rules }, rfl, rfl, rfl,
        ⟨[⟨name, pattern, mode, priority, params, body⟩], ?_, ?_⟩, ?_⟩
      · rw [List.foldlM_cons]
        exact bind_eq_ok.2 ⟨rules, mapError_eq_ok.1 hrules, rfl⟩
      · rfl
      · exact (List.append_nil _).symm
  | param | «variable» =>
      obtain ⟨value, hvalue, h⟩ := bind_eq_ok.1 h
      rw [laidOut_of_ne (by simp) (by simp)]
      obtain ⟨a'', rfl, hcollects⟩ := hnew h
      rw [Global.layout, sourceLayouts_of_valueSource hvalue] at hcollects
      exact ⟨a'', rfl, hcollects⟩
  | setting hname =>
      obtain rfl := Except.ok.inj h
      refine ⟨a, rfl, rfl, rfl, ⟨[], rfl, ?_⟩, ?_⟩
      all_goals
        obtain rfl | rfl | rfl : _ = "output" ∨ _ = "strip-space" ∨ _ = "preserve-space" := by
          simpa using hname
        all_goals simp [laidOut, Layout.isAmong]

/-- What is met of a part at the top of a stylesheet is given to it as it stands in the markup. -/
theorem collects_ofItem (excluded : List String) (outer : List Markup.Namespace) (item : Item)
    (h : (StyleEvent.ofItem excluded outer item).foldlM meet (a.within .stylesheet p []) = .ok a') :
    ∃ a'', a' = a''.within .stylesheet p [] ∧
      a.Collects (item.layouts (Text.holdsOther Text.isBlank)) a'' := by
  cases item with
  | element tag children =>
      rw [StyleEvent.ofItem, List.foldlM_cons] at h
      obtain ⟨opened, hopened, h⟩ := bind_eq_ok.1 h
      obtain ⟨output, k, rfl, hheads, hfresh⟩ := heads_of_start hopened
      rw [StyleEvent.name_styleTag] at hheads
      rw [List.foldlM_append] at h
      obtain ⟨filled, hfilled, h⟩ := bind_eq_ok.1 h
      rw [List.foldlM_cons] at h
      obtain ⟨closed, hclosed, h⟩ := bind_eq_ok.1 h
      obtain rfl := Except.ok.inj h
      rw [Item.layouts]
      by_cases hinner : k.isInner = true
      · obtain ⟨k', body, rfl, hgrows, -, hinside⟩ :=
          lays_ofItems excluded _ children hinner k.fits_nil hfilled
        change Assembly.close _ _ body.reverse k' = .ok closed at hclosed
        obtain ⟨a'', rfl, hcollects⟩ := collects_of_close (hheads.grows hgrows)
          (hgrows.isInner_eq.trans hinner) hclosed
        rw [hinside, List.reverse_nil, hfresh, List.nil_append, hheads.counts_eq hinner]
          at hcollects
        exact ⟨a'', rfl, hcollects.of_output⟩
      · obtain ⟨⟨name, hname⟩, rfl⟩ := hheads.eq_ignored hinner
        rw [foldlM_ofItems_ignored] at hfilled
        obtain rfl := Except.ok.inj hfilled
        obtain rfl := Except.ok.inj hclosed
        rw [hname, laidOut_of_ne (by simp) (by simp)]
        exact ⟨{ a with output := output }, rfl, rfl, rfl, ⟨[], rfl, rfl⟩,
          (List.append_nil _).symm⟩
  | text content place =>
      rw [StyleEvent.ofItem, List.foldlM_cons] at h
      obtain ⟨met, hmet, h⟩ := bind_eq_ok.1 h
      obtain rfl := Except.ok.inj h
      change (a.within .stylesheet p []).text content place = _ at hmet
      rw [Item.layouts, Text.holdsOther]
      unfold text at hmet
      rw [parent_within] at hmet
      dsimp only at hmet
      split at hmet
      · next hblank =>
        obtain rfl := Except.ok.inj hmet
        rw [hblank]
        exact ⟨a, rfl, .refl a⟩
      · cases hmet
  | comment | instruction =>
      obtain rfl := Except.ok.inj h
      exact ⟨a, rfl, .refl a⟩

theorem collects_ofItems (excluded : List String) (outer : List Markup.Namespace)
    (items : List Item) (h : (StyleEvent.ofItems excluded outer items).foldlM meet
      (a.within .stylesheet p []) = .ok a') :
    ∃ a'', a' = a''.within .stylesheet p [] ∧
      a.Collects (Markup.layoutsIn (Text.holdsOther Text.isBlank) items) a'' := by
  induction items generalizing a with
  | nil =>
      obtain rfl := Except.ok.inj h
      exact ⟨a, rfl, .refl a⟩
  | cons item items ih =>
      rw [StyleEvent.ofItems, List.foldlM_append] at h
      obtain ⟨met, hmet, h⟩ := bind_eq_ok.1 h
      obtain ⟨a'', rfl, hcollects⟩ := collects_ofItem excluded outer item hmet
      obtain ⟨final, rfl, hrest⟩ := ih h
      rw [Markup.layoutsIn]
      exact ⟨final, rfl, hcollects.append hrest⟩

/-- The document element is met as a stylesheet or not at all. -/
theorem exists_of_start_empty (h : empty.start tag = .ok a) :
    ∃ place, a = empty.within .stylesheet place [] := by
  change empty.startDocument _ = _ at h
  unfold startDocument at h
  split at h
  · split at h
    · exact ⟨_, (Except.ok.inj h).symm⟩
    · cases h
  · cases h

/-- What is met of the document element is what stands at the top of the stylesheet. -/
theorem collects_ofDocument {items : List Item}
    (h : (StyleEvent.ofDocument items).foldlM meet empty = .ok a) :
    empty.Collects (Markup.layoutsIn (Text.holdsOther Text.isBlank)
      (Markup.documentChildren items)) a := by
  induction items with
  | nil =>
      obtain rfl := Except.ok.inj h
      exact .refl empty
  | cons item items ih =>
      cases item with
      | text | comment | instruction => exact ih h
      | element tag children =>
          rw [StyleEvent.ofDocument, StyleEvent.ofItem, List.foldlM_cons] at h
          obtain ⟨opened, hopened, h⟩ := bind_eq_ok.1 h
          obtain ⟨place, rfl⟩ := exists_of_start_empty hopened
          rw [List.foldlM_append] at h
          obtain ⟨filled, hfilled, h⟩ := bind_eq_ok.1 h
          obtain ⟨a', rfl, hcollects⟩ := collects_ofItems _ _ children hfilled
          rw [List.foldlM_cons] at h
          obtain ⟨closed, hclosed, h⟩ := bind_eq_ok.1 h
          obtain rfl := Except.ok.inj h
          obtain rfl := Except.ok.inj hclosed
          exact hcollects

end Assembly

/-- **Where the texts of a stylesheet go.**  A stylesheet is made of templates, added one after the
other, and of variables and parameters, and each has the layout of its element in the markup: every
element in it is an instruction, a parameter or a branch at the same place, and so is every text that
stands in `xsl:text` or holds a character which is not white space by its Unicode property.  All other
texts leave nothing. -/
theorem Stylesheet.layouts_of_ofText {text : String} {sheet : Stylesheet}
    (h : Stylesheet.ofText text = .ok sheet) :
    ∃ (items : List Item) (templates : List Template), Markup.read text = some items ∧
      templates.foldlM (fun (rules : Rules) template => rules.add template) .empty =
        .ok sheet.rules ∧
      templates.map Template.layout =
        (Markup.layoutsIn (Text.holdsOther Text.isBlank) (Markup.documentChildren items)).filter
          (Layout.isAmong ["template"]) ∧
      sheet.globals.map Global.layout =
        (Markup.layoutsIn (Text.holdsOther Text.isBlank) (Markup.documentChildren items)).filter
          (Layout.isAmong ["param", "variable"]) := by
  unfold Stylesheet.ofText at h
  cases hread : Markup.read text with
  | none =>
      rw [StyleEvent.ofText?, hread] at h
      cases h
  | some items =>
      rw [StyleEvent.ofText?, hread] at h
      obtain ⟨a, hmet, hfinish⟩ := bind_eq_ok.1 h
      have hcollects := Assembly.collects_ofDocument hmet
      obtain ⟨templates, hadded, htemplates⟩ := hcollects.rules
      obtain rfl : (⟨a.rules, a.globals, a.output⟩ : Stylesheet) = sheet := by
        unfold Assembly.finish at hfinish
        split at hfinish
        · exact Except.ok.inj hfinish
        · cases hfinish
      exact ⟨items, templates, rfl, hadded, htemplates, hcollects.globals⟩

/-- A stylesheet with white space of three kinds: around its elements, in `xsl:text`, and a no-break
space in an element. -/
def spaced : String :=
  "<xsl:stylesheet version='1.0' xmlns:xsl='http://www.w3.org/1999/XSL/Transform'> " ++
    "<xsl:template match='/'> <a>\u00a0</a> <b><xsl:text> </xsl:text>x</b> </xsl:template> " ++
    "</xsl:stylesheet>"

/-- Its template without the no-break space. -/
def withoutNoBreakSpace : Layout :=
  language "template" [.element (.literal ⟨none, "a"⟩) [],
    .element (.literal ⟨none, "b"⟩) [.text " ", .text "x"]]

/-- Its template with the no-break space. -/
def withNoBreakSpace : Layout :=
  language "template" [.element (.literal ⟨none, "a"⟩) [.text "\u00a0"],
    .element (.literal ⟨none, "b"⟩) [.text " ", .text "x"]]

/-- What is made of the stylesheet, and what its markup is by the two classes of white space. -/
theorem layouts_spaced :
    ((Stylesheet.ofText spaced).toOption.map fun sheet =>
        sheet.rules.templates.map Template.layout) = some [withoutNoBreakSpace] ∧
    ((Markup.read spaced).map fun items =>
        (Markup.layoutsIn (Text.holdsOther Text.isBlank) (Markup.documentChildren items)).filter
          (Layout.isAmong ["template"])) = some [withoutNoBreakSpace] ∧
    ((Markup.read spaced).map fun items =>
        (Markup.layoutsIn (Text.holdsOther Text.isXmlSpace) (Markup.documentChildren items)).filter
          (Layout.isAmong ["template"])) = some [withNoBreakSpace] := by
  decide +kernel

/-- Of the white space in the template, only the space in `xsl:text` is left. -/
theorem Stylesheet.layouts_of_ofText_spaced :
    ∃ (sheet : Stylesheet) (templates : List Template),
      Stylesheet.ofText spaced = .ok sheet ∧
      templates.foldlM (fun (rules : Rules) template => rules.add template) .empty =
        .ok sheet.rules ∧
      templates.map Template.layout = [withoutNoBreakSpace] := by
  obtain ⟨hmade, hread, -⟩ := layouts_spaced
  obtain ⟨sheet, hsheet, -⟩ := Option.map_eq_some_iff.1 hmade
  have hsheet : Stylesheet.ofText spaced = .ok sheet := toOption_eq_some.1 hsheet
  obtain ⟨items, templates, hitems, hadded, hlayouts, -⟩ := Stylesheet.layouts_of_ofText hsheet
  rw [hitems] at hread
  exact ⟨sheet, templates, hsheet, hadded, hlayouts.trans (Option.some.inj hread)⟩

/-- The no-break space is in no class of white space that markup has, but the template lacks it. -/
theorem Stylesheet.noBreakSpace_lost :
    ∃ (sheet : Stylesheet) (items : List Item),
      Stylesheet.ofText spaced = .ok sheet ∧ Markup.read spaced = some items ∧
      sheet.rules.templates.map Template.layout ≠
        (Markup.layoutsIn (Text.holdsOther Text.isXmlSpace) (Markup.documentChildren items)).filter
          (Layout.isAmong ["template"]) := by
  obtain ⟨hmade, -, hread⟩ := layouts_spaced
  obtain ⟨sheet, hsheet, hcompiled⟩ := Option.map_eq_some_iff.1 hmade
  obtain ⟨items, hitems, hmarked⟩ := Option.map_eq_some_iff.1 hread
  refine ⟨sheet, items, toOption_eq_some.1 hsheet, hitems, ?_⟩
  rw [hcompiled, hmarked]
  decide

end Restyle
