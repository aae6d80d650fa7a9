import Mathlib
import Restyle.Transform
import Restyle.Proofs.Result.Decoding

/-!
# Restyle.Proofs.Result.Rereading

What a reader of markup makes of the texts and attribute values of a result.

Before references are expanded, a reader of markup makes line feeds of all line ends, and in
attribute values spaces of tabs and line feeds; a character that is written as a reference is taken
as it is.  Of the characters for which results have references, none is white space.  So what is
read back is what was written up to this, and white space that counts is not always kept.

* `Markup.readText`, `Markup.readValue` — text and attribute values as they are read;
* `Written.Escapes` — how the characters of results are written;
* `Written.readWith_escape` — what is read back;
* `Written.reread_result` — the main result.
-/

namespace Restyle

namespace Markup

open Source

/-! ## Reading -/

/-- Line ends as line feeds: a carriage return before a line feed is dropped and any other one is
replaced. -/
def lineEnds : List Char → List Char
  | [] => []
  | c :: cs =>
    if c = '\r' then
      if cs.head? = some '\n' then lineEnds cs else '\n' :: lineEnds cs
    else c :: lineEnds cs

/-- The character that a piece is read as, where a character that is written as itself may count as
another one.  There are no entities but those that need no declaration. -/
def Source.Piece.read? (plain : Char → Char) : Piece → Option Char
  | .plain c => some (plain c)
  | .char c => some c
  | .entity _ => none

/-- The characters that markup is read as: first line ends become line feeds, then references are
expanded. -/
def readWith (plain : Char → Char) (cs : List Char) : Option (List Char) := do
  (← pieces (locateFrom ⟨1, 1⟩ (lineEnds cs))).mapM (Piece.read? plain)

/-- Text in markup as it is read. -/
def readText (cs : List Char) : Option (List Char) := readWith id cs

/-- An attribute value in markup as it is read: tabs and line feeds become spaces. -/
def readValue (cs : List Char) : Option (List Char) := readWith attributeChar cs

/-! ## Line ends -/

theorem lineEnds_append {cs : List Char} (h : '\r' ∉ cs) (rest : List Char) :
    lineEnds (cs ++ rest) = cs ++ lineEnds rest := by
  induction cs with
  | nil => rfl
  | cons c cs ih =>
      obtain ⟨hc, hcs⟩ := List.ne_and_not_mem_of_not_mem_cons h
      rw [List.cons_append, lineEnds, if_neg (Ne.symm hc), ih hcs]
      rfl

theorem notMem_lineEnds (cs : List Char) : '\r' ∉ lineEnds cs := by
  induction cs with
  | nil => exact List.not_mem_nil
  | cons c cs ih =>
      unfold lineEnds
      split_ifs with hc hnext
      · exact ih
      · exact List.not_mem_cons_of_ne_of_not_mem (by decide) ih
      · exact List.not_mem_cons_of_ne_of_not_mem (Ne.symm hc) ih

/-- Where there is no carriage return, all line ends are line feeds. -/
theorem lineEnds_eq_self {cs : List Char} : lineEnds cs = cs ↔ '\r' ∉ cs := by
  constructor
  · intro h
    exact h ▸ notMem_lineEnds cs
  · intro h
    have happend := lineEnds_append h []
    rwa [List.append_nil, lineEnds, List.append_nil] at happend

/-! ## References -/

/-- What is to be known of entities that need no declaration: they are found by their names, which
are names and no numbers, and what they stand for is not white space that could be taken as other
white space. -/
theorem predefined_facts {name : String} {c : Char} (h : (name, c) ∈ predefined) :
    predefined.lookup name = some c ∧ name.toList ≠ [] ∧
      (∀ d ∈ name.toList, isMarkupStart d = true ∧ d ≠ '\r' ∧ d ≠ '#') ∧
        c ≠ '\r' ∧ attributeChar c = c := by
  have hall : (predefined.all fun entity =>
      predefined.lookup entity.1 == some entity.2 && !entity.1.toList.isEmpty &&
        (entity.1.toList.all fun d => isMarkupStart d && d != '\r' && d != '#') &&
          entity.2 != '\r' && attributeChar entity.2 == entity.2) = true := rfl
  have hentity := List.all_eq_true.1 hall _ h
  simp only [Bool.and_eq_true, beq_iff_eq, bne_iff_ne, List.all_eq_true, Bool.not_eq_true',
    List.isEmpty_eq_false_iff] at hentity
  obtain ⟨⟨⟨⟨hlookup, hne⟩, hchars⟩, hc⟩, hcounts⟩ := hentity
  exact ⟨hlookup, hne, fun d hd => ⟨(hchars d hd).1.1, (hchars d hd).1.2, (hchars d hd).2⟩, hc,
    hcounts⟩

/-- A name is read up to where it cannot go on. -/
theorem name_append {name s : Source} {l : Located} (hne : name ≠ [])
    (hname : ∀ d ∈ name, isMarkupStart d.char = true) (hl : isMarkupChar l.char = false) :
    Source.name (name ++ l :: s) = some (name.text, l :: s) := by
  have hchar {d : Located} (hd : d ∈ name) : isMarkupChar d.char = true := by
    simp [isMarkupChar, hname d hd]
  cases name with
  | nil => exact absurd rfl hne
  | cons first others =>
      have hothers : ∀ d ∈ others, (fun l : Located => isMarkupChar l.char) d = true :=
        fun d hd => hchar (List.mem_cons_of_mem _ hd)
      have hstop : ∀ d ∈ (l :: s).head?, (fun l : Located => isMarkupChar l.char) d = false := by
        simpa using hl
      obtain ⟨htake, hdrop⟩ := Grammar.takeWhile_append_stop hothers hstop
      rw [List.cons_append, Source.name, if_pos (hname first List.mem_cons_self), htake, hdrop]

/-- A reference to an entity that needs no declaration. -/
theorem reference_predefined {name : String} {c : Char} (h : (name, c) ∈ predefined) {s : Source}
    {rest : List Char} (hs : s.chars = name.toList ++ ';' :: rest) :
    ∃ s' : Source, reference s = some (.char c, s') ∧ s'.chars = rest := by
  obtain ⟨hlookup, hne, hchars, -⟩ := predefined_facts h
  obtain ⟨named, after, rfl, hnamed, hafter⟩ := List.map_eq_append_iff.1 hs
  obtain ⟨mark, s', rfl, hmark, hrest⟩ := List.map_eq_cons_iff.1 hafter
  have hname : ∀ d ∈ named, isMarkupStart d.char = true ∧ d.char ≠ '#' := by
    intro d hd
    have hd' : d.char ∈ name.toList := hnamed ▸ List.mem_map_of_mem hd
    exact ⟨(hchars _ hd').1, (hchars _ hd').2.2⟩
  have hnamed_ne : named ≠ [] := by
    rintro rfl
    exact hne hnamed.symm
  have hstop : isMarkupChar mark.char = false := by
    rw [hmark]
    rfl
  have hread : Source.name (named ++ mark :: s') = some (name, mark :: s') := by
    rw [name_append hnamed_ne (fun d hd => (hname d hd).1) hstop, Source.text, Source.chars, hnamed,
      String.ofList_toList]
  have hskip (marks : List Char) : skip ('#' :: marks) (named ++ mark :: s') = none := by
    obtain ⟨first, others, rfl⟩ := List.exists_cons_of_ne_nil hnamed_ne
    simp [skip, (hname first List.mem_cons_self).2]
  refine ⟨s', ?_, hrest⟩
  unfold reference
  rw [hskip, hskip, hread]
  simp [skip, hmark, hlookup]

/-! ## Pieces -/

theorem pieces_plain {l : Located} (h : l.char ≠ '&') (s : Source) :
    pieces (l :: s) = (pieces s).map (.plain l.char :: ·) := by
  rw [pieces]
  simp [h]

theorem pieces_reference {l : Located} {s s' : Source} {found : Reference} (h : l.char = '&')
    (hfound : reference s = some (found, s')) :
    pieces (l :: s) = (pieces s').map (found.piece :: ·) := by
  rw [pieces, if_pos (by simp [h])]
  split
  · next hnone =>
    rw [hnone] at hfound
    cases hfound
  · next found' after hsome =>
    rw [hsome] at hfound
    cases hfound
    rfl

/-- Pieces are read one by one. -/
theorem read_cons {plain : Char → Char} {piece : Piece} {c : Char}
    (hpiece : piece.read? plain = some c) {found : Option (List Piece)} {cs : List Char}
    (h : (do (← found).mapM (Piece.read? plain)) = some cs) :
    (do (← found.map (piece :: ·)).mapM (Piece.read? plain)) = some (c :: cs) := by
  cases found with
  | none => cases h
  | some pieces =>
      have hpieces : pieces.mapM (Piece.read? plain) = some cs := h
      change (piece :: pieces).mapM (Piece.read? plain) = some (c :: cs)
      rw [List.mapM_cons, hpiece, hpieces]
      rfl

end Markup

namespace Written

open Markup Markup.Source

/-! ## Escapes -/

/-- Each character is written as itself, if it is no ampersand, or as a reference to an entity that
needs no declaration. -/
def Escapes (escape : Char → List Char) : Prop :=
  ∀ c, escape c = [c] ∧ c ≠ '&' ∨
    ∃ name : String, (name, c) ∈ predefined ∧ escape c = '&' :: name.toList ++ [';']

theorem escapes_textChar : Escapes textChar := by
  intro c
  unfold textChar
  split_ifs with hamp hless hgreater
  · exact .inr ⟨"amp", by simp [predefined, hamp], rfl⟩
  · exact .inr ⟨"lt", by simp [predefined, hless], rfl⟩
  · exact .inr ⟨"gt", by simp [predefined, hgreater], rfl⟩
  · exact .inl ⟨rfl, hamp⟩

theorem escapes_valueChar : Escapes valueChar := by
  intro c
  unfold valueChar
  split_ifs with hdouble hsingle
  · exact .inr ⟨"quot", by simp [predefined, hdouble], rfl⟩
  · exact .inr ⟨"apos", by simp [predefined, hsingle], rfl⟩
  · exact escapes_textChar c

section Escapes

variable {escape : Char → List Char} (h : Escapes escape)

include h

theorem escape_lineFeed : escape '\n' = ['\n'] := by
  rcases h '\n' with ⟨hplain, -⟩ | ⟨name, hname, -⟩
  · exact hplain
  · exact absurd (predefined_facts hname).2.2.2.2 (by decide)

theorem head?_escape (cs : List Char) :
    (cs.flatMap escape).head? = some '\n' ↔ cs.head? = some '\n' := by
  cases cs with
  | nil => rfl
  | cons c cs =>
      rcases h c with ⟨hplain, -⟩ | ⟨name, hname, href⟩
      · simp [hplain]
      · have hfeed : c ≠ '\n' := by
          rintro rfl
          exact absurd (predefined_facts hname).2.2.2.2 (by decide)
        simp [href, hfeed]

/-- Line ends are not touched by escapes. -/
theorem lineEnds_escape (cs : List Char) :
    lineEnds (cs.flatMap escape) = (lineEnds cs).flatMap escape := by
  induction cs with
  | nil => rfl
  | cons c cs ih =>
      rw [List.flatMap_cons]
      rcases h c with ⟨hplain, -⟩ | ⟨name, hname, href⟩
      · rw [hplain, List.singleton_append, lineEnds, lineEnds]
        simp only [head?_escape h, ih]
        split_ifs with hreturn hnext
        · rfl
        · rw [List.flatMap_cons, escape_lineFeed h, List.singleton_append]
        · rw [List.flatMap_cons, hplain, List.singleton_append]
      · obtain ⟨-, -, hchars, hc, -⟩ := predefined_facts hname
        have hreturn : '\r' ∉ escape c := by
          rw [href]
          intro hmem
          rcases List.mem_cons.1 hmem with heq | hmem
          · exact absurd heq (by decide)
          · rcases List.mem_append.1 hmem with hmem | hmem
            · exact (hchars _ hmem).2.1 rfl
            · exact absurd (List.mem_singleton.1 hmem) (by decide)
        rw [lineEnds_append hreturn, ih, lineEnds, if_neg hc, List.flatMap_cons]

theorem read_pieces {plain : Char → Char}
    (hplain : ∀ name c, (name, c) ∈ predefined → plain c = c) (cs : List Char) {s : Source}
    (hs : s.chars = cs.flatMap escape) :
    (do (← pieces s).mapM (Piece.read? plain)) = some (cs.map plain) := by
  induction cs generalizing s with
  | nil =>
      obtain rfl := List.map_eq_nil_iff.1 hs
      rw [pieces]
      rfl
  | cons c cs ih =>
      rw [List.flatMap_cons] at hs
      rcases h c with ⟨hself, hamp⟩ | ⟨name, hname, href⟩
      · rw [hself] at hs
        obtain ⟨l, s', rfl, rfl, hs'⟩ := List.map_eq_cons_iff.1 hs
        rw [pieces_plain hamp]
        exact read_cons rfl (ih hs')
      · rw [href] at hs
        obtain ⟨l, s', rfl, hl, hs'⟩ := List.map_eq_cons_iff.1 hs
        obtain ⟨after, hfound, hafter⟩ := reference_predefined hname (by simpa [chars] using hs')
        rw [pieces_reference hl hfound, List.map_cons, hplain name c hname]
        exact read_cons rfl (ih hafter)

/-- What is written with references is read as it was, but for line ends and for characters that are
written as themselves and count as others. -/
theorem readWith_escape {plain : Char → Char}
    (hplain : ∀ name c, (name, c) ∈ predefined → plain c = c) (cs : List Char) :
    readWith plain (cs.flatMap escape) = some ((lineEnds cs).map plain) := by
  unfold readWith
  rw [lineEnds_escape h]
  exact read_pieces h hplain _ (chars_locateFrom _ _)

end Escapes

theorem readText_escapeText (text : String) :
    readText (escapeText text) = some (lineEnds text.toList) := by
  have h : readWith id (escapeText text) = some ((lineEnds text.toList).map id) :=
    readWith_escape escapes_textChar (fun _ _ _ => rfl) text.toList
  rwa [List.map_id] at h

theorem readValue_escapeValue (value : String) :
    readValue (escapeValue value) = some ((lineEnds value.toList).map attributeChar) :=
  readWith_escape escapes_valueChar (fun _ _ h => (predefined_facts h).2.2.2.2) value.toList

/-! ## What is kept -/

/-- In attribute values as they are read, tabs and line ends are spaces. -/
theorem attributeChar_ne (c : Char) :
    attributeChar c ≠ '\t' ∧ attributeChar c ≠ '\n' ∧ attributeChar c ≠ '\r' := by
  unfold attributeChar
  split_ifs with h
  · decide
  · simp only [Bool.or_eq_true, beq_iff_eq, not_or] at h
    exact ⟨h.1.2, h.1.1, h.2⟩

theorem attributeChar_eq_self {c : Char} (h : c ≠ '\t' ∧ c ≠ '\n' ∧ c ≠ '\r') :
    attributeChar c = c := by
  unfold attributeChar
  simp [h]

theorem map_attributeChar_eq_self {cs : List Char} :
    (lineEnds cs).map attributeChar = cs ↔ ∀ c ∈ cs, c ≠ '\t' ∧ c ≠ '\n' ∧ c ≠ '\r' := by
  constructor
  · intro h c hc
    rw [← h] at hc
    obtain ⟨d, -, rfl⟩ := List.mem_map.1 hc
    exact attributeChar_ne d
  · intro h
    have hreturn : '\r' ∉ cs := fun hmem => (h _ hmem).2.2 rfl
    rw [lineEnds_eq_self.2 hreturn]
    have hmap := List.map_congr_left fun c hc => attributeChar_eq_self (h c hc)
    rwa [List.map_id'] at hmap

/-- **What is read back.**  An element with an attribute and a text is written with the value
between quotes and the text between its tags.  The value is read with its line ends as line feeds,
and then with tabs and line feeds as spaces, the text with its line ends as line feeds.  So a value
is read as it was exactly if it has neither tabs nor line feeds nor carriage returns, and a text
exactly if it has no carriage returns. -/
theorem reread_result (declared : Bool) (name key value content : String) :
    Written.result ⟨.xml, declared⟩ [.start name, .attr key value, .text content, .stop] =
      .ok (String.ofList ((if declared then declaration else []) ++
        ('<' :: name.toList ++ ' ' :: key.toList ++ '=' :: '"' :: escapeValue value ++
          '"' :: '>' :: escapeText content ++ '<' :: '/' :: name.toList ++ ['>']))) ∧
    '"' ∉ escapeValue value ∧ '<' ∉ escapeText content ∧
    readValue (escapeValue value) = some ((lineEnds value.toList).map attributeChar) ∧
    readText (escapeText content) = some (lineEnds content.toList) ∧
    (readValue (escapeValue value) = some value.toList ↔
      ∀ c ∈ value.toList, c ≠ '\t' ∧ c ≠ '\n' ∧ c ≠ '\r') ∧
    (readText (escapeText content) = some content.toList ↔ '\r' ∉ content.toList) := by
  have hvalue := readValue_escapeValue value
  have htext := readText_escapeText content
  refine ⟨?_, Decoded.quote_notMem_escapeValue value,
    fun hmem => Decoded.ne_of_mem_escapeText hmem rfl, hvalue, htext, ?_, ?_⟩
  · have hmarkup : markup [.start name, .attr key value, .text content, .stop] =
        .ok (startTag ['>'] (name, [(key, value)]) ++ escapeText content ++
          ("</".toList ++ name.toList ++ ['>'])) := rfl
    have htag : startTag ['>'] (name, [(key, value)]) =
        '<' :: name.toList ++ ' ' :: key.toList ++
          '=' :: '"' :: escapeValue value ++ ['"', '>'] := by
      simp [startTag]
    unfold Written.result
    rw [hmarkup, htag]
    simp
  · rw [hvalue, Option.some.injEq]
    exact map_attributeChar_eq_self
  · rw [htext, Option.some.injEq]
    exact lineEnds_eq_self

/-- A stylesheet that copies documents. -/
def copying : Stylesheet where
  rules :=
    { ranked := [⟨⟨true, []⟩, none, .zero false, 0,
        ⟨none, none, none, none, [], [.copyOf .contextNode]⟩⟩]
      named := [] }
  globals := []
  output := .standard

/-- A line feed in an attribute, referred to by its number and copied, is written as it is, and then
read as a space; a carriage return in text is read as a line feed. -/
theorem lineFeed_not_reread :
    copying.transform .standard [] "<a k=\"x&#10;y\"/>" = .ok "<a k=\"x\ny\"/>" ∧
      escapeValue "x\ny" = "x\ny".toList ∧
      (∀ c ∈ "x\ny".toList, isMarkupText c = true) ∧
      readValue (escapeValue "x\ny") = some "x y".toList ∧
      readValue (escapeValue "x\ny") ≠ some "x\ny".toList ∧
      readText (escapeText "\r") = some ['\n'] := by
  have hsource : Document.ofText? "<a k=\"x&#10;y\"/>" =
      some ⟨[.element ⟨none, "a"⟩ [⟨⟨none, "k"⟩, "x\ny"⟩] []]⟩ := by cbv
  have hmarkup : "x\ny".toList.all isMarkupText = true := rfl
  refine ⟨?_, by decide, List.all_eq_true.1 hmarkup, ?_, ?_, ?_⟩
  · unfold Stylesheet.transform Stylesheet.events
    rw [hsource]
    cbv
  · rw [readValue_escapeValue]
    decide
  · rw [readValue_escapeValue]
    decide
  · rw [readText_escapeText]
    decide

end Written

end Restyle
