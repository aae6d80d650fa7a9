import Mathlib
import Restyle.Function
import Restyle.Proofs.Expr.Quotes

/-!
# Restyle.Proofs.TextTemplate

Text templates as they are written.

A template is written piece by piece: text with its curly brackets doubled, an expression between
single ones.  What is written so is read back as the parts it was made of, and nothing else is read:
every text that is read as a template has been written from pieces.

* `TextTemplate.Piece` — a part as it is written;
* `TextTemplate.Tidy` — what is true of every template that is read;
* `TextTemplate.segments_written` — a written template is cut where its pieces meet;
* `TextTemplate.written_of_segments` — the text of what a template is cut into;
* `TextTemplate.parse_eq_ok_iff_written` — reading is the inverse of writing.
-/

namespace Restyle

namespace TextTemplate

/-! ## Writing -/

/-- A part of a template as it is written: plain text, or the text of an expression. -/
inductive Piece where
  | text (content : String)
  | value (source : String)

/-- The part that is meant, if the text of an expression can be read. -/
def Piece.read (functions : List String) : Piece → Except Failure TemplatePart
  | .text content => .ok (.text content)
  | .value source => (Expr.compile functions source).map .value

/-- A character of plain text; a curly bracket is written twice. -/
def escaped (c : Char) : List Char := if c = '{' || c = '}' then [c, c] else [c]

/-- The text of an expression between brackets. -/
def bracketed (source : List Char) : List Char := '{' :: (source ++ ['}'])

/-- The characters of a piece. -/
def Piece.written : Piece → List Char
  | .text content => content.toList.flatMap escaped
  | .value source => bracketed source.toList

/-- The text of a template that is made up of pieces. -/
def written (pieces : List Piece) : String := String.ofList (pieces.flatMap Piece.written)

/-! ## Tidy templates -/

/-- Whether a part is plain text. -/
def isText : TemplatePart → Bool
  | .text _ => true
  | .value _ => false

/-- Plain text is not empty and stands in one part. -/
structure Tidy (template : TextTemplate) : Prop where
  nonempty : ∀ content, .text content ∈ template → content ≠ ""
  apart : template.IsChain fun part next => ¬(isText part ∧ isText next)

theorem tidy_nil : Tidy [] := ⟨nofun, .nil⟩

theorem Tidy.value {parts : TextTemplate} (h : Tidy parts) (e : Expr) :
    Tidy (.value e :: parts) := by
  constructor
  · intro content hmem
    obtain hhead | htail := List.mem_cons.1 hmem
    · cases hhead
    · exact h.nonempty content htail
  · exact List.isChain_cons.2 ⟨fun _ _ hboth => Bool.false_ne_true hboth.1, h.apart⟩

theorem Tidy.tail {part : TemplatePart} {parts : TextTemplate} (h : Tidy (part :: parts)) :
    Tidy parts :=
  ⟨fun content hmem => h.nonempty content (List.mem_cons_of_mem _ hmem), h.apart.tail⟩

/-- Text may be put in front of parts that do not begin with text. -/
theorem Tidy.consText {parts : TextTemplate} (h : Tidy parts)
    (hparts : ∀ part ∈ parts.head?, isText part = false) (text : List Char) :
    Tidy (consText text parts) := by
  unfold TextTemplate.consText
  split
  · exact h
  · next hnonempty =>
    constructor
    · intro content hmem
      obtain hhead | htail := List.mem_cons.1 hmem
      · obtain rfl := TemplatePart.text.inj hhead
        rwa [ne_eq, String.ofList_eq_empty_iff, ← List.isEmpty_iff]
      · exact h.nonempty content htail
    · refine List.isChain_cons.2 ⟨fun part hpart hboth => ?_, h.apart⟩
      exact Bool.false_ne_true ((hparts part hpart).symm.trans hboth.2)

/-! ## Cutting what is written -/

/-- What a piece is cut into. -/
def Piece.segments : Piece → List Segment
  | .text content => content.toList.map .char
  | .value source => [.source source.toList]

theorem segmentsFrom_escaped (c : Char) (rest : List Char) :
    segmentsFrom .outside (escaped c ++ rest) = .char c :: segmentsFrom .outside rest := by
  unfold escaped
  split
  · next hbracket =>
    obtain rfl | rfl : c = '{' ∨ c = '}' := by simpa using hbracket
    · rfl
    · rfl
  · next hbracket =>
    obtain ⟨hopen, hclose⟩ : c ≠ '{' ∧ c ≠ '}' := by simpa using hbracket
    rw [List.singleton_append, segmentsFrom]
    · simp [hopen]
    · simp [hclose]
    · simp [hopen]
    · simp [hclose]

theorem segmentsFrom_text (cs rest : List Char) :
    segmentsFrom .outside (cs.flatMap escaped ++ rest) =
      cs.map .char ++ segmentsFrom .outside rest := by
  induction cs with
  | nil => rfl
  | cons c cs ih =>
      rw [List.flatMap_cons, List.append_assoc, segmentsFrom_escaped, ih]
      rfl

/-- No expression begins with a bracket, so the bracket in front of it is a single one. -/
theorem segmentsFrom_bracketed {source : List Char} {texts : List String}
    (h : quotedTexts source = some texts) (rest : List Char) :
    segmentsFrom .outside (bracketed source ++ rest) =
      .source source :: segmentsFrom .outside rest := by
  have hbracketed : bracketed source ++ rest = '{' :: (source ++ '}' :: rest) := by
    simp [bracketed]
  have hsingle : ∀ cs, source ++ '}' :: rest ≠ '{' :: cs := by
    intro cs heq
    cases source with
    | nil => simp at heq
    | cons c source =>
        obtain rfl : c = '{' := by simpa using And.left (by simpa using heq)
        cases h
  rw [hbracketed, segmentsFrom]
  · exact segmentsFrom_inside h [] rest
  · intro cs heq
    exact hsingle cs (by simpa using heq)

theorem quotedTexts_of_compile {functions : List String} {source : String} {e : Expr}
    (h : Expr.compile functions source = .ok e) : quotedTexts source.toList = some e.literals := by
  unfold Expr.compile at h
  split at h
  · cases h
  · next e' hparse =>
    split at h
    · cases h
    · obtain rfl := Except.ok.inj h
      exact Expr.quotedTexts_of_parse hparse

/-- A written template is cut where its pieces meet. -/
theorem segments_written {functions : List String} {pieces : List Piece} {template : TextTemplate}
    (h : pieces.mapM (Piece.read functions) = .ok template) :
    segments (written pieces).toList = pieces.flatMap Piece.segments := by
  rw [written, String.toList_ofList, segments]
  induction pieces generalizing template with
  | nil => rfl
  | cons piece pieces ih =>
      rw [List.mapM_cons] at h
      obtain ⟨part, hpart, h⟩ := bind_eq_ok.1 h
      obtain ⟨parts, hparts, -⟩ := bind_eq_ok.1 h
      rw [List.flatMap_cons, List.flatMap_cons, ← ih hparts]
      cases piece with
      | text content => exact segmentsFrom_text content.toList _
      | value source =>
          obtain ⟨e, he, -⟩ := map_eq_ok.1 hpart
          exact segmentsFrom_bracketed (quotedTexts_of_compile he) _

/-! ## Putting together what is cut -/

theorem ofSegments_chars (functions : List String) (whole : String) (cs text : List Char)
    (segments : List Segment) :
    ofSegments functions whole text (cs.map .char ++ segments) =
      ofSegments functions whole (cs.reverse ++ text) segments := by
  induction cs generalizing text with
  | nil => rfl
  | cons c cs ih =>
      rw [List.map_cons, List.cons_append, ofSegments, ih]
      simp

/-- The segments of pieces make up the parts that are meant, behind text that waits to be joined by
more: it is a part of its own if no text follows. -/
theorem ofSegments_pieces {functions : List String} {pieces : List Piece} {template : TextTemplate}
    (h : pieces.mapM (Piece.read functions) = .ok template) (htidy : Tidy template)
    (whole : String) {text : List Char}
    (htext : text = [] ∨ ∀ part ∈ template.head?, isText part = false) :
    ofSegments functions whole text (pieces.flatMap Piece.segments) =
      .ok (consText text.reverse template) := by
  induction pieces generalizing template text with
  | nil =>
      obtain rfl := Except.ok.inj h
      rfl
  | cons piece pieces ih =>
      rw [List.mapM_cons] at h
      obtain ⟨part, hpart, h⟩ := bind_eq_ok.1 h
      obtain ⟨parts, hparts, h⟩ := bind_eq_ok.1 h
      obtain rfl := Except.ok.inj h
      rw [List.flatMap_cons]
      cases piece with
      | value source =>
          obtain ⟨e, he, rfl⟩ := map_eq_ok.1 hpart
          have hrest := ih hparts htidy.tail (.inl rfl)
          rw [Piece.segments, List.singleton_append, ofSegments, String.ofList_toList, he, hrest]
          rfl
      | text content =>
          obtain rfl := Except.ok.inj hpart
          obtain rfl : text = [] := by
            obtain hnone | hfollows := htext
            · exact hnone
            · cases hfollows _ rfl
          have happart : ∀ part ∈ parts.head?, isText part = false := by
            intro part hmem
            have hnot := (List.isChain_cons.1 htidy.apart).1 part hmem
            simpa [isText] using hnot
          have hnonempty : content.toList.isEmpty = false := by
            have hne := htidy.nonempty content List.mem_cons_self
            simpa using hne
          rw [Piece.segments, ofSegments_chars, List.append_nil,
            ih hparts htidy.tail (.inr happart), List.reverse_reverse]
          simp [consText, hnonempty]

/-! ## What a template is cut into -/

/-- Whether a segment is no bracket without a partner. -/
def Segment.closed : Segment → Bool
  | .char _ => true
  | .source _ => true
  | .unclosed => false
  | .unopened => false

/-- The characters that a segment has been cut from. -/
def Segment.written : Segment → List Char
  | .char c => escaped c
  | .source cs => bracketed cs
  | .unclosed => []
  | .unopened => []

/-- The characters that a scan has read of a segment that is not complete. -/
def Scan.before : Scan → List Char
  | .outside => []
  | .inside source _ => '{' :: source.reverse

/-- Where every bracket has a partner, no character is lost. -/
theorem written_of_segments (scan : Scan) (cs : List Char)
    (h : ∀ segment ∈ segmentsFrom scan cs, segment.closed) :
    (segmentsFrom scan cs).flatMap Segment.written = scan.before ++ cs := by
  fun_induction segmentsFrom scan cs with
  | case1 => rfl
  | case2 cs ih =>
      have hrest := ih fun segment hmem => h segment (List.mem_cons_of_mem _ hmem)
      rw [List.flatMap_cons, hrest]
      rfl
  | case3 cs ih =>
      have hrest := ih fun segment hmem => h segment (List.mem_cons_of_mem _ hmem)
      rw [List.flatMap_cons, hrest]
      rfl
  | case4 cs hsingle ih => exact ih h
  | case5 cs hsingle => cases h _ List.mem_cons_self
  | case6 c cs hopens hcloses hopen hclose ih =>
      have hrest := ih fun segment hmem => h segment (List.mem_cons_of_mem _ hmem)
      have hescaped : escaped c = [c] := by simp [escaped, not_or.2 ⟨hopen, hclose⟩]
      rw [List.flatMap_cons, hrest, Segment.written, hescaped]
      rfl
  | case7 source quote => cases h _ List.mem_cons_self
  | case8 source cs ih =>
      have hrest := ih fun segment hmem => h segment (List.mem_cons_of_mem _ hmem)
      rw [List.flatMap_cons, hrest]
      simp [Segment.written, bracketed, Scan.before]
  | case9 source quote c cs hgoesOn ih =>
      rw [ih h]
      simp [Scan.before]

/-- Nothing is made of a bracket without a partner. -/
theorem closed_of_ofSegments {functions : List String} {whole : String} {text : List Char}
    {segments : List Segment} {template : TextTemplate}
    (h : ofSegments functions whole text segments = .ok template) :
    ∀ segment ∈ segments, segment.closed := by
  fun_induction ofSegments functions whole text segments generalizing template with
  | case1 text => nofun
  | case2 text c segments ih => exact List.forall_mem_cons.2 ⟨rfl, ih h⟩
  | case3 text source segments ih =>
      obtain ⟨e, -, h⟩ := bind_eq_ok.1 h
      obtain ⟨parts, hparts, -⟩ := bind_eq_ok.1 h
      exact List.forall_mem_cons.2 ⟨rfl, ih hparts⟩
  | case4 text segments => cases h
  | case5 text segments => cases h

/-- Characters are gathered until an expression or the end, so what is made of segments is tidy. -/
theorem tidy_of_ofSegments {functions : List String} {whole : String} {text : List Char}
    {segments : List Segment} {template : TextTemplate}
    (h : ofSegments functions whole text segments = .ok template) : Tidy template := by
  fun_induction ofSegments functions whole text segments generalizing template with
  | case1 text =>
      obtain rfl := Except.ok.inj h
      exact tidy_nil.consText nofun text.reverse
  | case2 text c segments ih => exact ih h
  | case3 text source segments ih =>
      obtain ⟨e, -, h⟩ := bind_eq_ok.1 h
      obtain ⟨parts, hparts, h⟩ := bind_eq_ok.1 h
      obtain rfl := Except.ok.inj h
      exact ((ih hparts).value e).consText (by simp [isText]) text.reverse
  | case4 text segments => cases h
  | case5 text segments => cases h

theorem exists_pieces_consText {functions : List String} {pieces : List Piece}
    {parts : TextTemplate} (h : pieces.mapM (Piece.read functions) = .ok parts)
    (text : List Char) :
    ∃ pieces' : List Piece, pieces'.mapM (Piece.read functions) = .ok (consText text parts) ∧
      pieces'.flatMap Piece.written = text.flatMap escaped ++ pieces.flatMap Piece.written := by
  unfold consText
  split
  · next hempty => exact ⟨pieces, h, by rw [List.isEmpty_iff.1 hempty]; rfl⟩
  · refine ⟨.text (String.ofList text) :: pieces, ?_, ?_⟩
    · rw [List.mapM_cons, h]
      rfl
    · rw [List.flatMap_cons, Piece.written, String.toList_ofList]

/-- What is made of segments has been written piece by piece. -/
theorem exists_pieces_of_ofSegments {functions : List String} {whole : String} {text : List Char}
    {segments : List Segment} {template : TextTemplate}
    (h : ofSegments functions whole text segments = .ok template) :
    ∃ pieces : List Piece, pieces.mapM (Piece.read functions) = .ok template ∧
      pieces.flatMap Piece.written =
        text.reverse.flatMap escaped ++ segments.flatMap Segment.written := by
  fun_induction ofSegments functions whole text segments generalizing template with
  | case1 text =>
      obtain rfl := Except.ok.inj h
      have hnone : ([] : List Piece).mapM (Piece.read functions) = .ok [] := rfl
      exact exists_pieces_consText hnone text.reverse
  | case2 text c segments ih =>
      obtain ⟨pieces, hread, hwritten⟩ := ih h
      refine ⟨pieces, hread, ?_⟩
      rw [hwritten]
      simp [Segment.written]
  | case3 text source segments ih =>
      obtain ⟨e, he, h⟩ := bind_eq_ok.1 h
      obtain ⟨parts, hparts, h⟩ := bind_eq_ok.1 h
      obtain rfl := Except.ok.inj h
      obtain ⟨pieces, hread, hwritten⟩ := ih hparts
      have hvalue : (Piece.value (String.ofList source) :: pieces).mapM (Piece.read functions) =
          .ok (.value e :: parts) := by
        rw [List.mapM_cons, Piece.read, he, hread]
        rfl
      obtain ⟨pieces', hread', hwritten'⟩ := exists_pieces_consText hvalue text.reverse
      refine ⟨pieces', hread', ?_⟩
      rw [hwritten', List.flatMap_cons, hwritten, Piece.written, String.toList_ofList]
      rfl
  | case4 text segments => cases h
  | case5 text segments => cases h

/-! ## Reading what is written -/

/-- A text is read as a template exactly if it is tidy and the text has been written from pieces
that mean its parts.  This rests on the quotes of expressions: those that the scan for the closing
bracket sees are the literals of the grammar. -/
theorem parse_eq_ok_iff_written (functions : List String) :
    (∀ text template, parse functions text = .ok template ↔
      Tidy template ∧
        ∃ pieces, written pieces = text ∧ pieces.mapM (Piece.read functions) = .ok template) ∧
    ∀ source e, Expr.compile functions source = .ok e →
      quotedTexts source.toList = some e.literals := by
  refine ⟨fun text template => ⟨fun h => ?_, ?_⟩, fun _ _ => quotedTexts_of_compile⟩
  · obtain ⟨pieces, hread, hwritten⟩ := exists_pieces_of_ofSegments h
    refine ⟨tidy_of_ofSegments h, pieces, ?_, hread⟩
    rw [written, hwritten, segments, written_of_segments _ _ (closed_of_ofSegments h)]
    exact String.ofList_toList
  · rintro ⟨htidy, pieces, rfl, hread⟩
    rw [parse, segments_written hread]
    exact ofSegments_pieces hread htidy _ (.inl rfl)

/-- The bracket between quotes does not close the expression, and those that are written twice
stand for themselves. -/
theorem parse_written_quoted_bracket :
    Expr.compile Function.names "concat('\x7d', a)" =
        .ok (.call "concat" [.literal "\x7d", .path .context [⟨.child, .name "a", []⟩]]) ∧
      parse Function.names "\x7b\x7b\x7bconcat('\x7d', a)\x7d\x7d\x7d" =
        .ok [.text "\x7b", .value (.call "concat" [.literal "\x7d",
          .path .context [⟨.child, .name "a", []⟩]]), .text "\x7d"] ∧
      quotedTexts "concat('\x7d', a)".toList = some ["\x7d"] := by
  have hcompile : Expr.compile Function.names "concat('\x7d', a)" =
      .ok (.call "concat" [.literal "\x7d", .path .context [⟨.child, .name "a", []⟩]]) := by cbv
  have hwritten :
      written [.text "\x7b", .value "concat('\x7d', a)", .text "\x7d"] =
        "\x7b\x7b\x7bconcat('\x7d', a)\x7d\x7d\x7d" := by
    decide
  have htidy : Tidy [.text "\x7b", .value (.call "concat" [.literal "\x7d",
      .path .context [⟨.child, .name "a", []⟩]]), .text "\x7d"] :=
    ⟨by simp, by simp [isText]⟩
  have hread : [Piece.text "\x7b", .value "concat('\x7d', a)", .text "\x7d"].mapM
      (Piece.read Function.names) = .ok [.text "\x7b", .value (.call "concat" [.literal "\x7d",
        .path .context [⟨.child, .name "a", []⟩]]), .text "\x7d"] := by
    simp only [List.mapM_cons, List.mapM_nil, Piece.read, hcompile]
    rfl
  obtain ⟨hparse, hquotes⟩ := parse_eq_ok_iff_written Function.names
  exact ⟨hcompile, (hparse _ _).2 ⟨htidy, _, hwritten, hread⟩, hquotes _ _ hcompile⟩

end TextTemplate

end Restyle
