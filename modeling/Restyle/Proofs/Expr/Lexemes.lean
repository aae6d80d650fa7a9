import Mathlib
import Restyle.Proofs.Expr.Readable

/-!
# Restyle.Proofs.Expr.Lexemes

The tokens of expressions, and the ways of writing them.

Which `*` is an operator, and which `/` begins a path, depends on the tokens before it.  `Place`
keeps what is needed of them, and `Place.next` is the rule by which a token moves it on.  A spelling
(`spell`) puts white space in front of tokens; in a few places it counts whether there is any
(`Place.gapCounts`), and `sameTies` compares two spellings in those.

Words are made of more characters than names are, so that a token may hold what no name in an
expression can.
-/

namespace Restyle.Grammar

open Text

/-! ## Words -/

/-- The characters with which tokens begin that may stand right behind a word, but for the colon. -/
def signs : List Char :=
  ['(', ')', '[', ']', '@', ',', '/', '|', '+', '=', '!', '<', '>', '*', '$', '\'', '"']

/-- Whether a character may stand in a word.  The characters of names are among these, and so are
some that no name in an expression can hold. -/
def isWordChar (c : Char) : Bool := !isBlank c && c != ':' && !signs.contains c

/-- Whether a word may start with a character. -/
def isWordStart (c : Char) : Bool := isWordChar c && !c.isDigit && c != '-' && c != '.'

/-- A word: a name without a colon, or something that is written like one. -/
def isWord : List Char → Bool
  | [] => false
  | c :: cs => isWordStart c && cs.all isWordChar

/-! ## Tokens -/

/-- The tokens that are always written alike. -/
inductive Mark where
  | openRound
  | closeRound
  | openSquare
  | closeSquare
  | dot
  | dots
  | attribute
  | comma
  | colons
  | slash
  | slashes
  | bar
  | plus
  | minus
  | equals
  | notEquals
  | less
  | lessEqual
  | greater
  | greaterEqual
  | asterisk
deriving DecidableEq, Repr

def Mark.text : Mark → List Char
  | .openRound => ['(']
  | .closeRound => [')']
  | .openSquare => ['[']
  | .closeSquare => [']']
  | .dot => ['.']
  | .dots => ['.', '.']
  | .attribute => ['@']
  | .comma => [',']
  | .colons => [':', ':']
  | .slash => ['/']
  | .slashes => ['/', '/']
  | .bar => ['|']
  | .plus => ['+']
  | .minus => ['-']
  | .equals => ['=']
  | .notEquals => ['!', '=']
  | .less => ['<']
  | .lessEqual => ['<', '=']
  | .greater => ['>']
  | .greaterEqual => ['>', '=']
  | .asterisk => ['*']

/-- A token of an expression. -/
inductive Token where
  /-- A name, an axis, a kind of node or an operator that is a word; perhaps with a second word
  after a colon. -/
  | name (first : List Char) (second : Option (List Char))
  /-- Any name with a qualifier. -/
  | anyName (qualifier : List Char)
  | reference (first : List Char) (second : Option (List Char))
  | number (whole : List Char) (fraction : Option (List Char))
  | literal (quote : Char) (text : List Char)
  | mark (m : Mark)
deriving DecidableEq, Repr

namespace Token

/-- The text of a name. -/
def nameText (first : List Char) (second : Option (List Char)) : List Char :=
  first ++ second.elim [] (':' :: ·)

def text : Token → List Char
  | .name first second => nameText first second
  | .anyName qualifier => qualifier ++ [':', '*']
  | .reference first second => '$' :: nameText first second
  | .number whole fraction => whole ++ fraction.elim [] ('.' :: ·)
  | .literal quote text => quote :: (text ++ [quote])
  | .mark m => m.text

/-- Whether a token is made as its kind demands. -/
def isProper : Token → Bool
  | .name first second | .reference first second => isWord first && second.all isWord
  | .anyName qualifier => isWord qualifier
  | .number whole fraction =>
    whole.all Char.isDigit && fraction.all (·.all Char.isDigit) &&
      (!whole.isEmpty || fraction.any (!·.isEmpty))
  | .literal quote text => (quote == '\'' || quote == '"') && !text.contains quote
  | .mark _ => true

/-- Whether a token in front of a text ends where it should: the text does not begin with something
that would be taken for more of it. -/
def standsApart (t : Token) (rest : List Char) : Bool :=
  match t with
  | .name _ _ | .reference _ _ => rest.head?.all fun c => !isWordChar c
  | .number _ fraction => rest.head?.all fun c => !c.isDigit && (fraction.isSome || c != '.')
  | .mark .dot => rest.head?.all fun c => !c.isDigit && c != '.'
  | .mark .slash => rest.head?.all fun c => c != '/'
  | .mark .less | .mark .greater => rest.head?.all fun c => c != '='
  | _ => true

end Token

/-- Whether a text begins as steps do. -/
def opensStep (s : List Char) : Bool :=
  s.head?.any fun c => isWordStart c || c == '*' || c == '@' || c == '.'

/-! ## Places -/

/-- What the tokens so far leave open. -/
inductive Place where
  /-- An operand, or a step inside it, is still to come. -/
  | operand
  /-- An operand has ended. -/
  | operator
  /-- The next step has to follow: after `@`, `::`, and a `//` that begins a path. -/
  | step
  /-- The next step may follow: after a `/` that begins a path. -/
  | root
deriving DecidableEq, Repr

/-- The words that are operators where an operand has ended. -/
def operatorWords : List (List Char) :=
  [['a', 'n', 'd'], ['o', 'r'], ['d', 'i', 'v'], ['m', 'o', 'd']]

/-- The place behind a token that stands, with some white space in front of it, in a place.  A path
that begins with `/` is over where no step comes right after it. -/
def Place.next (p : Place) (gap : List Char) (t : Token) : Place :=
  let ended := p == .operator || p == .root && !(gap.isEmpty && opensStep t.text)
  match t with
  | .name first none => if ended && operatorWords.contains first then .operand else .operator
  | .mark .closeRound | .mark .closeSquare | .mark .dot | .mark .dots => .operator
  | .mark .attribute | .mark .colons => .step
  | .mark .slash => if ended then .operand else .root
  | .mark .slashes => if ended then .operand else .step
  | .mark .asterisk => if ended then .operand else .operator
  | .mark _ => .operand
  | _ => .operator

/-- Whether it matters if there is white space in front of a token: in front of `::`, and where a
step has to follow what stands before it at once. -/
def Place.gapCounts (p : Place) (t : Token) : Bool :=
  t == .mark .colons || (p == .step || p == .root) && opensStep t.text

/-! ## Spellings -/

/-- A token with the white space in front of it. -/
structure Spaced where
  gap : List Char
  token : Token
deriving DecidableEq, Repr

/-- The text of tokens with white space in front of them. -/
def spell (parts : List Spaced) : List Char :=
  parts.flatMap fun part => part.gap ++ part.token.text

/-- Whether tokens are proper ones, stand between white space, and are kept apart. -/
def isSpelled : List Spaced → Bool
  | [] => true
  | part :: parts => part.gap.all isXmlSpace && part.token.isProper &&
    part.token.standsApart (spell parts) && isSpelled parts

/-- Whether two spellings of the same tokens have white space, where that counts, at the same
tokens. -/
def sameTies : Place → List Spaced → List Spaced → Bool
  | p, part :: parts, part' :: parts' =>
    (!p.gapCounts part.token || part.gap.isEmpty == part'.gap.isEmpty) &&
      sameTies (p.next part.gap part.token) parts parts'
  | _, _, _ => true

/-! ## Characters and words -/

theorem isWordChar_iff {c : Char} :
    isWordChar c = true ↔ isBlank c = false ∧ c ≠ ':' ∧ c ∉ signs := by
  simp [isWordChar, and_assoc]

theorem isXmlSpace_of_isBlank {c : Char} (h : isBlank c = false) : isXmlSpace c = false := by
  by_contra hspace
  rw [isBlank_of_isXmlSpace (by simpa using hspace)] at h
  simp at h

theorem not_isNameChar_of_mem_signs {c : Char} (h : c ∈ signs) : isNameChar c = false := by
  simpa using List.all_eq_true.1 (show signs.all (fun d => !isNameChar d) = true by decide) c h

/-- The characters of names are characters of words. -/
theorem isWordChar_of_isNameChar {c : Char} (h : isNameChar c = true) : isWordChar c = true := by
  refine isWordChar_iff.2 ⟨not_isBlank_of_isNameChar h, ?_, fun hmem => ?_⟩
  · rintro rfl
    exact absurd h (by decide)
  · simp [not_isNameChar_of_mem_signs hmem] at h

theorem isWordStart_of_isNameStart {c : Char} (h : isNameStart c = true) :
    isWordStart c = true := by
  have hdigit : c.isDigit = false := by
    by_contra hdigit
    have := (digit_facts (by simpa using hdigit)).2
    simp [h] at this
  simp [isWordStart, isWordChar_of_isNameChar (isNameChar_of_isNameStart h), hdigit,
    ne_of_isNameStart h (show isNameStart '-' = false by decide),
    ne_of_isNameStart h (show isNameStart '.' = false by decide)]

theorem isWordChar_of_isWordStart {c : Char} (h : isWordStart c = true) : isWordChar c = true := by
  simp only [isWordStart, Bool.and_eq_true] at h
  exact h.1.1.1

theorem not_mem_signs_of_isWordStart {c : Char} (h : isWordStart c = true) : c ∉ signs :=
  (isWordChar_iff.1 (isWordChar_of_isWordStart h)).2.2

theorem isWordChar_of_mem {word : List Char} (h : isWord word = true) {c : Char} (hc : c ∈ word) :
    isWordChar c = true := by
  cases word with
  | nil => simp at hc
  | cons d word =>
      simp only [isWord, Bool.and_eq_true, List.all_eq_true] at h
      obtain rfl | hc := List.mem_cons.1 hc
      · exact isWordChar_of_isWordStart h.1
      · exact h.2 c hc

theorem ne_nil_of_isWord {word : List Char} (h : isWord word = true) : word ≠ [] := by
  rintro rfl
  simp [isWord] at h

theorem isNameChar_of_not_isWordChar {c : Char} (h : isWordChar c = false) :
    isNameChar c = false := by
  by_contra hname
  simp [isWordChar_of_isNameChar (by simpa using hname)] at h

/-! ## How tokens begin and end -/

/-- The characters with which marks begin, but for the point. -/
def markSigns : List Char :=
  ['(', ')', '[', ']', '@', ',', ':', '/', '|', '+', '-', '=', '!', '<', '>', '*']

namespace Token

/-- A token ends where it should in front of a text that begins with no single colon. -/
structure EndsAt (t : Token) (rest : List Char) : Prop where
  standsApart : t.standsApart rest = true
  colon : ∀ s, rest = ':' :: s → s.head? = some ':'

/-- What a token begins with. -/
def Begins (c : Char) : Token → Prop
  | .name _ _ | .anyName _ => isWordStart c = true
  | .reference _ _ => c = '$'
  | .number _ _ => c.isDigit = true ∨ c = '.'
  | .literal _ _ => c = '\'' ∨ c = '"'
  | .mark m => m.text.head? = some c

theorem exists_begins {t : Token} (ht : t.isProper = true) :
    ∃ c cs, t.text = c :: cs ∧ t.Begins c := by
  have hword {word : List Char} (h : isWord word = true) (more : List Char) :
      ∃ c cs, word ++ more = c :: cs ∧ isWordStart c = true := by
    cases word with
    | nil => simp [isWord] at h
    | cons c cs => exact ⟨c, cs ++ more, rfl, by simpa [isWord] using (Bool.and_eq_true _ _ ▸ h).1⟩
  cases t with
  | name first second =>
      rw [isProper, Bool.and_eq_true] at ht
      exact hword ht.1 _
  | anyName qualifier => exact hword ht _
  | reference first second => exact ⟨'$', _, rfl, rfl⟩
  | number whole fraction =>
      simp only [isProper, Bool.and_eq_true, List.all_eq_true] at ht
      cases whole with
      | cons c whole => exact ⟨c, _, rfl, .inl (ht.1.1 c (by simp))⟩
      | nil =>
          cases fraction with
          | none => simp at ht
          | some fraction => exact ⟨'.', fraction, rfl, .inr rfl⟩
  | literal quote text =>
      simp only [isProper, Bool.and_eq_true, Bool.or_eq_true, beq_iff_eq] at ht
      exact ⟨quote, _, rfl, ht.1⟩
  | mark m => cases m <;> exact ⟨_, _, rfl, rfl⟩

theorem text_ne_nil {t : Token} (ht : t.isProper = true) : t.text ≠ [] := by
  obtain ⟨c, cs, htext, -⟩ := exists_begins ht
  simp [htext]

/-- A token does not begin with a blank. -/
theorem Begins.not_isBlank {t : Token} {c : Char} (h : t.Begins c) : isBlank c = false := by
  cases t with
  | name first second | anyName qualifier =>
      exact (isWordChar_iff.1 (isWordChar_of_isWordStart h)).1
  | reference first second =>
      obtain rfl : c = '$' := h
      decide
  | number whole fraction =>
      obtain h | rfl := h
      · exact not_isBlank_of_isNameChar (digit_facts h).1
      · decide
  | literal quote text => obtain rfl | rfl := h <;> decide
  | mark m =>
      cases m <;> · obtain rfl : _ = c := by simpa [Begins, Mark.text] using h
                    decide

theorem Begins.not_isXmlSpace {t : Token} {c : Char} (h : t.Begins c) : isXmlSpace c = false :=
  isXmlSpace_of_isBlank h.not_isBlank

/-- Only marks begin as marks do, but for the point. -/
theorem Begins.exists_mark {t : Token} {c : Char} (h : t.Begins c) (hc : c ∈ markSigns) :
    ∃ m, t = .mark m ∧ m.text.head? = some c := by
  cases t with
  | mark m => exact ⟨m, rfl, h⟩
  | name first second | anyName qualifier =>
      have hall : ∀ c ∈ markSigns, c = ':' ∨ c = '-' ∨ c ∈ signs := by simp [markSigns, signs]
      have hstart : isWordStart c = true := h
      have hword := isWordChar_iff.1 (isWordChar_of_isWordStart hstart)
      obtain rfl | rfl | hsign := hall c hc
      · exact absurd rfl hword.2.1
      · exact absurd hstart (by decide)
      · exact absurd hsign hword.2.2
  | reference first second =>
      obtain rfl : c = '$' := h
      exact absurd hc (by decide)
  | number whole fraction =>
      obtain hdigit | rfl := h
      · simp only [markSigns, List.mem_cons, List.not_mem_nil, or_false] at hc
        obtain rfl | rfl | rfl | rfl | rfl | rfl | rfl | rfl | rfl | rfl | rfl | rfl | rfl | rfl |
          rfl | rfl := hc <;> exact absurd hdigit (by decide)
      · exact absurd hc (by decide)
  | literal quote text => obtain rfl | rfl := h <;> exact absurd hc (by decide)

/-- Only names, and any name of a qualifier, begin as names do. -/
theorem Begins.word_of_isNameStart {t : Token} {c : Char} (h : t.Begins c)
    (hc : isNameStart c = true) :
    (∃ first second, t = .name first second) ∨ ∃ qualifier, t = .anyName qualifier := by
  cases t with
  | name first second => exact .inl ⟨first, second, rfl⟩
  | anyName qualifier => exact .inr ⟨qualifier, rfl⟩
  | reference first second =>
      obtain rfl : c = '$' := h
      exact absurd hc (by decide)
  | number whole fraction =>
      obtain hdigit | rfl := h
      · simp [(digit_facts hdigit).2] at hc
      · exact absurd hc (by decide)
  | literal quote text => obtain rfl | rfl := h <;> exact absurd hc (by decide)
  | mark m =>
      cases m <;> · obtain rfl : _ = c := by simpa [Begins, Mark.text] using h
                    exact absurd hc (by decide)

/-- A token is a single word, or goes on behind a word with a single colon, or begins as no name
does. -/
theorem word_cases {t : Token} (ht : t.isProper = true) :
    (∃ word, isWord word = true ∧ t = .name word none) ∨
    (∃ word d others, isWord word = true ∧ t.text = word ++ ':' :: d :: others ∧ d ≠ ':') ∨
    ∃ c cs, t.text = c :: cs ∧ isNameStart c = false := by
  obtain ⟨c, cs, htext, hbegins⟩ := exists_begins ht
  by_cases hc : isNameStart c = true
  · obtain ⟨first, second, rfl⟩ | ⟨qualifier, rfl⟩ := hbegins.word_of_isNameStart hc
    · rw [isProper, Bool.and_eq_true] at ht
      cases second with
      | none => exact .inl ⟨first, ht.1, rfl⟩
      | some second =>
          have hsecond : isWord second = true := ht.2
          obtain ⟨d, others, rfl⟩ := List.exists_cons_of_ne_nil (ne_nil_of_isWord hsecond)
          have hd := isWordChar_of_mem hsecond List.mem_cons_self
          exact .inr (.inl ⟨first, d, others, ht.1, rfl, (isWordChar_iff.1 hd).2.1⟩)
    · exact .inr (.inl ⟨qualifier, '*', [], ht, rfl, by decide⟩)
  · exact .inr (.inr ⟨c, cs, htext, by simpa using hc⟩)

end Token

theorem ends_nameText {first : List Char} {second : Option (List Char)}
    (hfirst : isWord first = true) (hsecond : second.all isWord = true) :
    Ends (Token.nameText first second) := by
  have hword {word : List Char} (hword : isWord word = true) : Ends word :=
    ends_of_forall fun c hc => (isWordChar_iff.1 (isWordChar_of_mem hword hc)).1
  cases second with
  | none => simpa [Token.nameText] using hword hfirst
  | some second =>
      have hsecond : isWord second = true := hsecond
      have htext : Token.nameText first (some second) = (first ++ [':']) ++ second := by
        simp [Token.nameText]
      rw [htext]
      exact ends_append_of_ne_nil (hword hsecond) (ne_nil_of_isWord hsecond) _

theorem Token.ends_text {t : Token} (ht : t.isProper = true) : Ends t.text := by
  have hdigits {digits : List Char} (h : ∀ c ∈ digits, c.isDigit = true) : Ends digits :=
    ends_of_forall fun c hc => not_isBlank_of_isNameChar (digit_facts (h c hc)).1
  cases t with
  | name first second =>
      rw [isProper, Bool.and_eq_true] at ht
      exact ends_nameText ht.1 ht.2
  | anyName qualifier => exact ends_append_of_ne_nil (by simp [Ends]; decide) (by simp) _
  | reference first second =>
      rw [isProper, Bool.and_eq_true] at ht
      exact (show Ends ['$'] by simp [Ends]; decide).append (ends_nameText ht.1 ht.2)
  | number whole fraction =>
      simp only [isProper, Bool.and_eq_true, List.all_eq_true] at ht
      refine (hdigits ht.1.1).append ?_
      cases fraction with
      | none => simp [Ends]
      | some fraction =>
          have hfraction : fraction.all Char.isDigit = true := ht.1.2
          exact (show Ends ['.'] by simp [Ends]; decide).append
            (hdigits (List.all_eq_true.1 hfraction))
  | literal quote text =>
      simp only [isProper, Bool.and_eq_true, Bool.or_eq_true, beq_iff_eq] at ht
      refine ends_append_singleton ?_ (quote :: text)
      obtain rfl | rfl := ht.1 <;> decide
  | mark m => cases m <;> · simp [Ends, text, Mark.text]; decide

/-! ## Spelled texts -/

/-- White space between tokens. -/
def IsGap (gap : List Char) : Prop := ∀ c ∈ gap, isXmlSpace c = true

theorem dropSpace_gap {gap : List Char} (h : IsGap gap) (s : List Char) :
    dropSpace (gap ++ s) = dropSpace s :=
  List.dropWhile_append_of_pos h

theorem Token.dropSpace_text {t : Token} (ht : t.isProper = true) (rest : List Char) :
    dropSpace (t.text ++ rest) = t.text ++ rest := by
  obtain ⟨c, cs, htext, hbegins⟩ := t.exists_begins ht
  rw [htext]
  exact dropSpace_cons hbegins.not_isXmlSpace _

theorem spell_cons (part : Spaced) (parts : List Spaced) :
    spell (part :: parts) = part.gap ++ (part.token.text ++ spell parts) := by
  rw [spell, List.flatMap_cons, List.append_assoc]
  rfl

/-- A spelling begins with a colon only where it begins with two. -/
theorem colon_of_isSpelled {parts : List Spaced} (h : isSpelled parts = true) {s : List Char}
    (hs : spell parts = ':' :: s) : s.head? = some ':' := by
  cases parts with
  | nil => simp [spell] at hs
  | cons part parts =>
      simp only [isSpelled, Bool.and_eq_true, List.all_eq_true] at h
      rw [spell_cons] at hs
      cases hgap : part.gap with
      | cons c gap =>
          rw [hgap, List.cons_append] at hs
          obtain rfl := (List.cons.inj hs).1
          exact absurd (h.1.1.1 ':' (by simp [hgap])) (by decide)
      | nil =>
          obtain ⟨c, cs, htext, hbegins⟩ := part.token.exists_begins h.1.1.2
          rw [hgap, List.nil_append, htext, List.cons_append] at hs
          obtain ⟨rfl, rfl⟩ := List.cons.inj hs
          obtain ⟨m, htoken, hm⟩ := hbegins.exists_mark (by decide)
          rw [htoken, Token.text] at htext
          cases m <;> simp [Mark.text] at hm htext
          rw [← htext]
          rfl

theorem ends_spell {parts : List Spaced} (h : isSpelled parts = true) : Ends (spell parts) := by
  have hproper : ∀ part ∈ parts, part.token.isProper = true := by
    induction parts with
    | nil => simp
    | cons part parts ih =>
        simp only [isSpelled, Bool.and_eq_true] at h
        intro other hother
        obtain rfl | hother := List.mem_cons.1 hother
        · exact h.1.1.2
        · exact ih h.2 other hother
  exact ends_flatMap fun part hpart =>
    ends_append_of_ne_nil (Token.ends_text (hproper part hpart))
      (Token.text_ne_nil (hproper part hpart)) _

/-- Of the members of a class at the end of a text none is left, and nothing else goes. -/
theorem trimEnd_append {p : Char → Bool} {text tail : List Char}
    (htext : ∀ c ∈ text.getLast?, p c = false) (htail : ∀ c ∈ tail, p c = true) :
    trimEnd p (text ++ tail) = text := by
  have hstop : text.reverse.dropWhile p = text.reverse := by
    cases hlast : text.reverse with
    | nil => rfl
    | cons c s =>
        have hc : p c = false := htext c (by
          rw [← List.head?_reverse, hlast]
          rfl)
        simp [hc]
  rw [trimEnd, List.reverse_append,
    List.dropWhile_append_of_pos (by simpa using htail), hstop, List.reverse_reverse]

theorem trim_spell {parts : List Spaced} (h : isSpelled parts = true) {tail : List Char}
    (htail : tail.all isXmlSpace = true) :
    trim isBlank (spell parts ++ tail) = dropSpace (spell parts) := by
  have hends := ends_spell h
  have hblank : ∀ c ∈ tail, isBlank c = true :=
    fun c hc => isBlank_of_isXmlSpace (List.all_eq_true.1 htail c hc)
  cases parts with
  | nil =>
      rw [spell, List.flatMap_nil, List.nil_append, trim,
        List.dropWhile_eq_nil_iff.2 fun c hc => hblank c hc]
      rfl
  | cons part parts =>
      simp only [isSpelled, Bool.and_eq_true, List.all_eq_true] at h
      have hgap : ∀ c ∈ part.gap, isBlank c = true :=
        fun c hc => isBlank_of_isXmlSpace (h.1.1.1 c hc)
      obtain ⟨c, cs, htext, hbegins⟩ := part.token.exists_begins h.1.1.2
      have hstop (rest : List Char) :
          (part.token.text ++ rest).dropWhile isBlank = part.token.text ++ rest := by
        simp [htext, hbegins.not_isBlank]
      have hends' : Ends (part.token.text ++ spell parts) := by
        rw [spell_cons] at hends
        intro c hc
        exact hends c (by rwa [List.getLast?_append_of_ne_nil _ (by simp [htext])])
      rw [spell_cons, dropSpace_gap h.1.1.1, part.token.dropSpace_text h.1.1.2, trim,
        List.append_assoc, List.dropWhile_append_of_pos hgap, List.append_assoc, hstop,
        ← List.append_assoc, trimEnd_append hends' hblank]

end Restyle.Grammar
