import Mathlib
import Restyle.Proofs.Expr.Lexemes

/-!
# Restyle.Proofs.Expr.Lexing

Readers that read one token.

A reader lexes (`Lexes`) when it does with a token, whatever stands behind it, always the same: it
fails, or it reads the token off, or it reads a part of it and leaves the rest standing with a
character that no reader takes (`Stuck`).  The last is what happens to `or:x` behind an operand, and
to a name with a character that no name can hold.

* `lexes_literal`, `lexes_number`, `lexes_variableRef` — operands that are one token;
* `lexes_qName`, `lexes_qualifiedTest` — names;
* `lexes_wordOp`, `lexes_sign` — operators.
-/

namespace Restyle.Grammar

open Text

/-! ## Characters that nothing reads -/

/-- A character with which no operator, no closing mark and, where an operand is to come, no operand
begins. -/
structure Stuck (p : Place) (c : Char) : Prop where
  not_isNameStart : isNameStart c = false
  not_isXmlSpace : isXmlSpace c = false
  not_mem : c ∉ signs
  ne_minus : c ≠ '-'
  not_isDigit : p ≠ .operator → c.isDigit = false ∧ c ≠ '.'

/-- A character of a word that stands in no name is not read at all. -/
theorem stuck_of_isWordChar {c : Char} (hword : isWordChar c = true) (hname : isNameChar c = false)
    (p : Place) : Stuck p c := by
  have hne {d : Char} (hd : isNameChar d = true) : c ≠ d := by
    rintro rfl
    simp [hd] at hname
  obtain ⟨hblank, -, hsigns⟩ := isWordChar_iff.1 hword
  exact {
    not_isNameStart := by
      by_contra hstart
      simp [isNameChar_of_isNameStart (by simpa using hstart)] at hname
    not_isXmlSpace := isXmlSpace_of_isBlank hblank
    not_mem := hsigns
    ne_minus := hne (by decide)
    not_isDigit := fun _ => by
      refine ⟨?_, hne (by decide)⟩
      by_contra hdigit
      simp [(digit_facts (by simpa using hdigit)).1] at hname }

theorem stuck_colon (p : Place) : Stuck p ':' :=
  ⟨by decide, by decide, by decide, by decide, fun _ => by decide⟩

theorem stuck_of_isDigit {c : Char} (h : c.isDigit = true) : Stuck .operator c := by
  have hname := (digit_facts h).1
  exact {
    not_isNameStart := (digit_facts h).2
    not_isXmlSpace := isXmlSpace_of_isBlank (not_isBlank_of_isNameChar hname)
    not_mem := fun hmem => by simp [not_isNameChar_of_mem_signs hmem] at hname
    ne_minus := by
      rintro rfl
      exact absurd h (by decide)
    not_isDigit := fun hplace => absurd rfl hplace }

/-! ## Words in front of a text -/

/-- A run goes no further than a text whose first character is of another kind. -/
theorem takeWhile_append_of_head {p : Char → Bool} {rest : List Char}
    (h : ∀ c ∈ rest.head?, p c = false) (text : List Char) :
    (text ++ rest).takeWhile p = text.takeWhile p ∧
      (text ++ rest).dropWhile p = text.dropWhile p ++ rest := by
  induction text with
  | nil =>
      cases rest with
      | nil => simp
      | cons c rest =>
          have hc : p c = false := h c rfl
          simp [hc]
  | cons c text ih =>
      by_cases hc : p c = true
      · simp [hc, ih.1, ih.2]
      · simp [Bool.of_not_eq_true hc]

/-- Of a word nothing is found in a text that begins with none of its characters. -/
theorem skip_append_of_head {word rest : List Char} (h : ∀ c ∈ rest.head?, c ∉ word)
    (text : List Char) : skip word (text ++ rest) = (skip word text).map (· ++ rest) := by
  cases hskip : skip word text with
  | some left =>
      rw [skip_eq_some_iff.1 hskip, List.append_assoc, skip_append]
      rfl
  | none =>
      rw [Option.map_none, Option.eq_none_iff_forall_not_mem]
      intro left hleft
      obtain ⟨more, hword, hrest⟩ | ⟨more, htext, -⟩ :=
        List.append_eq_append_iff.1 (skip_eq_some_iff.1 hleft)
      · cases more with
        | nil =>
            have hfound := skip_append word []
            rw [List.append_nil, hword, List.append_nil] at hfound
            simp [hword, hfound] at hskip
        | cons c more => exact h c (by simp [hrest]) (by simp [hword])
      · simp [htext] at hskip

theorem skipWord_append_of_head {word rest : List Char} (hword : ∀ c ∈ word, isNameChar c = true)
    (h : ∀ c ∈ rest.head?, isNameChar c = false) (text : List Char) :
    skipWord word (text ++ rest) = (skipWord word text).map (· ++ rest) := by
  have hnotin : ∀ c ∈ rest.head?, c ∉ word := by
    intro c hc hmem
    simpa [h c hc] using hword c hmem
  rw [skipWord, skipWord, skip_append_of_head hnotin]
  cases skip word text with
  | none => rfl
  | some left =>
      cases left with
      | nil =>
          cases rest with
          | nil => rfl
          | cons c rest => simp [h c rfl]
      | cons c left => by_cases hc : isNameChar c = true <;> simp [hc]

/-- What a reader does with a text that stands in front of others. -/
def keep {α : Type} (rest : List Char) (found : α × List Char) : α × List Char :=
  (found.1, found.2 ++ rest)

theorem ncName_append_of_head {text rest : List Char} (hne : text ≠ [])
    (h : ∀ c ∈ rest.head?, isNameChar c = false) :
    ncName (text ++ rest) = (ncName text).map (keep rest) := by
  cases text with
  | nil => exact absurd rfl hne
  | cons c text =>
      obtain ⟨htake, hdrop⟩ := takeWhile_append_of_head h text
      by_cases hc : isNameStart c = true
      · simp [ncName, hc, htake, hdrop, keep]
      · simp [ncName, hc]

/-- What is left behind a name begins with no character of names. -/
theorem append_eq_of_ncName {text name left : List Char} (h : ncName text = some (name, left)) :
    name ++ left = text ∧ name ≠ [] ∧ ∀ c ∈ left.head?, isNameChar c = false := by
  cases text with
  | nil => simp [ncName] at h
  | cons c text =>
      by_cases hc : isNameStart c = true
      · simp only [ncName, hc, if_true, Option.some.injEq, Prod.mk.injEq] at h
        obtain ⟨rfl, rfl⟩ := h
        refine ⟨by simp, by simp, fun d hd => ?_⟩
        have := List.head?_dropWhile_not isNameChar text
        rw [Option.mem_def.1 hd] at this
        simpa using this
      · simp [ncName, hc] at h

/-! ## Readers in front of a text -/

/-- What may be left of a token: nothing, or something that is stuck. -/
def Leftover (p : Place) (left : List Char) : Prop :=
  left = [] ∨ ∃ c cs, left = c :: cs ∧ Stuck p c

/-- A reader does the same with a text, whatever of some kind follows it: it fails, or it reads
something and leaves something. -/
def Settles {α : Type} (f : List Char → Option (α × List Char)) (follows : List Char → Prop)
    (text : List Char) (leaves : List Char → Prop) : Prop :=
  (∀ rest, follows rest → f (text ++ rest) = none) ∨
    ∃ a left, leaves left ∧ left.length < text.length ∧
      ∀ rest, follows rest → f (text ++ rest) = some (a, left ++ rest)

/-- What may follow a word: nothing that goes on with it, and no colon with a name after it. -/
def EndsWord (rest : List Char) : Prop :=
  ∀ c s, rest = c :: s → isWordChar c = false ∧ (c = ':' → ncName s = none)

/-- Nothing that goes on with a name follows. -/
def EndsName (rest : List Char) : Prop := ∀ c ∈ rest.head?, isNameChar c = false

theorem EndsWord.endsName {rest : List Char} (h : EndsWord rest) : EndsName rest := by
  intro c hc
  obtain ⟨s, rfl⟩ := List.head?_eq_some_iff.1 hc
  exact isNameChar_of_not_isWordChar (h c s rfl).1

theorem endsName_colon (rest : List Char) : EndsName (':' :: rest) := by
  intro c hc
  obtain rfl : ':' = c := by simpa using hc
  decide

/-- Of a word either nothing is read as a name, or all of it, or what comes before a character that
stands in no name. -/
theorem ncName_word {word : List Char} (hword : isWord word = true) :
    (∀ rest, EndsName rest → ncName (word ++ rest) = none) ∨
    (∀ rest, EndsName rest → ncName (word ++ rest) = some (word, rest)) ∨
    ∃ name c cs, isWordChar c = true ∧ isNameChar c = false ∧ (c :: cs).length < word.length ∧
      ∀ rest, EndsName rest → ncName (word ++ rest) = some (name, c :: cs ++ rest) := by
  have hread {rest : List Char} (hrest : EndsName rest) :=
    ncName_append_of_head (ne_nil_of_isWord hword) hrest
  cases hname : ncName word with
  | none => exact .inl fun rest hrest => by rw [hread hrest, hname]; rfl
  | some found =>
      obtain ⟨name, left⟩ := found
      obtain ⟨htext, hne, hstop⟩ := append_eq_of_ncName hname
      cases left with
      | nil =>
          obtain rfl : name = word := by simpa using htext
          exact .inr (.inl fun rest hrest => by rw [hread hrest, hname]; rfl)
      | cons c cs =>
          refine .inr (.inr ⟨name, c, cs, isWordChar_of_mem hword (by simp [← htext]), hstop c rfl,
            ?_, fun rest hrest => by rw [hread hrest, hname]; rfl⟩)
          have := List.length_pos_iff.2 hne
          rw [← htext, List.length_append]
          omega

theorem qName_of_ncName {s first rest : List Char} (h : ncName s = some (first, rest))
    (hrest : ∀ c ∈ rest.head?, c ≠ ':') : qName s = some (first, rest) := by
  rw [qName, h]
  cases rest with
  | nil => rfl
  | cons c rest =>
      have := hrest c rfl
      split <;> simp_all

theorem qName_of_ncName_colon {s first rest : List Char}
    (h : ncName s = some (first, ':' :: rest)) :
    qName s = some (((ncName rest).map fun found => (first ++ ':' :: found.1, found.2)).getD
      (first, ':' :: rest)) := by
  simp only [qName, h]
  cases ncName rest <;> rfl

theorem qName_of_ncName_none {s : List Char} (h : ncName s = none) : qName s = none := by
  rw [qName, h]

/-- A word is read off as a name, or to where it is no name any more. -/
theorem settles_qName_word {word : List Char} (hword : isWord word = true) (p : Place) :
    Settles qName EndsWord word (Leftover p) := by
  obtain h | h | ⟨name, c, cs, hc, hstop, hlt, h⟩ := ncName_word hword
  · exact .inl fun rest hrest => qName_of_ncName_none (h rest hrest.endsName)
  · refine .inr ⟨word, [], .inl rfl, List.length_pos_iff.2 (ne_nil_of_isWord hword), ?_⟩
    intro rest hrest
    have hread := h rest hrest.endsName
    cases rest with
    | nil => exact qName_of_ncName hread (by simp)
    | cons c rest =>
        by_cases hc : c = ':'
        · subst hc
          rw [qName_of_ncName_colon hread, (hrest ':' rest rfl).2 rfl]
          rfl
        · exact qName_of_ncName hread (by simpa using hc)
  · refine .inr ⟨name, c :: cs, .inr ⟨c, cs, rfl, stuck_of_isWordChar hc hstop p⟩, hlt, ?_⟩
    intro rest hrest
    exact qName_of_ncName (h rest hrest.endsName) (by simpa using (isWordChar_iff.1 hc).2.1)

/-- A word with another one behind a colon is read off as a name, or to where it is no name any
more. -/
theorem settles_qName_colon {first second : List Char} (hfirst : isWord first = true)
    (hsecond : isWord second = true) (p : Place) :
    Settles qName EndsWord (first ++ ':' :: second) (Leftover p) := by
  have htext (rest : List Char) :
      first ++ ':' :: second ++ rest = first ++ ':' :: (second ++ rest) := by simp
  have hpos := List.length_pos_iff.2 (ne_nil_of_isWord hfirst)
  obtain h | h | ⟨name, c, cs, hc, hstop, hlt, h⟩ := ncName_word hfirst
  · refine .inl fun rest _ => ?_
    rw [htext]
    exact qName_of_ncName_none (h _ (endsName_colon _))
  · have hread (rest : List Char) : qName (first ++ ':' :: second ++ rest) = some
        (((ncName (second ++ rest)).map fun found => (first ++ ':' :: found.1, found.2)).getD
          (first, ':' :: (second ++ rest))) := by
      rw [htext]
      exact qName_of_ncName_colon (h _ (endsName_colon _))
    obtain h' | h' | ⟨name, c, cs, hc, hstop, hlt, h'⟩ := ncName_word hsecond
    · refine .inr ⟨first, ':' :: second, .inr ⟨_, _, rfl, stuck_colon p⟩, ?_, fun rest hrest => ?_⟩
      · simpa using hpos
      · rw [hread, h' rest hrest.endsName]
        rfl
    · refine .inr ⟨first ++ ':' :: second, [], .inl rfl, by simp, fun rest hrest => ?_⟩
      rw [hread, h' rest hrest.endsName]
      rfl
    · refine .inr ⟨first ++ ':' :: name, c :: cs, .inr ⟨c, cs, rfl, stuck_of_isWordChar hc hstop p⟩,
        ?_, fun rest hrest => ?_⟩
      · simp only [List.length_append, List.length_cons] at hlt ⊢
        omega
      · rw [hread, h' rest hrest.endsName]
        rfl
  · refine .inr ⟨name, c :: cs ++ ':' :: second,
      .inr ⟨c, _, rfl, stuck_of_isWordChar hc hstop p⟩, ?_, fun rest _ => ?_⟩
    · simp only [List.length_append, List.length_cons] at hlt ⊢
      omega
    · rw [htext, List.append_assoc]
      exact qName_of_ncName (h _ (endsName_colon _)) (by simpa using (isWordChar_iff.1 hc).2.1)

theorem settles_qName {first : List Char} {second : Option (List Char)}
    (hfirst : isWord first = true) (hsecond : second.all isWord = true) (p : Place) :
    Settles qName EndsWord (Token.nameText first second) (Leftover p) := by
  cases second with
  | none => simpa [Token.nameText] using settles_qName_word hfirst p
  | some second => exact settles_qName_colon hfirst hsecond p

/-! ## Tokens in front of a text -/

theorem Token.EndsAt.endsWord {t : Token} {rest : List Char} (h : t.EndsAt rest)
    (ht : t.standsApart rest = rest.head?.all fun c => !isWordChar c) : EndsWord rest := by
  rintro c s rfl
  have hstop : isWordChar c = false := by simpa [ht] using h.standsApart
  refine ⟨hstop, fun hc => ?_⟩
  obtain ⟨s, rfl⟩ := List.head?_eq_some_iff.1 (h.colon s (by rw [hc]))
  rfl


/-- A reader that, of the tokens that stand in a place, reads some off and so comes to another
place, fails at the others, and leaves only what is stuck of what it reads in part. -/
structure Lexes {α : Type} (p q : Place) (f : List Char → Option (α × List Char)) : Prop where
  nil : f [] = none
  stuck {c : Char} (hc : Stuck p c) (s : List Char) : f (c :: s) = none
  token {t : Token} (ht : t.isProper = true) : Settles f t.EndsAt t.text fun left =>
    (left = [] → p.next [] t = q) ∧ Leftover q left

section Lexing

variable {α : Type} {f : List Char → Option (α × List Char)} {p q : Place}

/-- A reader that fails wherever a text does not begin in its own way lexes, if it does with the
tokens that begin in that way. -/
theorem Lexes.of_own (own : Char → Prop) (hnil : f [] = none)
    (hother : ∀ c s, ¬ own c → f (c :: s) = none) (hstuck : ∀ c, Stuck p c → ¬ own c)
    (htoken : ∀ (t : Token) c, t.isProper = true → t.Begins c → own c →
      Settles f t.EndsAt t.text fun left => (left = [] → p.next [] t = q) ∧ Leftover q left) :
    Lexes p q f where
  nil := hnil
  stuck {c} hc s := hother c s (hstuck c hc)
  token {t} ht := by
    obtain ⟨c, cs, htext, hc⟩ := Token.exists_begins ht
    by_cases hown : own c
    · exact htoken t c ht hc hown
    · exact .inl fun rest _ => by rw [htext]; exact hother c _ hown

theorem Settles.mono {follows follows' leaves leaves' : List Char → Prop} {text : List Char}
    (h : Settles f follows text leaves) (hfollows : ∀ rest, follows' rest → follows rest)
    (hleaves : ∀ left, leaves left → leaves' left) : Settles f follows' text leaves' := by
  obtain h | ⟨a, left, hleft, hlt, h⟩ := h
  · exact .inl fun rest hrest => h rest (hfollows rest hrest)
  · exact .inr ⟨a, left, hleaves left hleft, hlt, fun rest hrest => h rest (hfollows rest hrest)⟩

/-- A token is read off as a whole. -/
theorem Settles.whole {t : Token} (ht : t.isProper = true) (a : α)
    (h : ∀ rest, t.EndsAt rest → f (t.text ++ rest) = some (a, rest)) (hq : p.next [] t = q) :
    Settles f t.EndsAt t.text fun left => (left = [] → p.next [] t = q) ∧ Leftover q left := by
  obtain ⟨c, cs, htext, -⟩ := Token.exists_begins ht
  exact .inr ⟨a, [], ⟨fun _ => hq, .inl rfl⟩, by simp [htext], h⟩

end Lexing

/-! ### Literals, numbers and variables -/

theorem lexes_literal : Lexes .operand .operator literal := by
  refine .of_own (fun c => c = '\'' ∨ c = '"') rfl ?_ ?_ ?_
  · intro c s hc
    rw [not_or] at hc
    unfold literal
    split <;> simp_all
  · rintro c hc (rfl | rfl) <;> exact hc.not_mem (by decide)
  · intro t c ht hbegins hc
    cases t with
    | literal quote text =>
        simp only [Token.isProper, Bool.and_eq_true, Bool.or_eq_true, beq_iff_eq,
          Bool.not_eq_true', List.contains_eq_mem, decide_eq_false_iff_not] at ht
        refine .whole (by simpa [Token.isProper] using ht) text (fun rest _ => ?_) rfl
        have hclose := closedBy_append ht.2 rest
        obtain ⟨rfl | rfl, -⟩ := ht <;> simpa [Token.text, literal] using hclose
    | name first second | anyName qualifier =>
        exact absurd (show c ∈ signs by obtain rfl | rfl := hc <;> decide)
          (not_mem_signs_of_isWordStart hbegins)
    | number whole fraction => obtain rfl | rfl := hc <;> simp [Token.Begins] at hbegins
    | reference first second => obtain rfl | rfl := hc <;> simp [Token.Begins] at hbegins
    | mark m =>
        cases m <;> · obtain rfl : _ = c := by simpa [Token.Begins, Mark.text] using hbegins
                      exact absurd hc (by decide)

theorem number_fraction {whole fraction rest : List Char}
    (hwhole : ∀ c ∈ whole, c.isDigit = true) (hfraction : ∀ c ∈ fraction, c.isDigit = true)
    (hne : whole ≠ [] ∨ fraction ≠ []) (hrest : ∀ c ∈ rest.head?, c.isDigit = false) :
    number (whole ++ '.' :: fraction ++ rest) = some (numeralValue false whole fraction, rest) := by
  have hpoint : ∀ c ∈ ('.' :: (fraction ++ rest)).head?, c.isDigit = false := by simp
  obtain ⟨htake, hdrop⟩ := takeWhile_append_stop hwhole hpoint
  obtain ⟨htake', hdrop'⟩ := takeWhile_append_stop hfraction hrest
  have hempty : (whole.isEmpty && fraction.isEmpty) = false := by
    obtain h | h := hne <;> simp [h]
  rw [List.append_assoc, List.cons_append, number, htake, hdrop]
  simp only [htake', hdrop', hempty, Bool.false_eq_true, if_false]

theorem number_of_head {c : Char} (hdigit : c.isDigit = false) (hpoint : c ≠ '.') (s : List Char) :
    number (c :: s) = none := by
  rw [number]
  simp only [List.takeWhile_cons, hdigit, List.dropWhile_cons, Bool.false_eq_true, if_false,
    List.isEmpty_nil, Bool.true_and]
  split
  · next h => exact absurd (List.cons.inj h).1 hpoint
  · rfl

/-- A point is no number where no digit follows it. -/
theorem number_point {s : List Char} (h : ∀ c ∈ s.head?, c.isDigit = false) :
    number ('.' :: s) = none := by
  have htake : s.takeWhile Char.isDigit = [] := (takeWhile_append_of_head h []).1
  have hdot : Char.isDigit '.' = false := by decide
  rw [number]
  simp [hdot, htake]

theorem lexes_number : Lexes .operand .operator number := by
  refine .of_own (fun c => c.isDigit = true ∨ c = '.') rfl ?_ ?_ ?_
  · intro c s hc
    rw [not_or, Bool.not_eq_true] at hc
    exact number_of_head hc.1 hc.2 s
  · rintro c hc hown
    obtain ⟨hdigit, hpoint⟩ := hc.not_isDigit (by decide)
    simp [hdigit, hpoint] at hown
  · intro t c ht hbegins hown
    cases t with
    | number whole fraction =>
        have hproper := ht
        simp only [Token.isProper, Bool.and_eq_true, List.all_eq_true, Bool.or_eq_true,
          Bool.not_eq_true', List.isEmpty_eq_false_iff] at hproper
        cases fraction with
        | none =>
            refine .whole ht (numeralValue false whole []) (fun rest hrest => ?_) rfl
            have hstop : ∀ c ∈ rest.head?, c.isDigit = false ∧ c ≠ '.' := by
              simpa [Token.standsApart, Option.all_eq_true] using hrest.standsApart
            have hread := @number_append whole [] rest (by simpa using hproper.2) hproper.1.1
              (by simp) hstop
            simpa [Token.text] using hread
        | some fraction =>
            refine .whole ht (numeralValue false whole fraction) (fun rest hrest => ?_) rfl
            have hstop : ∀ c ∈ rest.head?, c.isDigit = false := by
              simpa [Token.standsApart, Option.all_eq_true] using hrest.standsApart
            exact number_fraction hproper.1.1 (by simpa using hproper.1.2)
              (by simpa using hproper.2) hstop
    | mark m =>
        by_cases hdot : m = .dot
        · subst hdot
          refine .inl fun rest hrest => number_point ?_
          have hstop : ∀ c ∈ rest.head?, c.isDigit = false ∧ c ≠ '.' := by
            simpa [Token.standsApart, Option.all_eq_true] using hrest.standsApart
          exact fun c hc => (hstop c hc).1
        · cases m <;> first | exact absurd rfl hdot | exact .inl fun _ _ => rfl
    | name first second | anyName qualifier =>
        have hstart : isWordStart c = true := hbegins
        simp only [isWordStart, Bool.and_eq_true, Bool.not_eq_true', bne_iff_ne] at hstart
        simp [hstart] at hown
    | reference first second =>
        obtain rfl : c = '$' := hbegins
        exact absurd hown (by decide)
    | literal quote text => obtain rfl | rfl := hbegins <;> exact absurd hown (by decide)

theorem lexes_variableRef : Lexes .operand .operator variableRef := by
  refine .of_own (· = '$') rfl ?_ ?_ ?_
  · intro c s hc
    simp [variableRef, skip_cons_of_ne (Ne.symm hc)]
  · rintro c hc rfl
    exact hc.not_mem (by decide)
  · rintro t c ht hbegins rfl
    cases t with
    | reference first second =>
        simp only [Token.isProper, Bool.and_eq_true] at ht
        obtain h | ⟨name, left, hleft, hlt, h⟩ := settles_qName ht.1 ht.2 .operator
        · exact .inl fun rest hrest => by
            simp [variableRef, Token.text, h rest (hrest.endsWord rfl)]
        · refine .inr ⟨.variable (String.ofList name), left, ⟨fun _ => rfl, hleft⟩, ?_, ?_⟩
          · simp only [Token.text, List.length_cons]
            omega
          · intro rest hrest
            simp [variableRef, Token.text, h rest (hrest.endsWord rfl)]
    | name first second | anyName qualifier =>
        exact absurd (show '$' ∈ signs by decide) (not_mem_signs_of_isWordStart hbegins)
    | number whole fraction => simp [Token.Begins] at hbegins
    | literal quote text => simp [Token.Begins] at hbegins
    | mark m => cases m <;> simp [Token.Begins, Mark.text] at hbegins

/-! ### Names -/

/-- A reader that fails where no name starts lexes, if it does with names and with any name of a
qualifier. -/
theorem Lexes.of_name {α : Type} {f : List Char → Option (α × List Char)} {p q : Place}
    (hnil : f [] = none) (hother : ∀ c s, isNameStart c = false → f (c :: s) = none)
    (hname : ∀ first second, (Token.name first second).isProper = true →
      Settles f (Token.name first second).EndsAt (Token.nameText first second) fun left =>
        (left = [] → p.next [] (.name first second) = q) ∧ Leftover q left)
    (hany : ∀ qualifier, isWord qualifier = true →
      Settles f (Token.anyName qualifier).EndsAt (qualifier ++ [':', '*']) fun left =>
        (left = [] → p.next [] (.anyName qualifier) = q) ∧ Leftover q left) : Lexes p q f := by
  refine .of_own (isNameStart · = true) hnil ?_ ?_ ?_
  · intro c s hc
    exact hother c s (by simpa using hc)
  · intro c hc
    simp [hc.not_isNameStart]
  · intro t c ht hbegins hc
    obtain ⟨first, second, rfl⟩ | ⟨qualifier, rfl⟩ := hbegins.word_of_isNameStart hc
    · exact hname first second ht
    · exact hany qualifier ht

theorem lexes_qName : Lexes .operand .operator qName := by
  refine .of_name rfl ?_ ?_ ?_
  · intro c s hc
    exact qName_of_ncName_none (by simp [ncName, hc])
  · intro first second ht
    rw [Token.isProper, Bool.and_eq_true] at ht
    refine (settles_qName ht.1 ht.2 .operator).mono (fun rest hrest => hrest.endsWord rfl) ?_
    intro left hleft
    refine ⟨fun _ => ?_, hleft⟩
    cases second <;> rfl
  · intro qualifier hword
    have hends (rest : List Char) : EndsWord (':' :: '*' :: rest) := by
      rintro c s h
      obtain ⟨rfl, rfl⟩ := List.cons.inj h
      exact ⟨by decide, fun _ => rfl⟩
    have htext (rest : List Char) :
        qualifier ++ [':', '*'] ++ rest = qualifier ++ ':' :: '*' :: rest := by simp
    obtain h | ⟨name, left, hleft, hlt, h⟩ := settles_qName_word hword .operator
    · exact .inl fun rest _ => by rw [htext]; exact h _ (hends rest)
    · refine .inr ⟨name, left ++ [':', '*'], ⟨by simp, ?_⟩, by simpa using hlt, fun rest _ => ?_⟩
      · obtain rfl | ⟨c, cs, rfl, hc⟩ := hleft
        · exact .inr ⟨':', _, rfl, stuck_colon _⟩
        · exact .inr ⟨c, _, rfl, hc⟩
      · rw [htext, h _ (hends rest), List.append_assoc]
        rfl

/-- A name is not any name of a qualifier. -/
theorem skip_anyName {second : Option (List Char)} (hsecond : second.all isWord = true)
    {rest : List Char} (hcolon : ∀ s, rest = ':' :: s → s.head? = some ':') :
    skip [':', '*'] (second.elim [] (':' :: ·) ++ rest) = none := by
  have hstar : ∀ s : List Char, s.head? ≠ some '*' → skip [':', '*'] (':' :: s) = none := by
    intro s hs
    cases s with
    | nil => rfl
    | cons c s =>
        rw [skip_cons]
        exact skip_cons_of_ne (by simpa [eq_comm] using hs) _ _
  cases second with
  | none =>
      cases rest with
      | nil => rfl
      | cons c rest =>
          by_cases hc : c = ':'
          · subst hc
            exact hstar rest (by simp [hcolon rest rfl])
          · exact skip_cons_of_ne (Ne.symm hc) _ _
  | some second =>
      refine hstar _ ?_
      have hsecond : isWord second = true := hsecond
      obtain ⟨c, cs, rfl⟩ := List.exists_cons_of_ne_nil (ne_nil_of_isWord hsecond)
      have hc : isWordChar c = true := isWordChar_of_mem hsecond (by simp)
      simpa using fun h : c = '*' => absurd hc (by rw [h]; decide)

theorem lexes_qualifiedTest : Lexes .operand .operator qualifiedTest := by
  refine .of_name rfl ?_ ?_ ?_
  · intro c s hc
    simp [qualifiedTest, ncName, hc]
  · intro first second ht
    rw [Token.isProper, Bool.and_eq_true] at ht
    refine .inl fun rest hrest => ?_
    have htail : EndsName (second.elim [] (':' :: ·) ++ rest) := by
      cases second with
      | none => exact (hrest.endsWord rfl).endsName
      | some second => exact endsName_colon _
    rw [Token.nameText, List.append_assoc]
    obtain h | h | ⟨name, c, cs, hc, -, -, h⟩ := ncName_word ht.1
    · simp [qualifiedTest, h _ htail]
    · simp [qualifiedTest, h _ htail, skip_anyName ht.2 hrest.colon]
    · have hmark (s : List Char) : skip [':', '*'] (c :: s) = none :=
        skip_cons_of_ne (isWordChar_iff.1 hc).2.1.symm _ _
      simp [qualifiedTest, h _ htail, hmark]
  · intro qualifier hword
    have htext (rest : List Char) :
        qualifier ++ [':', '*'] ++ rest = qualifier ++ ':' :: '*' :: rest := by simp
    obtain h | h | ⟨name, c, cs, hc, -, -, h⟩ := ncName_word hword
    · refine .inl fun rest _ => ?_
      rw [htext]
      simp [qualifiedTest, h _ (endsName_colon _)]
    · refine .whole (t := .anyName qualifier) hword (.qualified (String.ofList qualifier)) ?_ rfl
      intro rest _
      rw [Token.text, htext]
      simp [qualifiedTest, h _ (endsName_colon _)]
    · have hmark (s : List Char) : skip [':', '*'] (c :: s) = none :=
        skip_cons_of_ne (isWordChar_iff.1 hc).2.1.symm _ _
      refine .inl fun rest _ => ?_
      rw [htext]
      simp [qualifiedTest, h _ (endsName_colon _), hmark]

/-! ### Operators -/

theorem append_eq_of_skipWord {word s left : List Char} (h : skipWord word s = some left) :
    word ++ left = s ∧ EndsName left := by
  unfold skipWord at h
  split at h
  · next c rest hskip =>
    split at h
    · simp at h
    · next hc =>
      obtain rfl := Option.some.inj h
      exact ⟨(skip_eq_some_iff.1 hskip).symm, by simpa [EndsName] using hc⟩
  · next other hother =>
    refine ⟨(skip_eq_some_iff.1 h).symm, ?_⟩
    cases left with
    | nil => simp [EndsName]
    | cons c left => exact absurd h (hother c left)

theorem wordOp_append {words : List (List Char × BinaryOp)}
    (hwords : ∀ entry ∈ words, ∀ c ∈ entry.1, isNameChar c = true) {rest : List Char}
    (hrest : EndsName rest) (text : List Char) :
    wordOp words (text ++ rest) = (wordOp words text).map (keep rest) := by
  induction words with
  | nil => rfl
  | cons entry words ih =>
      have hskip := skipWord_append_of_head (hwords entry (by simp)) hrest text
      have hothers := ih fun other hother => hwords other (List.mem_cons_of_mem _ hother)
      simp only [wordOp, List.findSome?_cons, hskip] at hothers ⊢
      cases skipWord entry.1 text with
      | none => exact hothers
      | some left => rfl

/-- Of a word an operator is read off, or what comes before a character that stands in no name. -/
theorem wordOp_word {words : List (List Char × BinaryOp)}
    (hwords : ∀ entry ∈ words, entry.1 ∈ operatorWords) {word : List Char}
    (hword : isWord word = true) :
    (∀ rest, EndsName rest → wordOp words (word ++ rest) = none) ∨
    ∃ op left, (left = [] → word ∈ operatorWords) ∧ Leftover .operand left ∧
      left.length < word.length ∧
      ∀ rest, EndsName rest → wordOp words (word ++ rest) = some (op, left ++ rest) := by
  have hchars : ∀ known ∈ operatorWords, known ≠ [] ∧ ∀ c ∈ known, isNameChar c = true := by
    intro known hknown
    simp only [operatorWords, List.mem_cons, List.not_mem_nil, or_false] at hknown
    obtain rfl | rfl | rfl | rfl := hknown <;> exact ⟨by simp, List.all_eq_true.1 (by decide)⟩
  have hread {rest : List Char} (hrest : EndsName rest) :=
    wordOp_append (fun entry hentry => (hchars _ (hwords entry hentry)).2) hrest word
  cases hop : wordOp words word with
  | none => exact .inl fun rest hrest => by rw [hread hrest, hop]; rfl
  | some found =>
      obtain ⟨op, left⟩ := found
      obtain ⟨entry, hentry, hfound⟩ := List.exists_of_findSome?_eq_some hop
      obtain ⟨left', hskip, hpair⟩ := Option.map_eq_some_iff.1 hfound
      obtain ⟨-, rfl⟩ := Prod.mk.inj hpair
      obtain ⟨htext, hends⟩ := append_eq_of_skipWord hskip
      have hknown := hwords entry hentry
      refine .inr ⟨op, left', ?_, ?_, ?_, fun rest hrest => by rw [hread hrest, hop]; rfl⟩
      · rintro rfl
        rwa [← htext, List.append_nil]
      · cases left' with
        | nil => exact .inl rfl
        | cons c left' =>
            have hc : isWordChar c = true := isWordChar_of_mem hword (by simp [← htext])
            exact .inr ⟨c, left', rfl, stuck_of_isWordChar hc (hends c rfl) _⟩
      · have := List.length_pos_iff.2 (hchars _ hknown).1
        rw [← htext, List.length_append]
        omega

/-- Operators that are words lex where an operand has ended. -/
theorem lexes_wordOp {words : List (List Char × BinaryOp)}
    (hwords : ∀ entry ∈ words, entry.1 ∈ operatorWords) :
    Lexes .operator .operand (wordOp words) := by
  have hstart : ∀ known ∈ operatorWords, ∃ c cs, known = c :: cs ∧ isNameStart c = true := by
    intro known hknown
    simp only [operatorWords, List.mem_cons, List.not_mem_nil, or_false] at hknown
    obtain rfl | rfl | rfl | rfl := hknown <;> exact ⟨_, _, rfl, by decide⟩
  -- A token that goes on behind its first word does so with a colon.
  have hcolon {first : List Char} (hfirst : isWord first = true) (others : List Char)
      {follows : List Char → Prop} {next : Place} :
      Settles (wordOp words) follows (first ++ ':' :: others) fun left =>
        (left = [] → next = .operand) ∧ Leftover .operand left := by
    obtain h | ⟨op, left, -, hleft, hlt, h⟩ := wordOp_word hwords hfirst
    · refine .inl fun rest _ => ?_
      rw [List.append_assoc]
      exact h _ (endsName_colon _)
    · refine .inr ⟨op, left ++ ':' :: others, ⟨by simp, ?_⟩, by simpa using hlt, fun rest _ => ?_⟩
      · obtain rfl | ⟨c, cs, rfl, hc⟩ := hleft
        · exact .inr ⟨':', _, rfl, stuck_colon _⟩
        · exact .inr ⟨c, _, rfl, hc⟩
      · rw [List.append_assoc, List.append_assoc]
        exact h _ (endsName_colon _)
  refine .of_name ?_ ?_ ?_ ?_
  · rw [wordOp, List.findSome?_eq_none_iff]
    rintro ⟨word, op⟩ hentry
    obtain ⟨c, cs, rfl, -⟩ := hstart word (hwords _ hentry)
    rfl
  · intro c s hc
    rw [wordOp, List.findSome?_eq_none_iff]
    rintro ⟨word, op⟩ hentry
    obtain ⟨d, cs, rfl, hd⟩ := hstart word (hwords _ hentry)
    simp [skipWord, skip_cons_of_ne (ne_of_isNameStart hd hc)]
  · intro first second ht
    rw [Token.isProper, Bool.and_eq_true] at ht
    cases second with
    | some second => exact hcolon ht.1 second
    | none =>
        obtain h | ⟨op, left, hknown, hleft, hlt, h⟩ := wordOp_word hwords ht.1
        · refine .inl fun rest hrest => ?_
          rw [Token.nameText, List.append_assoc]
          exact h _ (hrest.endsWord rfl).endsName
        · refine .inr ⟨op, left, ⟨fun hnil => ?_, hleft⟩, by simpa [Token.nameText] using hlt, ?_⟩
          · have hmem := hknown hnil
            simp [Place.next, hmem]
          · intro rest hrest
            rw [Token.nameText, List.append_assoc]
            exact h _ (hrest.endsWord rfl).endsName
  · intro qualifier hword
    exact hcolon hword ['*']

/-- The characters with which operators that are signs begin. -/
def operatorSigns : List Char := ['|', '+', '-', '=', '!', '<', '>', '*']

/-- Operators that are signs lex where an operand has ended, if they do with the marks. -/
theorem lexes_sign {entries : List (List Char × BinaryOp)}
    (hentries : ∀ entry ∈ entries, ∃ c cs, entry.1 = c :: cs ∧ c ∈ operatorSigns)
    (hmark : ∀ m : Mark, Settles (sign entries) (Token.mark m).EndsAt m.text fun left =>
      (left = [] → Place.operator.next [] (.mark m) = .operand) ∧ Leftover .operand left) :
    Lexes .operator .operand (sign entries) := by
  have hsigns : ∀ c ∈ operatorSigns, c ∈ signs ∨ c = '-' := by simp [operatorSigns, signs]
  refine .of_own (· ∈ operatorSigns) ?_ ?_ ?_ ?_
  · rw [sign, List.findSome?_eq_none_iff]
    rintro ⟨mark, op⟩ hentry
    obtain ⟨c, cs, rfl, -⟩ := hentries _ hentry
    rfl
  · intro c s hc
    rw [sign, List.findSome?_eq_none_iff]
    rintro ⟨mark, op⟩ hentry
    obtain ⟨d, cs, rfl, hd⟩ := hentries _ hentry
    simp [skip_cons_of_ne (show d ≠ c by rintro rfl; exact hc hd)]
  · intro c hc hmem
    obtain h | rfl := hsigns c hmem
    · exact hc.not_mem h
    · exact hc.ne_minus rfl
  · intro t c ht hbegins hc
    have hmarks : ∀ c ∈ operatorSigns, c ∈ markSigns := by simp [operatorSigns, markSigns]
    obtain ⟨m, rfl, -⟩ := hbegins.exists_mark (hmarks c hc)
    exact hmark m

theorem lexes_orOp : Lexes .operator .operand orOp := lexes_wordOp (by decide)

theorem lexes_andOp : Lexes .operator .operand andOp := lexes_wordOp (by decide)

/-- A mark that is an operator is read off. -/
theorem Settles.mark {m : Mark} {α : Type} {f : List Char → Option (α × List Char)} (a : α)
    (hm : Place.operator.next [] (.mark m) = .operand)
    (h : ∀ rest, (Token.mark m).EndsAt rest → f (m.text ++ rest) = some (a, rest)) :
    Settles f (Token.mark m).EndsAt m.text fun left =>
      (left = [] → Place.operator.next [] (.mark m) = .operand) ∧ Leftover .operand left :=
  .whole (t := .mark m) rfl a h hm

theorem lexes_unionOp : Lexes .operator .operand unionOp := by
  refine lexes_sign (by simp [operatorSigns]) fun m => ?_
  cases m with
  | bar => exact .mark .union rfl fun _ _ => rfl
  | _ => exact .inl fun _ _ => rfl

theorem lexes_sumOp : Lexes .operator .operand sumOp := by
  refine lexes_sign (by simp [operatorSigns]) fun m => ?_
  cases m with
  | plus => exact .mark .plus rfl fun _ _ => rfl
  | minus => exact .mark .minus rfl fun _ _ => rfl
  | _ => exact .inl fun _ _ => rfl

theorem lexes_equalityOp : Lexes .operator .operand equalityOp := by
  refine lexes_sign (by simp [operatorSigns]) fun m => ?_
  cases m with
  | equals => exact .mark .equals rfl fun _ _ => rfl
  | notEquals => exact .mark .notEquals rfl fun _ _ => rfl
  | _ => exact .inl fun _ _ => rfl

theorem lexes_orderOp : Lexes .operator .operand orderOp := by
  have hequal {t : Token} {rest : List Char} (h : t.EndsAt rest)
      (ht : t.standsApart rest = rest.head?.all (· != '=')) : skip ['='] rest = none := by
    cases rest with
    | nil => rfl
    | cons c rest =>
        have hc : c ≠ '=' := by simpa [ht] using h.standsApart
        exact skip_cons_of_ne hc.symm _ _
  refine lexes_sign (by simp [operatorSigns]) fun m => ?_
  cases m with
  | lessEqual => exact .mark .lessEqual rfl fun _ _ => rfl
  | greaterEqual => exact .mark .greaterEqual rfl fun _ _ => rfl
  | less =>
      refine .mark .less rfl fun rest hrest => ?_
      have := hequal hrest rfl
      simp [Mark.text, sign, skip_cons_of_ne, this]
  | greater =>
      refine .mark .greater rfl fun rest hrest => ?_
      have := hequal hrest rfl
      simp [Mark.text, sign, skip_cons_of_ne, this]
  | _ => exact .inl fun _ _ => rfl

/-- Of two readers that lex, the second one may be tried where the first one fails. -/
theorem Lexes.orElse {α : Type} {f g h : List Char → Option (α × List Char)} {p q : Place}
    (hf : Lexes p q f) (hg : Lexes p q g) (hh : ∀ s, h s = (f s).or (g s)) : Lexes p q h where
  nil := by rw [hh, hf.nil, hg.nil]; rfl
  stuck hc s := by rw [hh, hf.stuck hc, hg.stuck hc]; rfl
  token {t} ht := by
    obtain hnone | ⟨a, left, hleft, hlt, hsome⟩ := hf.token ht
    · obtain hnone' | ⟨a, left, hleft, hlt, hsome⟩ := hg.token ht
      · exact .inl fun rest hrest => by rw [hh, hnone rest hrest, hnone' rest hrest]; rfl
      · exact .inr ⟨a, left, hleft, hlt, fun rest hrest => by
          rw [hh, hnone rest hrest, hsome rest hrest]; rfl⟩
    · exact .inr ⟨a, left, hleft, hlt, fun rest hrest => by rw [hh, hsome rest hrest]; rfl⟩

theorem lexes_productOp : Lexes .operator .operand productOp := by
  have hsign : Lexes .operator .operand (sign [(['*'], .times)]) := by
    refine lexes_sign (by simp [operatorSigns]) fun m => ?_
    cases m with
    | asterisk => exact .mark .times rfl fun _ _ => rfl
    | _ => exact .inl fun _ _ => rfl
  have hword : Lexes .operator .operand
      (wordOp [(['d', 'i', 'v'], .divide), (['m', 'o', 'd'], .modulo)]) := lexes_wordOp (by decide)
  refine hsign.orElse hword fun s => ?_
  unfold productOp
  cases sign [(['*'], .times)] s <;> rfl

end Restyle.Grammar
