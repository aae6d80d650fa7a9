import Mathlib
import Restyle.Proofs.Double.Order
import Restyle.Proofs.Expr.Lexing
import Restyle.Proofs.Expr.RoundTrip
import Restyle.Value

/-!
# Restyle.Proofs.Value.Numerals

The numerals of expressions and the numerals in texts.

A number in an expression is read by trying four forms in turn, and a text is read as a number by
taking white space and a sign away and cutting what is left at its point.  Both accept the same
numerals and give them the same value: digits, digits with a point behind them, with a point between
them or with a point before them.

* `Numeral` — the four forms, with the digits before and after the point;
* `numeralParts?_eq_some_iff` — a text is cut at its point just if it is a numeral;
* `Grammar.number_eq_findSome?` — numbers are read by the first of four forms that can be;
* `readNumber_of_numeral` — white space and one sign may stand around a numeral;
* `numerals_agree` — the main result.
-/

namespace Restyle

open Grammar Text

/-! ## The four forms -/

/-- One digit or more. -/
def Digits (cs : List Char) : Prop := cs ≠ [] ∧ ∀ c ∈ cs, c.isDigit = true

/-- A text is a numeral, with the digits before its point and those after it. -/
inductive Numeral : (text whole fraction : List Char) → Prop
  | whole {whole : List Char} : Digits whole → Numeral whole whole []
  | pointed {whole : List Char} : Digits whole → Numeral (whole ++ ['.']) whole []
  | both {whole fraction : List Char} : Digits whole → Digits fraction →
    Numeral (whole ++ '.' :: fraction) whole fraction
  | fraction {fraction : List Char} : Digits fraction → Numeral ('.' :: fraction) [] fraction

/-- Whether a text is a numeral. -/
def IsNumeral (text : List Char) : Prop := ∃ whole fraction, Numeral text whole fraction

variable {text whole fraction rest : List Char}

/-- A numeral consists of digits before and after a point, with a digit on at least one side, or of
digits alone. -/
theorem numeral_iff : Numeral text whole fraction ↔
    (∀ c ∈ whole, c.isDigit = true) ∧ (∀ c ∈ fraction, c.isDigit = true) ∧
      (text = whole ∧ whole ≠ [] ∧ fraction = [] ∨
        text = whole ++ '.' :: fraction ∧ (whole ≠ [] ∨ fraction ≠ [])) := by
  constructor
  · intro h
    cases h with
    | whole h => exact ⟨h.2, by simp, .inl ⟨rfl, h.1, rfl⟩⟩
    | pointed h => exact ⟨h.2, by simp, .inr ⟨rfl, .inl h.1⟩⟩
    | both h h' => exact ⟨h.2, h'.2, .inr ⟨rfl, .inl h.1⟩⟩
    | fraction h => exact ⟨by simp, h.2, .inr ⟨rfl, .inr h.1⟩⟩
  · rintro ⟨hwhole, hfraction, ⟨rfl, hne, rfl⟩ | ⟨rfl, hne⟩⟩
    · exact .whole ⟨hne, hwhole⟩
    · by_cases hempty : whole = []
      · subst hempty
        exact .fraction ⟨by simpa using hne, hfraction⟩
      · by_cases hempty' : fraction = []
        · subst hempty'
          exact .pointed ⟨hempty, hwhole⟩
        · exact .both ⟨hempty, hwhole⟩ ⟨hempty', hfraction⟩

theorem Numeral.mem (h : Numeral text whole fraction) :
    ∀ c ∈ text, c.isDigit = true ∨ c = '.' := by
  obtain ⟨hwhole, hfraction, ⟨rfl, -⟩ | ⟨rfl, -⟩⟩ := numeral_iff.1 h
  · exact fun c hc => .inl (hwhole c hc)
  · intro c hc
    simp only [List.mem_append, List.mem_cons] at hc
    obtain hc | rfl | hc := hc
    · exact .inl (hwhole c hc)
    · exact .inr rfl
    · exact .inl (hfraction c hc)

theorem Numeral.ne_nil (h : Numeral text whole fraction) : text ≠ [] := by
  cases h with
  | whole h => exact h.1
  | _ => simp

/-! ## Cutting at the point -/

/-- A text is cut at its point just if it is a numeral. -/
theorem numeralParts?_eq_some_iff :
    numeralParts? text = some (whole, fraction) ↔ Numeral text whole fraction := by
  rw [numeral_iff]
  constructor
  · intro h
    have htext := (List.takeWhile_append_dropWhile (p := Char.isDigit) (l := text)).symm
    unfold numeralParts? at h
    split at h
    · next hnone =>
      rw [hnone, List.append_nil] at htext
      simp only [Option.ite_none_left_eq_some, Option.some.injEq, Prod.mk.injEq] at h
      obtain ⟨hne, rfl, rfl⟩ := h
      exact ⟨fun c => List.mem_takeWhile_imp, by simp, .inl ⟨htext, by simpa using hne, rfl⟩⟩
    · next hpoint =>
      rw [hpoint] at htext
      simp only [Option.ite_none_right_eq_some, Option.some.injEq, Prod.mk.injEq] at h
      obtain ⟨hproper, rfl, rfl⟩ := h
      simp only [Bool.and_eq_true, List.all_eq_true, Bool.not_eq_true', Bool.and_eq_false_iff,
        List.isEmpty_eq_false_iff] at hproper
      exact ⟨fun c => List.mem_takeWhile_imp, hproper.1, .inr ⟨htext, hproper.2⟩⟩
    · cases h
  · rintro ⟨hwhole, hfraction, ⟨rfl, hne, rfl⟩ | ⟨rfl, hne⟩⟩
    · have htake := List.takeWhile_eq_self_iff.2 hwhole
      have hdrop := List.dropWhile_eq_nil_iff.2 hwhole
      simp [numeralParts?, htake, hdrop, hne]
    · have hpoint : ∀ c ∈ ('.' :: fraction).head?, c.isDigit = false := by simp
      obtain ⟨htake, hdrop⟩ := takeWhile_append_stop hwhole hpoint
      have hall : fraction.all Char.isDigit = true := by simpa using hfraction
      have hempty : (whole.isEmpty && fraction.isEmpty) = false := by
        obtain h | h := hne <;> simp [h]
      simp [numeralParts?, htake, hdrop, hall, hempty]

namespace Grammar

/-! ## One form after the other -/

/-- As many digits as can be read, at least one. -/
def digits (s : List Char) : Option (List Char × List Char) :=
  if (s.takeWhile Char.isDigit).isEmpty then none
  else some (s.takeWhile Char.isDigit, s.dropWhile Char.isDigit)

/-- The readers of the four forms in the order in which they are tried, with the digits before and
after the point and what is left. -/
def numeralForms : List (List Char → Option (List Char × List Char × List Char)) :=
  [fun s => do
    let (whole, rest) ← digits s
    let (fraction, rest') ← digits (← skip ['.'] rest)
    return (whole, fraction, rest'),
   fun s => do
    let (whole, rest) ← digits s
    return (whole, [], ← skip ['.'] rest),
   fun s => do
    let (whole, rest) ← digits s
    return (whole, [], rest),
   fun s => do
    let (fraction, rest) ← digits (← skip ['.'] s)
    return ([], fraction, rest)]

theorem digits_of_nil {s : List Char} (h : s.takeWhile Char.isDigit = []) : digits s = none := by
  rw [digits, h]
  rfl

theorem digits_of_cons {s ds : List Char} {d : Char} (h : s.takeWhile Char.isDigit = d :: ds) :
    digits s = some (d :: ds, s.dropWhile Char.isDigit) := by
  rw [digits, h]
  rfl

theorem skip_point {s : List Char} (h : ∀ rest, s ≠ '.' :: rest) : skip ['.'] s = none := by
  cases s with
  | nil => rfl
  | cons c s =>
    refine skip_cons_of_ne ?_ _ _
    rintro rfl
    exact h s rfl

/-- A number is read by the first of the four forms that can be read. -/
theorem number_eq_findSome? (s : List Char) :
    number s = (numeralForms.findSome? fun form => form s).map fun found =>
      (numeralValue false found.1 found.2.1, found.2.2) := by
  have htext := List.takeWhile_append_dropWhile (p := Char.isDigit) (l := s)
  unfold number
  split
  · next behind hpoint =>
    have hskip (t : List Char) : skip ['.'] ('.' :: t) = some t := rfl
    cases hwhole : s.takeWhile Char.isDigit with
    | nil =>
      rw [hwhole, hpoint, List.nil_append] at htext
      subst htext
      cases hfraction : behind.takeWhile Char.isDigit with
      | nil => simp [numeralForms, digits_of_nil, hwhole, hfraction, hskip]
      | cons d ds => simp [numeralForms, digits_of_nil, digits_of_cons hfraction, hwhole, hskip]
    | cons c cs =>
      cases hfraction : behind.takeWhile Char.isDigit with
      | nil =>
        have hbehind := List.takeWhile_append_dropWhile (p := Char.isDigit) (l := behind)
        rw [hfraction, List.nil_append] at hbehind
        simp [numeralForms, digits_of_nil hfraction, digits_of_cons hwhole, hpoint, hskip, hbehind]
      | cons d ds =>
        simp [numeralForms, digits_of_cons hfraction, digits_of_cons hwhole, hpoint, hskip]
  · next hpoint =>
    have hskip := skip_point hpoint
    cases hwhole : s.takeWhile Char.isDigit with
    | nil =>
      rw [hwhole, List.nil_append] at htext
      rw [htext] at hskip
      simp [numeralForms, digits_of_nil hwhole, hskip]
    | cons c cs => simp [numeralForms, digits_of_cons hwhole, hskip]

/-! ## Numbers in expressions -/

/-- A numeral is read up to where it cannot go on. -/
theorem number_append_of_numeral (h : Numeral text whole fraction) (rest : List Char)
    (hrest : ∀ c ∈ rest.head?, c.isDigit = false ∧ c ≠ '.') :
    number (text ++ rest) = some (numeralValue false whole fraction, rest) := by
  obtain ⟨hwhole, hfraction, ⟨rfl, hne, rfl⟩ | ⟨rfl, hne⟩⟩ := numeral_iff.1 h
  · simpa only [List.isEmpty_nil, if_true, List.append_nil] using
      number_append hne hwhole hfraction hrest
  · exact number_fraction hwhole hfraction hne fun c hc => (hrest c hc).1

/-- A number is read and nothing is left just if the text is a numeral. -/
theorem number_eq_some_nil_iff {value : Double} : number text = some (value, []) ↔
    ∃ whole fraction, Numeral text whole fraction ∧ numeralValue false whole fraction = value := by
  constructor
  · intro h
    have htext := (List.takeWhile_append_dropWhile (p := Char.isDigit) (l := text)).symm
    unfold number at h
    split at h
    · next behind hpoint =>
      simp only [Option.ite_none_left_eq_some, Option.some.injEq, Prod.mk.injEq] at h
      obtain ⟨hne, hvalue, hleft⟩ := h
      have hbehind := (List.takeWhile_append_dropWhile (p := Char.isDigit) (l := behind)).symm
      rw [hleft, List.append_nil] at hbehind
      rw [hpoint, hbehind] at htext
      simp only [Bool.and_eq_true, List.isEmpty_iff, not_and_or] at hne
      exact ⟨_, _, numeral_iff.2 ⟨fun c => List.mem_takeWhile_imp, fun c => List.mem_takeWhile_imp,
        .inr ⟨htext, hne⟩⟩, hvalue⟩
    · simp only [Option.ite_none_left_eq_some, Option.some.injEq, Prod.mk.injEq] at h
      obtain ⟨hne, hvalue, hleft⟩ := h
      rw [hleft, List.append_nil] at htext
      simp only [List.isEmpty_iff] at hne
      exact ⟨_, _, numeral_iff.2 ⟨fun c => List.mem_takeWhile_imp, by simp, .inl ⟨htext, hne, rfl⟩⟩,
        hvalue⟩
  · rintro ⟨whole, fraction, h, rfl⟩
    have hread := number_append_of_numeral h [] nofun
    rwa [List.append_nil] at hread

end Grammar

theorem Numeral.not_isBlank (h : Numeral text whole fraction) :
    ∀ c ∈ text, isBlank c = false ∧ c ≠ '-' := by
  intro c hc
  obtain hdigit | rfl := h.mem c hc
  · refine ⟨not_isBlank_of_isNameChar (digit_facts hdigit).1, ?_⟩
    rintro rfl
    exact absurd hdigit (by decide)
  · decide

theorem Numeral.reads {n : Nat} (h : Numeral text whole fraction) :
    Reads n 0 text (.number (numeralValue false whole fraction)) := by
  obtain ⟨c, cs, rfl⟩ := List.exists_cons_of_ne_nil h.ne_nil
  have hne : '$' ≠ c := by
    rintro rfl
    obtain hdigit | hpoint := h.mem '$' List.mem_cons_self
    · exact absurd hdigit (by decide)
    · exact absurd hpoint (by decide)
  exact reads_of_number hne fun rest hrest => number_append_of_numeral h rest hrest

/-- A numeral is an expression. -/
theorem Numeral.parse (h : Numeral text whole fraction) :
    Expr.parse (String.ofList text) = .ok (.number (numeralValue false whole fraction)) := by
  have hstarts : Starts 0 text := by
    obtain ⟨c, cs, rfl⟩ := List.exists_cons_of_ne_nil h.ne_nil
    have hc := h.not_isBlank c List.mem_cons_self
    exact ⟨c, cs, rfl, hc.1, fun _ => hc.2⟩
  have hread := (@Numeral.reads _ _ _ text.length h).mono hstarts (Nat.zero_le 10) [] .nil
  have htrim := trim_eq_self hstarts (ends_of_forall fun c hc => (h.not_isBlank c hc).1)
  rw [List.append_nil, ← exprAt_succ] at hread
  unfold Expr.parse
  rw [String.toList_ofList, htrim]
  split
  · exact absurd rfl h.ne_nil
  · rw [hread]
    rfl

/-! ## White space at both ends -/

/-- What is trimmed away are members of the class. -/
theorem Text.exists_trim (p : Char → Bool) (cs : List Char) : ∃ front back,
    cs = front ++ trim p cs ++ back ∧ ∀ c ∈ front ++ back, p c = true := by
  refine ⟨cs.takeWhile p, (cs.dropWhile p).rtakeWhile p, ?_, fun c hc => ?_⟩
  · have hback : trim p cs ++ (cs.dropWhile p).rtakeWhile p = cs.dropWhile p :=
      List.rdropWhile_append_rtakeWhile
    rw [List.append_assoc, hback, List.takeWhile_append_dropWhile]
  · obtain hc | hc := List.mem_append.1 hc
    · exact List.mem_takeWhile_imp hc
    · exact List.mem_rtakeWhile_imp hc

/-- All members of a class at both ends are trimmed away. -/
theorem Text.trim_append {p : Char → Bool} {front middle back : List Char}
    (hends : ∀ c ∈ front ++ back, p c = true) (hmiddle : ∀ c ∈ middle, p c = false) :
    trim p (front ++ middle ++ back) = middle := by
  rw [List.forall_mem_append] at hends
  rw [trim, List.append_assoc, List.dropWhile_append_of_pos hends.1]
  cases middle with
  | nil =>
    rw [List.nil_append, List.dropWhile_eq_nil_iff.2 hends.2]
    rfl
  | cons c cs =>
    have hstop : (c :: cs ++ back).dropWhile p = c :: cs ++ back := by
      simp [hmiddle c List.mem_cons_self]
    rw [hstop]
    exact trimEnd_append (fun d hd => hmiddle d (List.mem_of_getLast? hd)) hends.2

/-! ## Numbers in texts -/

/-- The value of a numeral with a sign is the negated value of the numeral. -/
theorem numeralValue_true (whole fraction : List Char) :
    numeralValue true whole fraction = (numeralValue false whole fraction).neg := by
  unfold numeralValue Decimal.toDouble Double.nearest Double.nearestUnits Double.ofRank
  split <;> rfl

theorem numeralValue_ne_nan (negative : Bool) (whole fraction : List Char) :
    numeralValue negative whole fraction ≠ .nan := by
  rw [ne_eq, ← Double.isNaN_iff, numeralValue, Decimal.toDouble, Double.isNaN_nearest]
  exact Bool.false_ne_true

/-- A numeral without a sign in front of it, or with one. -/
def signedText (negative : Bool) (text : List Char) : List Char :=
  if negative then '-' :: text else text

/-- White space and one sign may stand around a numeral. -/
theorem readNumber_of_numeral (h : Numeral text whole fraction) {source : String} {negative : Bool}
    (hsource : trim isXmlSpace source.toList = signedText negative text) :
    readNumber source = numeralValue negative whole fraction := by
  have hparts := numeralParts?_eq_some_iff.2 h
  unfold readNumber
  rw [hsource]
  cases negative with
  | true => simp only [signedText, if_true, hparts]
  | false =>
    have hsign (rest : List Char) : text ≠ '-' :: rest := by
      rintro rfl
      exact (h.not_isBlank '-' List.mem_cons_self).2 rfl
    simp only [signedText, Bool.false_eq_true, if_false, hparts]

/-- What is read as a number is a numeral without its sign and the white space around it. -/
theorem exists_numeral_of_readNumber {source : String} (h : readNumber source ≠ .nan) :
    ∃ negative text, trim isXmlSpace source.toList = signedText negative text ∧ IsNumeral text := by
  unfold readNumber at h
  split at h
  next negative unsigned hunsigned =>
  cases hparts : numeralParts? unsigned with
  | none => exact absurd (by rw [hparts]) h
  | some parts =>
    refine ⟨negative, unsigned, ?_, parts.1, parts.2, numeralParts?_eq_some_iff.1 hparts⟩
    split at hunsigned
    · next rest hrest =>
      cases hunsigned
      exact hrest
    · cases hunsigned
      rfl

theorem readNumber_spaced {front back : List Char} (h : Numeral text whole fraction)
    (hends : ∀ c ∈ front ++ back, isXmlSpace c = true) (negative : Bool) :
    readNumber (String.ofList (front ++ signedText negative text ++ back)) =
      numeralValue negative whole fraction := by
  refine readNumber_of_numeral h ?_
  rw [String.toList_ofList]
  refine trim_append hends fun c hc => ?_
  have hchars {c : Char} (hc : c ∈ text) : isXmlSpace c = false :=
    isXmlSpace_of_isBlank (h.not_isBlank c hc).1
  cases negative with
  | false => exact hchars hc
  | true =>
    obtain rfl | hc := List.mem_cons.1 hc
    · rfl
    · exact hchars hc

/-- **Expressions and texts have the same numerals.**  The number in an expression takes up a whole
text just if that is a numeral: digits, digits with a point behind them, between them or before them.
A numeral is an expression, and that is the number which the numeral is read as when it is a text.
And a text is read as a number just if it is a numeral with white space around it and perhaps one
sign before it; the white space does not count, and the sign negates. -/
theorem numerals_agree :
    (∀ text, (∃ value, number text = some (value, [])) ↔ IsNumeral text) ∧
    (∀ source : String, IsNumeral source.toList →
      number source.toList = some (readNumber source, []) ∧
        Expr.parse source = .ok (.number (readNumber source))) ∧
    (∀ source : String, readNumber source ≠ .nan ↔
      ∃ front sign text back, source.toList = front ++ (sign ++ text) ++ back ∧
        (∀ c ∈ front ++ back, isXmlSpace c = true) ∧ (sign = [] ∨ sign = ['-']) ∧
        IsNumeral text) ∧
    ∀ front text back, (∀ c ∈ front ++ back, isXmlSpace c = true) → IsNumeral text →
      readNumber (String.ofList (front ++ text ++ back)) = readNumber (String.ofList text) ∧
        readNumber (String.ofList (front ++ '-' :: text ++ back)) =
          (readNumber (String.ofList text)).neg := by
  have hplain {text whole fraction : List Char} (h : Numeral text whole fraction) :
      readNumber (String.ofList text) = numeralValue false whole fraction := by
    have hread := @readNumber_spaced text whole fraction [] [] h nofun false
    rwa [List.append_nil] at hread
  refine ⟨fun text => ⟨?_, ?_⟩, ?_, fun source => ⟨fun h => ?_, ?_⟩, ?_⟩
  · rintro ⟨value, h⟩
    obtain ⟨whole, fraction, hnumeral, -⟩ := number_eq_some_nil_iff.1 h
    exact ⟨whole, fraction, hnumeral⟩
  · rintro ⟨whole, fraction, h⟩
    exact ⟨_, number_eq_some_nil_iff.2 ⟨whole, fraction, h, rfl⟩⟩
  · rintro source ⟨whole, fraction, h⟩
    have hvalue := hplain h
    have hparse := h.parse
    rw [String.ofList_toList] at hvalue hparse
    rw [hvalue]
    exact ⟨number_eq_some_nil_iff.2 ⟨whole, fraction, h, rfl⟩, hparse⟩
  · obtain ⟨negative, text, htrim, hnumeral⟩ := exists_numeral_of_readNumber h
    obtain ⟨front, back, hsource, hends⟩ := exists_trim isXmlSpace source.toList
    refine ⟨front, if negative then ['-'] else [], text, back, ?_, hends, ?_, hnumeral⟩
    · rw [hsource, htrim]
      cases negative <;> rfl
    · cases negative <;> simp
  · rintro ⟨front, sign, text, back, hsource, hends, hsign, whole, fraction, hnumeral⟩
    have hread (negative : Bool) (heq : sign ++ text = signedText negative text) :
        readNumber source ≠ .nan := by
      rw [← String.ofList_toList (s := source), hsource, heq, readNumber_spaced hnumeral hends]
      exact numeralValue_ne_nan negative whole fraction
    obtain rfl | rfl := hsign
    · exact hread false rfl
    · exact hread true rfl
  · rintro front text back hends ⟨whole, fraction, h⟩
    rw [hplain h, ← numeralValue_true]
    exact ⟨readNumber_spaced h hends false, readNumber_spaced h hends true⟩

/-- A numeral with a point behind it is an expression; one with a point before it may have a sign and
white space around it when it is a text. -/
theorem numerals_agree_pointed :
    IsNumeral "12.".toList ∧ Expr.parse "12." = .ok (.number (readNumber "12.")) ∧
      readNumber " -.5\n" = (readNumber ".5").neg ∧ readNumber " -.5\n" ≠ .nan := by
  obtain ⟨-, hparse, hread, hsigned⟩ := numerals_agree
  have hpointed : Numeral ['1', '2', '.'] ['1', '2'] [] := numeralParts?_eq_some_iff.1 rfl
  have hfraction : Numeral ['.', '5'] [] ['5'] := numeralParts?_eq_some_iff.1 rfl
  have hends : ∀ c ∈ [' '] ++ ['\n'], isXmlSpace c = true := List.all_eq_true.1 rfl
  have hwhole : IsNumeral "12.".toList := ⟨_, _, hpointed⟩
  have htext : " -.5\n" = String.ofList ([' '] ++ ['-', '.', '5'] ++ ['\n']) := rfl
  have hvalue := (hsigned [' '] ['.', '5'] ['\n'] hends ⟨_, _, hfraction⟩).2
  refine ⟨hwhole, (hparse "12." hwhole).2, htext ▸ hvalue, (hread " -.5\n").2 ?_⟩
  exact ⟨[' '], ['-'], ['.', '5'], ['\n'], rfl, hends, .inr rfl, _, _, hfraction⟩

end Restyle
