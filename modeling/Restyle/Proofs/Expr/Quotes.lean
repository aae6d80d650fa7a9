import Mathlib
import Restyle.TextTemplate
import Restyle.Proofs.Success
import Restyle.Proofs.Expr.Tokens
import Restyle.Proofs.Expr.Reading

/-!
# Restyle.Proofs.Expr.Quotes

Quotes in the text of an expression.

To find the bracket that closes an expression in a text template, the scan looks at quotes and
brackets and knows nothing else of expressions.  The grammar of expressions has quotes around
literals only, and no curly bracket outside of them.  So on every text that is read as an expression
the scan and the grammar see the same quoted texts.

* `TextTemplate.quotedTexts` — the texts between quotes as the scan sees them;
* `Expr.literals` — the literals of an expression;
* `TextTemplate.segmentsFrom_inside` — the scan closes an expression behind its quoted texts;
* `Grammar.Takes` — what a reader takes off a text, with the quoted texts in it;
* `Expr.quotedTexts_of_parse` — the quoted texts of a source are the literals of its expression.
-/

namespace Restyle

/-! ## Literals -/

/-- The text between quotes in a node test, if there is one. -/
def NodeTest.literals : NodeTest → List String
  | .instruction (some target) => [target]
  | _ => []

mutual

/-- The texts that stand between quotes in an expression, from the left. -/
def Expr.literals : Expr → List String
  | .literal text => [text]
  | .number _ => []
  | .variable _ => []
  | .call _ args => literalsAll args
  | .filter primary predicates => primary.literals ++ literalsAll predicates
  | .binary _ left right => left.literals ++ right.literals
  | .negate operand => operand.literals
  | .path start steps => literalsStart start ++ literalsSteps steps

/-- The texts between quotes in a list of expressions. -/
def literalsAll : List Expr → List String
  | [] => []
  | e :: es => e.literals ++ literalsAll es

/-- The texts between quotes in the start of a path. -/
def literalsStart : StartOf Expr → List String
  | .context => []
  | .root => []
  | .value start => start.literals

/-- The texts between quotes in steps. -/
def literalsSteps : List (StepOf Expr) → List String
  | [] => []
  | step :: steps => literalsStep step ++ literalsSteps steps

/-- The texts between quotes in a step. -/
def literalsStep : StepOf Expr → List String
  | ⟨_, test, predicates⟩ => test.literals ++ literalsAll predicates

end

theorem literalsAll_eq (es : List Expr) : literalsAll es = es.flatMap Expr.literals := by
  induction es with
  | nil => rfl
  | cons e es ih => rw [literalsAll, ih, List.flatMap_cons]

theorem literalsSteps_eq (steps : List Step) :
    literalsSteps steps = steps.flatMap literalsStep := by
  induction steps with
  | nil => rfl
  | cons step steps ih => rw [literalsSteps, ih, List.flatMap_cons]

/-! ## Quotes as the scan sees them -/

namespace TextTemplate

/-- The texts between quotes from a place on, where a quote may be open with what has been read
behind it, last character first.  Nothing if a curly bracket stands outside of quotes, or if a quote
is left open. -/
def quotedFrom : Option (Char × List Char) → List Char → Option (List String)
  | none, [] => some []
  | some _, [] => none
  | none, c :: cs =>
    if c = '{' || c = '}' then none else quotedFrom ((nextQuote none c).map (·, [])) cs
  | some (quote, content), c :: cs =>
    match nextQuote (some quote) c with
    | some quote => quotedFrom (some (quote, c :: content)) cs
    | none => (quotedFrom none cs).map (String.ofList content.reverse :: ·)

/-- The texts between quotes that the scan sees in the text of an expression. -/
def quotedTexts (cs : List Char) : Option (List String) := quotedFrom none cs

/-- Whether a character is neither a quote nor a curly bracket. -/
def isPlain (c : Char) : Bool := c != '\'' && c != '"' && c != '{' && c != '}'

theorem isPlain_iff {c : Char} : isPlain c = true ↔ c ≠ '\'' ∧ c ≠ '"' ∧ c ≠ '{' ∧ c ≠ '}' := by
  simp [isPlain, and_assoc]

/-- The characters of a class are plain if no quote and no curly bracket is in it. -/
theorem isPlain_of_class {p : Char → Bool} {c : Char} (hc : p c = true)
    (hp : p '\'' = false ∧ p '"' = false ∧ p '{' = false ∧ p '}' = false) : isPlain c = true := by
  obtain ⟨hsingle, hdouble, hopen, hclose⟩ := hp
  refine isPlain_iff.2 ⟨?_, ?_, ?_, ?_⟩
  · rintro rfl
    rw [hsingle] at hc
    cases hc
  · rintro rfl
    rw [hdouble] at hc
    cases hc
  · rintro rfl
    rw [hopen] at hc
    cases hc
  · rintro rfl
    rw [hclose] at hc
    cases hc

theorem nextQuote_of_isPlain {c : Char} (h : isPlain c = true) : nextQuote none c = none := by
  obtain ⟨hsingle, hdouble, -, -⟩ := isPlain_iff.1 h
  simp [nextQuote, hsingle, hdouble]

/-- Outside of quotes, a plain character makes no difference. -/
theorem quotedTexts_plain {c : Char} (h : isPlain c = true) (cs : List Char) :
    quotedTexts (c :: cs) = quotedTexts cs := by
  obtain ⟨-, -, hopen, hclose⟩ := isPlain_iff.1 h
  rw [quotedTexts, quotedFrom, nextQuote_of_isPlain h]
  simp [hopen, hclose, quotedTexts]

/-- Between quotes, every character but the closing quote is part of the text. -/
theorem quotedFrom_inside {quote : Char} {text : List Char} (h : ∀ c ∈ text, c ≠ quote)
    (content rest : List Char) :
    quotedFrom (some (quote, content)) (text ++ quote :: rest) =
      (quotedTexts rest).map (String.ofList (content.reverse ++ text) :: ·) := by
  induction text generalizing content with
  | nil =>
      have hclosed : nextQuote (some quote) quote = none := if_pos rfl
      rw [List.nil_append, quotedFrom, hclosed, List.append_nil]
      rfl
  | cons c text ih =>
      obtain ⟨hc, htext⟩ := List.forall_mem_cons.1 h
      have hgoesOn : nextQuote (some quote) c = some quote := if_neg hc
      rw [List.cons_append, quotedFrom, hgoesOn]
      simp only [ih htext, List.reverse_cons, List.append_assoc, List.singleton_append]

/-- What comes after a text in which all quotes are closed is seen as it is seen alone. -/
theorem quotedFrom_append {opened : Option (Char × List Char)} {cs : List Char}
    {texts : List String} (h : quotedFrom opened cs = some texts) (rest : List Char) :
    quotedFrom opened (cs ++ rest) = (quotedTexts rest).map (texts ++ ·) := by
  fun_induction quotedFrom opened cs generalizing texts with
  | case1 =>
      obtain rfl := Option.some.inj h
      simp [quotedTexts]
  | case2 => cases h
  | case3 c cs hbracket => cases h
  | case4 c cs hbracket ih =>
      rw [List.cons_append, quotedFrom, if_neg hbracket]
      exact ih h
  | case5 quote content c cs quote' hnext ih =>
      rw [List.cons_append, quotedFrom, hnext]
      exact ih h
  | case6 quote content c cs hnext ih =>
      obtain ⟨others, hothers, rfl⟩ := Option.map_eq_some_iff.1 h
      rw [List.cons_append, quotedFrom, hnext]
      simp only [ih hothers, Option.map_map]
      rfl

/-- The scan of an expression ends at the bracket behind it: all quotes are closed there, and no
bracket stands outside of quotes before. -/
theorem segmentsFrom_inside {opened : Option (Char × List Char)} {cs : List Char}
    {texts : List String} (h : quotedFrom opened cs = some texts) (source rest : List Char) :
    segmentsFrom (.inside source (opened.map Prod.fst)) (cs ++ '}' :: rest) =
      .source (source.reverse ++ cs) :: segmentsFrom .outside rest := by
  have hstep {quote quote' : Option Char} {c : Char} {cs : List Char}
      (hnext : nextQuote quote c = quote') (hbracket : quote = none → c ≠ '}')
      (ih : ∀ source, segmentsFrom (.inside source quote') (cs ++ '}' :: rest) =
        .source (source.reverse ++ cs) :: segmentsFrom .outside rest) (source : List Char) :
      segmentsFrom (.inside source quote) (c :: cs ++ '}' :: rest) =
        .source (source.reverse ++ c :: cs) :: segmentsFrom .outside rest := by
    rw [List.cons_append, segmentsFrom, hnext, ih]
    · simp
    · exact hbracket
  fun_induction quotedFrom opened cs generalizing texts source with
  | case1 => rw [List.nil_append, Option.map_none, segmentsFrom, List.append_nil]
  | case2 => cases h
  | case3 c cs hbracket => cases h
  | case4 c cs hbracket ih =>
      have hopened : ((nextQuote none c).map (·, ([] : List Char))).map Prod.fst =
          nextQuote none c := by
        cases nextQuote none c <;> rfl
      refine hstep hopened.symm (fun _ => ?_) (ih h) source
      rintro rfl
      exact hbracket rfl
  | case5 quote content c cs quote' hnext ih => exact hstep hnext nofun (ih h) source
  | case6 quote content c cs hnext ih =>
      obtain ⟨others, hothers, -⟩ := Option.map_eq_some_iff.1 h
      exact hstep hnext nofun (ih hothers) source

end TextTemplate

/-! ## What readers take off a text -/

namespace Grammar

open TextTemplate (quotedTexts isPlain)

/-- A text is read up to what is left of it, and the scan sees these quoted texts in between. -/
def Takes (s : List Char) (texts : List String) (rest : List Char) : Prop :=
  ∃ used, s = used ++ rest ∧ quotedTexts used = some texts

theorem takes_nil (s : List Char) : Takes s [] s := ⟨[], rfl, rfl⟩

theorem Takes.trans {s rest rest' : List Char} {texts texts' : List String}
    (h : Takes s texts rest) (h' : Takes rest texts' rest') : Takes s (texts ++ texts') rest' := by
  obtain ⟨used, rfl, hused⟩ := h
  obtain ⟨used', rfl, hused'⟩ := h'
  refine ⟨used ++ used', (List.append_assoc ..).symm, ?_⟩
  rw [quotedTexts, TextTemplate.quotedFrom_append hused, hused']
  rfl

/-- Where one of two parts holds no quoted text, those of the other are all. -/
theorem Takes.after {s rest rest' : List Char} {texts : List String} (h : Takes s [] rest)
    (h' : Takes rest texts rest') : Takes s texts rest' := h.trans h'

theorem Takes.before {s rest rest' : List Char} {texts : List String} (h : Takes s texts rest)
    (h' : Takes rest [] rest') : Takes s texts rest' := by
  simpa using h.trans h'

theorem takes_plain (used : List Char) (h : used.all isPlain = true) (rest : List Char) :
    Takes (used ++ rest) [] rest := by
  refine ⟨used, rfl, ?_⟩
  induction used with
  | nil => rfl
  | cons c used ih =>
      rw [List.all_cons, Bool.and_eq_true] at h
      rw [TextTemplate.quotedTexts_plain h.1, ih h.2]

/-- The characters of a class are passed, if no quote and no curly bracket is in it. -/
theorem takes_dropWhile {p : Char → Bool}
    (hp : p '\'' = false ∧ p '"' = false ∧ p '{' = false ∧ p '}' = false) (s : List Char) :
    Takes s [] (s.dropWhile p) := by
  have hplain : (s.takeWhile p).all isPlain = true := by
    refine List.all_eq_true.2 fun c hc => TextTemplate.isPlain_of_class (p := p) ?_ hp
    exact List.all_eq_true.1 List.all_takeWhile c hc
  have h := takes_plain _ hplain (s.dropWhile p)
  rwa [List.takeWhile_append_dropWhile] at h

/-! ### Tokens -/

theorem takes_dropSpace (s : List Char) : Takes s [] (dropSpace s) := takes_dropWhile (by decide) s

theorem takes_skip {mark s rest : List Char} (hmark : mark.all isPlain = true)
    (h : skip mark s = some rest) : Takes s [] rest := by
  rw [skip_eq_some_iff] at h
  exact h ▸ takes_plain mark hmark rest

theorem takes_skipSpaced {mark s rest : List Char} (hmark : mark.all isPlain = true)
    (h : skipSpaced mark s = some rest) : Takes s [] rest := by
  obtain ⟨inside, hinside, rfl⟩ := Option.map_eq_some_iff.1 h
  exact ((takes_dropSpace s).after (takes_skip hmark hinside)).after (takes_dropSpace inside)

theorem takes_skipWord {word s rest : List Char} (hword : word.all isPlain = true)
    (h : skipWord word s = some rest) : Takes s [] rest := by
  unfold skipWord at h
  split at h
  · next c rest' hskip =>
    split at h
    · cases h
    · obtain rfl := Option.some.inj h
      exact takes_skip hword hskip
  · exact takes_skip hword h

theorem takes_ncName {s name rest : List Char} (h : ncName s = some (name, rest)) :
    Takes s [] rest := by
  unfold ncName at h
  split at h
  · cases h
  · next c cs =>
    split at h
    · next hc =>
      obtain ⟨-, rfl⟩ := Prod.mk.inj (Option.some.inj h)
      have hfirst := takes_plain [c]
        (by simpa using TextTemplate.isPlain_of_class hc (by decide)) cs
      exact hfirst.after (takes_dropWhile (by decide) cs)
    · cases h

theorem takes_qName {s name rest : List Char} (h : qName s = some (name, rest)) :
    Takes s [] rest := by
  unfold qName at h
  split at h
  · cases h
  · next first rest' hfirst =>
    have hcolon := (takes_ncName hfirst).after (takes_plain [':'] (by decide) rest')
    split at h
    · next second rest'' hsecond =>
      obtain ⟨-, rfl⟩ := Prod.mk.inj (Option.some.inj h)
      exact hcolon.after (takes_ncName hsecond)
    · obtain ⟨-, rfl⟩ := Prod.mk.inj (Option.some.inj h)
      exact takes_ncName hfirst
  · next first rest' hnext hfirst =>
    obtain ⟨-, rfl⟩ := Prod.mk.inj (Option.some.inj h)
    exact takes_ncName hfirst

theorem takes_number {s rest : List Char} {value : Double} (h : number s = some (value, rest)) :
    Takes s [] rest := by
  have hwhole : Takes s [] (s.dropWhile Char.isDigit) := takes_dropWhile (by decide) s
  unfold number at h
  dsimp only at h
  split at h
  · next rest' hrest =>
    rw [hrest] at hwhole
    split at h
    · cases h
    · obtain ⟨-, rfl⟩ := Prod.mk.inj (Option.some.inj h)
      exact (hwhole.after (takes_plain ['.'] (by decide) rest')).after
        (takes_dropWhile (by decide) rest')
  · split at h
    · cases h
    · obtain ⟨-, rfl⟩ := Prod.mk.inj (Option.some.inj h)
      exact hwhole

/-- A text between quotes is seen as one. -/
theorem takes_closedBy {quote : Char} (hquote : quote = '\'' ∨ quote = '"')
    {s text rest : List Char} (h : closedBy quote s = some (text, rest)) :
    Takes (quote :: s) [String.ofList text] rest := by
  unfold closedBy at h
  split at h
  · cases h
  · next c rest' hdrop =>
    obtain ⟨rfl, rfl⟩ := Prod.mk.inj (Option.some.inj h)
    have hc : c = quote := by
      have := List.head?_dropWhile_not (· != quote) s
      simpa [hdrop] using this
    have hs : s = s.takeWhile (· != quote) ++ quote :: rest' := by
      rw [← hc, ← hdrop, hc, List.takeWhile_append_dropWhile]
    have hopened : TextTemplate.nextQuote none quote = some quote := if_pos (by simpa using hquote)
    have hbracket : ¬(quote = '{' || quote = '}') = true := by
      obtain rfl | rfl := hquote <;> decide
    have htext : ∀ d ∈ s.takeWhile (· != quote), d ≠ quote := by
      intro d hd
      simpa using List.all_eq_true.1 List.all_takeWhile d hd
    refine ⟨quote :: (s.takeWhile (· != quote) ++ [quote]), ?_, ?_⟩
    · simpa using hs
    · rw [quotedTexts, TextTemplate.quotedFrom, if_neg hbracket, hopened]
      exact TextTemplate.quotedFrom_inside htext [] []

theorem takes_literal {s text rest : List Char} (h : literal s = some (text, rest)) :
    Takes s [String.ofList text] rest := by
  unfold literal at h
  split at h
  · exact takes_closedBy (.inl rfl) h
  · exact takes_closedBy (.inr rfl) h
  · cases h

theorem takes_sign {signs : List (List Char × BinaryOp)}
    (hsigns : ∀ sign ∈ signs, sign.1.all isPlain = true) {s rest : List Char} {op : BinaryOp}
    (h : sign signs s = some (op, rest)) : Takes s [] rest := by
  obtain ⟨mark, hmark, hfound⟩ := List.exists_of_findSome?_eq_some h
  obtain ⟨rest', hskip, heq⟩ := Option.map_eq_some_iff.1 hfound
  obtain ⟨-, rfl⟩ := Prod.mk.inj heq
  exact takes_skip (hsigns mark hmark) hskip

theorem takes_wordOp {words : List (List Char × BinaryOp)}
    (hwords : ∀ word ∈ words, word.1.all isPlain = true) {s rest : List Char} {op : BinaryOp}
    (h : wordOp words s = some (op, rest)) : Takes s [] rest := by
  obtain ⟨word, hword, hfound⟩ := List.exists_of_findSome?_eq_some h
  obtain ⟨rest', hskip, heq⟩ := Option.map_eq_some_iff.1 hfound
  obtain ⟨-, rfl⟩ := Prod.mk.inj heq
  exact takes_skipWord (hwords word hword) hskip

theorem takes_productOp {s rest : List Char} {op : BinaryOp} (h : productOp s = some (op, rest)) :
    Takes s [] rest := by
  unfold productOp at h
  split at h
  · next found hsign =>
    obtain rfl := Option.some.inj h
    exact takes_sign (by decide) hsign
  · exact takes_wordOp (by decide) h

/-! ### Steps -/

theorem takes_axis {s rest : List Char} {a : Axis} (h : axis s = some (a, rest)) :
    Takes s [] rest := by
  obtain ⟨word, hword, hfound⟩ := List.exists_of_findSome?_eq_some h
  obtain ⟨rest', hskip, heq⟩ := Option.map_eq_some_iff.1 hfound
  obtain ⟨-, rfl⟩ := Prod.mk.inj heq
  have hplain : ∀ word ∈ axisWords, (word.1.toList ++ [':', ':']).all isPlain = true := by decide
  exact takes_skip (hplain word hword) hskip

theorem takes_emptyParens {s rest : List Char} (h : emptyParens s = some rest) :
    Takes s [] rest := by
  obtain ⟨inside, hopen, hclose⟩ := Option.bind_eq_some_iff.1 h
  exact (takes_skipSpaced (by decide) hopen).after (takes_skip (by decide) hclose)

theorem takes_kindTest {s rest : List Char} {test : NodeTest} (h : kindTest s = some (test, rest)) :
    Takes s test.literals rest := by
  obtain ⟨word, hword, hfound⟩ := List.exists_of_findSome?_eq_some h
  obtain ⟨rest', hrest, heq⟩ := Option.map_eq_some_iff.1 hfound
  obtain ⟨rfl, rfl⟩ := Prod.mk.inj heq
  obtain ⟨inside, hskip, hparens⟩ := Option.bind_eq_some_iff.1 hrest
  have hplain : ∀ word ∈ kindTests, word.1.toList.all isPlain = true ∧ word.2.literals = [] := by
    decide
  obtain ⟨hmark, hliterals⟩ := hplain word hword
  rw [hliterals]
  exact (takes_skip hmark hskip).after (takes_emptyParens hparens)

/-- The only quotes in a node test are those around a target. -/
theorem takes_instructionTest {s rest : List Char} {test : NodeTest}
    (h : instructionTest s = some (test, rest)) : Takes s test.literals rest := by
  unfold instructionTest at h
  obtain ⟨afterName, hname, h⟩ := Option.bind_eq_some_iff.1 h
  obtain ⟨inside, hopen, h⟩ := Option.bind_eq_some_iff.1 h
  have hinside : Takes s [] inside :=
    (takes_skip (by decide) hname).after (takes_skipSpaced (by decide) hopen)
  split at h
  · next target rest' hliteral =>
    obtain ⟨rest'', hclose, h⟩ := Option.bind_eq_some_iff.1 h
    obtain ⟨rfl, rfl⟩ := Prod.mk.inj (Option.some.inj h)
    exact (hinside.after (takes_literal hliteral)).before (takes_skipSpaced (by decide) hclose)
  · obtain ⟨rest'', hclose, h⟩ := Option.bind_eq_some_iff.1 h
    obtain ⟨rfl, rfl⟩ := Prod.mk.inj (Option.some.inj h)
    exact hinside.after (takes_skipSpaced (by decide) hclose)

theorem takes_nodeTest {s rest : List Char} {test : NodeTest} (h : nodeTest s = .ok (test, rest)) :
    Takes s test.literals rest := by
  unfold nodeTest at h
  split at h
  · next rest' hskip =>
    obtain ⟨rfl, rfl⟩ := Prod.mk.inj (Except.ok.inj h)
    exact takes_skip (by decide) hskip
  · split at h
    · next found hkind =>
      obtain rfl := Except.ok.inj h
      exact takes_kindTest hkind
    · split at h
      · next found hinstruction =>
        obtain rfl := Except.ok.inj h
        exact takes_instructionTest hinstruction
      · split at h
        · next found hqualified =>
          obtain rfl := Except.ok.inj h
          obtain ⟨name, hname, hrest⟩ := Option.bind_eq_some_iff.1 hqualified
          obtain ⟨rest', hskip, heq⟩ := Option.bind_eq_some_iff.1 hrest
          obtain ⟨rfl, rfl⟩ := Prod.mk.inj (Option.some.inj heq)
          exact (takes_ncName hname).after (takes_skip (by decide) hskip)
        · split at h
          · next name rest' hname =>
            obtain ⟨rfl, rfl⟩ := Prod.mk.inj (Except.ok.inj h)
            exact takes_qName hname
          · cases h

theorem takes_axisTest {s rest : List Char} {a : Axis} {test : NodeTest}
    (h : axisTest s = .ok ((a, test), rest)) : Takes s test.literals rest := by
  unfold axisTest at h
  split at h
  · next test' rest' hat =>
    obtain ⟨after, hskip, htest⟩ := Option.map_eq_some_iff.1 hat
    obtain ⟨⟨-, rfl⟩, rfl⟩ := (by simpa using h : (_ ∧ test' = test) ∧ rest' = rest)
    exact (takes_skip (by decide) hskip).after (takes_nodeTest htest)
  · obtain ⟨⟨test', rest'⟩, htest, heq⟩ := map_eq_ok.1 h
    obtain ⟨⟨-, rfl⟩, rfl⟩ := (by simpa using heq : (_ ∧ test' = test) ∧ rest' = rest)
    have haxis : Takes s [] ((axis s).getD (.child, s)).2 := by
      cases haxis : axis s with
      | none => exact takes_nil s
      | some found => exact takes_axis haxis
    exact haxis.after (takes_nodeTest htest)

/-! ### Expressions -/

/-- Whatever a reader gives, the quoted texts that it has passed are those in what it gives. -/
def Passes {α : Type} (texts : α → List String) (reader : Reader α) : Prop :=
  ∀ s a rest, reader s = .ok (a, rest) → Takes s (texts a) rest

theorem takes_many {α : Type} {texts : α → List String} {item : Reader α}
    (hitem : Passes texts item) (limit : Nat) (s : List Char) :
    Takes s ((many item limit s).1.flatMap texts) (many item limit s).2 := by
  induction limit generalizing s with
  | zero => exact takes_nil s
  | succ limit ih =>
      rw [many]
      split
      · exact takes_nil s
      · next a rest hread =>
        rw [List.flatMap_cons]
        exact (hitem _ _ _ hread).trans (ih rest)

theorem takes_chainFrom {op : List Char → Option (BinaryOp × List Char)} {operand : Reader Expr}
    (hop : ∀ s o rest, op s = some (o, rest) → Takes s [] rest)
    (hoperand : Passes Expr.literals operand) (limit : Nat) {s start : List Char} {left : Expr}
    (hleft : Takes start left.literals s) :
    Takes start (chainFrom op operand limit left s).1.literals
      (chainFrom op operand limit left s).2 := by
  induction limit generalizing left s with
  | zero => exact hleft
  | succ limit ih =>
      rw [chainFrom]
      split
      · exact hleft
      · next o afterOp hfound =>
        split
        · exact hleft
        · next right rest hright =>
          have hsign := ((takes_dropSpace s).after (hop _ _ _ hfound)).after
            (takes_dropSpace afterOp)
          exact ih (hleft.trans (hsign.after (hoperand _ _ _ hright)))

theorem Passes.chain {op : List Char → Option (BinaryOp × List Char)} {operand : Reader Expr}
    (hoperand : Passes Expr.literals operand)
    (hop : ∀ s o rest, op s = some (o, rest) → Takes s [] rest) (limit : Nat) :
    Passes Expr.literals (chain limit op operand) := by
  intro s e rest h
  unfold Grammar.chain at h
  obtain ⟨found, hfirst, h⟩ := bind_eq_ok.1 h
  have hchain : chainFrom op operand limit found.1 found.2 = (e, rest) := Except.ok.inj h
  have htakes := takes_chainFrom hop hoperand limit (hoperand _ _ _ hfirst)
  rwa [hchain] at htakes

section Bracketed

variable (limit : Nat) {inner : Reader Expr} (hinner : Passes Expr.literals inner)

theorem takes_variableRef {s rest : List Char} {e : Expr} (h : variableRef s = some (e, rest)) :
    Takes s e.literals rest := by
  unfold variableRef at h
  obtain ⟨afterSign, hsign, h⟩ := Option.bind_eq_some_iff.1 h
  obtain ⟨⟨name, rest'⟩, hname, h⟩ := Option.bind_eq_some_iff.1 h
  obtain ⟨rfl, rfl⟩ := Prod.mk.inj (Option.some.inj h)
  exact (takes_skip (by decide) hsign).after (takes_qName hname)

include hinner

theorem passes_predicate : Passes Expr.literals (predicate inner) := by
  intro s e rest h
  unfold predicate at h
  split at h
  · cases h
  · next inside hopen =>
    obtain ⟨⟨e', rest'⟩, hread, h⟩ := bind_eq_ok.1 h
    dsimp only at h
    split at h
    · next rest'' hclose =>
      obtain ⟨rfl, rfl⟩ := Prod.mk.inj (Except.ok.inj h)
      exact ((takes_skipSpaced (by decide) hopen).after (hinner _ _ _ hread)).before
        (takes_skipSpaced (by decide) hclose)
    · cases h

theorem takes_predicates (s : List Char) :
    Takes s (literalsAll (many (predicate inner) limit s).1)
      (many (predicate inner) limit s).2 := by
  rw [literalsAll_eq]
  exact takes_many (passes_predicate hinner) limit s

theorem passes_step : Passes literalsStep (step limit inner) := by
  intro s found rest h
  unfold step at h
  split at h
  · next rest' hskip =>
    obtain ⟨rfl, rfl⟩ := Prod.mk.inj (Except.ok.inj h)
    exact takes_skip (by decide) hskip
  · split at h
    · next rest' hskip =>
      obtain ⟨rfl, rfl⟩ := Prod.mk.inj (Except.ok.inj h)
      exact takes_skip (by decide) hskip
    · obtain ⟨⟨⟨axis, test⟩, rest'⟩, htest, h⟩ := bind_eq_ok.1 h
      obtain ⟨rfl, rfl⟩ := Prod.mk.inj (Except.ok.inj h)
      rw [literalsStep]
      exact (takes_axisTest htest).trans (takes_predicates limit hinner rest')

theorem passes_furtherStep : Passes literalsSteps (furtherStep limit inner) := by
  intro s steps rest h
  unfold furtherStep at h
  split at h
  · next rest' hmark =>
    obtain ⟨⟨next, rest''⟩, hstep, heq⟩ := map_eq_ok.1 h
    obtain ⟨rfl, rfl⟩ := Prod.mk.inj heq
    have htakes := (takes_skipSpaced (by decide) hmark).after (passes_step limit hinner _ _ _ hstep)
    simpa [literalsSteps_eq, Step.descendantOrSelf, literalsStep, NodeTest.literals, literalsAll]
      using htakes
  · split at h
    · next rest' hmark =>
      obtain ⟨⟨next, rest''⟩, hstep, heq⟩ := map_eq_ok.1 h
      obtain ⟨rfl, rfl⟩ := Prod.mk.inj heq
      have htakes :=
        (takes_skipSpaced (by decide) hmark).after (passes_step limit hinner _ _ _ hstep)
      simpa [literalsSteps_eq] using htakes
    · cases h

theorem takes_furtherSteps (s : List Char) :
    Takes s (literalsSteps (furtherSteps limit inner s).1) (furtherSteps limit inner s).2 := by
  have hflatten (lists : List (List Step)) :
      literalsSteps lists.flatten = lists.flatMap literalsSteps := by
    induction lists with
    | nil => rfl
    | cons steps lists ih =>
        rw [List.flatten_cons, List.flatMap_cons, ← ih]
        simp only [literalsSteps_eq, List.flatMap_append]
  have htakes := takes_many (passes_furtherStep limit hinner) limit s
  rwa [← hflatten] at htakes

theorem passes_locationPath : Passes Expr.literals (locationPath limit inner) := by
  intro s e rest h
  unfold locationPath at h
  split at h
  · next rest' hmark =>
    obtain ⟨⟨first, rest''⟩, hstep, h⟩ := bind_eq_ok.1 h
    obtain ⟨rfl, rfl⟩ := Prod.mk.inj (Except.ok.inj h)
    have hfirst := (takes_skip (by decide) hmark).after (passes_step limit hinner _ _ _ hstep)
    exact hfirst.trans (takes_furtherSteps limit hinner rest'')
  · split at h
    · next rest' hmark =>
      split at h
      · next first rest'' hstep =>
        obtain ⟨rfl, rfl⟩ := Prod.mk.inj (Except.ok.inj h)
        have hfirst := (takes_skip (by decide) hmark).after (passes_step limit hinner _ _ _ hstep)
        exact hfirst.trans (takes_furtherSteps limit hinner rest'')
      · obtain ⟨rfl, rfl⟩ := Prod.mk.inj (Except.ok.inj h)
        exact takes_skip (by decide) hmark
    · obtain ⟨⟨first, rest''⟩, hstep, h⟩ := bind_eq_ok.1 h
      obtain ⟨rfl, rfl⟩ := Prod.mk.inj (Except.ok.inj h)
      exact (passes_step limit hinner _ _ _ hstep).trans (takes_furtherSteps limit hinner rest'')

theorem passes_furtherArg : Passes Expr.literals (furtherArg inner) := by
  intro s e rest h
  unfold furtherArg at h
  split at h
  · next rest' hcomma => exact (takes_skipSpaced (by decide) hcomma).after (hinner _ _ _ h)
  · cases h

theorem takes_args (s : List Char) :
    Takes s (literalsAll (args limit inner s).1) (args limit inner s).2 := by
  unfold args
  split
  · exact takes_nil s
  · next first rest hfirst =>
    have hothers := takes_many (passes_furtherArg hinner) limit rest
    rw [← literalsAll_eq] at hothers
    exact (hinner _ _ _ hfirst).trans hothers

theorem takes_functionCall {s rest : List Char} {e : Expr}
    (h : functionCall limit inner s = some (e, rest)) : Takes s e.literals rest := by
  unfold functionCall at h
  obtain ⟨⟨name, afterName⟩, hname, h⟩ := Option.bind_eq_some_iff.1 h
  obtain ⟨inside, hopen, h⟩ := Option.bind_eq_some_iff.1 h
  obtain ⟨-, -, h⟩ := Option.bind_eq_some_iff.1 h
  obtain ⟨rest', hclose, h⟩ := Option.bind_eq_some_iff.1 h
  obtain ⟨rfl, rfl⟩ := Prod.mk.inj (Option.some.inj h)
  have hinside := (takes_qName hname).after (takes_skipSpaced (by decide) hopen)
  exact (hinside.after (takes_args limit hinner inside)).before
    (takes_skipSpaced (by decide) hclose)

theorem takes_bracketed {s rest : List Char} {e : Expr}
    (h : bracketed inner s = some (e, rest)) : Takes s e.literals rest := by
  unfold bracketed at h
  obtain ⟨inside, hopen, h⟩ := Option.bind_eq_some_iff.1 h
  obtain ⟨⟨e', rest'⟩, hfound, h⟩ := Option.bind_eq_some_iff.1 h
  obtain ⟨rest'', hclose, h⟩ := Option.bind_eq_some_iff.1 h
  obtain ⟨rfl, rfl⟩ := Prod.mk.inj (Option.some.inj h)
  cases hread : inner inside with
  | error error =>
      rw [hread] at hfound
      cases hfound
  | ok read =>
      rw [hread] at hfound
      obtain rfl := Option.some.inj hfound
      exact ((takes_skipSpaced (by decide) hopen).after (hinner _ _ _ hread)).before
        (takes_skipSpaced (by decide) hclose)

theorem takes_primary {s rest : List Char} {e : Expr}
    (h : primary limit inner s = some (e, rest)) : Takes s e.literals rest := by
  unfold primary at h
  split at h
  · next found hvariable =>
    obtain rfl := Option.some.inj h
    exact takes_variableRef hvariable
  · split at h
    · next value rest' hnumber =>
      obtain ⟨rfl, rfl⟩ := Prod.mk.inj (Option.some.inj h)
      exact takes_number hnumber
    · split at h
      · next text rest' hliteral =>
        obtain ⟨rfl, rfl⟩ := Prod.mk.inj (Option.some.inj h)
        exact takes_literal hliteral
      · split at h
        · next found hcall =>
          obtain rfl := Option.some.inj h
          exact takes_functionCall limit hinner hcall
        · exact takes_bracketed hinner h

theorem takes_filtered {s rest : List Char} {e : Expr}
    (h : filtered limit inner s = some (e, rest)) : Takes s e.literals rest := by
  unfold filtered at h
  obtain ⟨⟨start, rest'⟩, hstart, h⟩ := Option.bind_eq_some_iff.1 h
  obtain ⟨rfl, rfl⟩ := Prod.mk.inj (Option.some.inj h)
  have htakes := (takes_primary limit hinner hstart).trans (takes_predicates limit hinner rest')
  split
  · next hnone =>
    rw [List.isEmpty_iff.1 hnone] at htakes
    simpa [literalsAll] using htakes
  · exact htakes

theorem passes_path : Passes Expr.literals (path limit inner) := by
  intro s e rest h
  unfold path at h
  split at h
  · next start rest' hstart =>
    obtain ⟨rfl, rfl⟩ := Prod.mk.inj (Except.ok.inj h)
    have htakes := ((takes_dropSpace s).after (takes_filtered limit hinner hstart)).trans
      (takes_furtherSteps limit hinner rest')
    have hspace := takes_dropSpace (furtherSteps limit inner rest').2
    split
    · next hnone =>
      have hsteps : (furtherSteps limit inner rest').1 = [] := List.isEmpty_iff.1 hnone
      rw [hsteps] at htakes
      exact Takes.before (by simpa [literalsSteps] using htakes) hspace
    · exact htakes.before hspace
  · obtain ⟨⟨e', rest'⟩, hpath, h⟩ := map_eq_ok.1 h
    obtain ⟨rfl, rfl⟩ := Prod.mk.inj h
    have htakes := (takes_dropSpace s).after (passes_locationPath limit hinner _ _ _ hpath)
    exact htakes.before (takes_dropSpace rest')

theorem passes_signed : Passes Expr.literals (signed limit inner) := by
  have hunion : Passes Expr.literals (unionExpr limit inner) :=
    (passes_path limit hinner).chain (fun _ _ _ => takes_sign (by decide)) limit
  intro s e rest h
  fun_induction signed limit inner s generalizing e rest with
  | case1 s after hsign negated rest' hnegated ih =>
      obtain ⟨rfl, rfl⟩ := Prod.mk.inj (Except.ok.inj h)
      have hminus := takes_dropSpace s
      rw [hsign] at hminus
      have hafter := (hminus.after (takes_plain ['-'] (by decide) after)).after
        (takes_dropSpace after)
      exact hafter.after (@ih negated rest' hnegated)
  | case2 s after hsign error herror ih => exact hunion _ _ _ h
  | case3 s hsign => exact hunion _ _ _ h

theorem passes_expr : Passes Expr.literals (expr limit inner) := by
  have hproduct := (passes_signed limit hinner).chain (fun _ _ _ => takes_productOp) limit
  have hsum : Passes Expr.literals (chain limit sumOp _) :=
    hproduct.chain (fun _ _ _ => takes_sign (by decide)) limit
  have horder : Passes Expr.literals (chain limit orderOp _) :=
    hsum.chain (fun _ _ _ => takes_sign (by decide)) limit
  have hequality : Passes Expr.literals (chain limit equalityOp _) :=
    horder.chain (fun _ _ _ => takes_sign (by decide)) limit
  have hand : Passes Expr.literals (chain limit andOp _) :=
    hequality.chain (fun _ _ _ => takes_wordOp (by decide)) limit
  exact hand.chain (fun _ _ _ => takes_wordOp (by decide)) limit

end Bracketed

theorem passes_exprAt (limit : Nat) : Passes Expr.literals (exprAt limit) := by
  induction limit with
  | zero => exact nofun
  | succ limit ih => exact passes_expr limit ih

/-- The blanks around a text hold no quotes. -/
theorem takes_of_trim {s : List Char} {texts : List String}
    (h : Takes (Text.trim Text.isBlank s) texts []) : Takes s texts [] := by
  have hclass : Text.isBlank '\'' = false ∧ Text.isBlank '"' = false ∧
      Text.isBlank '{' = false ∧ Text.isBlank '}' = false := by decide
  let started := s.dropWhile Text.isBlank
  let blanks := (started.reverse.takeWhile Text.isBlank).reverse
  have hblanks : blanks.all isPlain = true := by
    rw [List.all_reverse]
    refine List.all_eq_true.2 fun c hc => TextTemplate.isPlain_of_class ?_ hclass
    exact List.all_eq_true.1 List.all_takeWhile c hc
  have hstarted : started = Text.trim Text.isBlank s ++ blanks := by
    rw [Text.trim, Text.trimEnd, ← List.reverse_append, List.takeWhile_append_dropWhile,
      List.reverse_reverse]
  obtain ⟨used, hused, htexts⟩ := h
  have hrest : Takes started texts blanks :=
    ⟨used, by rw [hstarted, hused, List.append_nil], htexts⟩
  have hend := takes_plain blanks hblanks []
  rw [List.append_nil] at hend
  exact (takes_dropWhile hclass s).after (hrest.before hend)

end Grammar

/-- On the text of an expression, the quotes that the scan sees are those of the grammar. -/
theorem Expr.quotedTexts_of_parse {source : String} {e : Expr} (h : Expr.parse source = .ok e) :
    TextTemplate.quotedTexts source.toList = some e.literals := by
  unfold Expr.parse at h
  split at h
  · cases h
  · split at h
    · next s hs read hread =>
      obtain rfl := Except.ok.inj h
      obtain ⟨used, hused, htexts⟩ :=
        Grammar.takes_of_trim (Grammar.passes_exprAt _ _ _ _ hread)
      rw [hused, List.append_nil]
      exact htexts
    · cases h
    · cases h

end Restyle
