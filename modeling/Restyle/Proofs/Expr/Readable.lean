import Mathlib
import Restyle.Proofs.Double.ReadBack
import Restyle.Proofs.Expr.Levels

/-!
# Restyle.Proofs.Expr.Readable

Expressions whose texts are read as they are meant, in every place where they can stand.

`Expr.Readable` is what an induction over expressions carries: the text of the expression, in front
of anything that may follow it, is read at the level of the expression.  The lemmas on levels bring
that to every place, bare or in brackets (`Expr.Readable.reads_bracket`), and so to the lists of
expressions inside brackets: predicates (`many_predicates`) and arguments (`args_written`).
-/

namespace Restyle

open Grammar

/-! ## Characters -/

theorem not_isBlank_of_isNameChar {c : Char} (h : isNameChar c = true) : Text.isBlank c = false := by
  by_contra hblank
  rw [isNameChar_of_isBlank (by simpa using hblank)] at h
  simp at h

theorem digit_facts {c : Char} (h : c.isDigit = true) : isNameChar c = true ∧ isNameStart c = false := by
  obtain ⟨hlow, hhigh⟩ : 48 ≤ c.toNat ∧ c.toNat ≤ 57 := by
    simpa [Char.isDigit, UInt32.le_iff_toNat_le] using h
  rw [← Char.ofNat_toNat c]
  generalize c.toNat = code at hlow hhigh
  interval_cases code <;> decide

theorem ne_of_isNameStart {c d : Char} (hc : isNameStart c = true) (hd : isNameStart d = false) :
    c ≠ d := by
  rintro rfl
  simp [hc] at hd

/-! ## How texts end -/

/-- A text does not end in white space. -/
def Ends (text : List Char) : Prop := ∀ c ∈ text.getLast?, Text.isBlank c = false

theorem Ends.append {a b : List Char} (ha : Ends a) (hb : Ends b) : Ends (a ++ b) := by
  intro c hc
  rw [List.getLast?_append, Option.mem_def, Option.or_eq_some_iff] at hc
  obtain hc | ⟨-, hc⟩ := hc
  · exact hb c hc
  · exact ha c hc

theorem ends_append_of_ne_nil {b : List Char} (hb : Ends b) (hne : b ≠ []) (a : List Char) :
    Ends (a ++ b) := by
  intro c hc
  rw [List.getLast?_append_of_ne_nil a hne] at hc
  exact hb c hc

theorem ends_append_singleton {c : Char} (hc : Text.isBlank c = false) (a : List Char) :
    Ends (a ++ [c]) := by
  simpa [Ends] using hc

theorem ends_of_forall {text : List Char} (h : ∀ c ∈ text, Text.isBlank c = false) : Ends text :=
  fun c hc => h c (List.mem_of_getLast? hc)

theorem ends_flatMap {α : Type} {f : α → List Char} {as : List α} (h : ∀ a ∈ as, Ends (f a)) :
    Ends (as.flatMap f) := by
  induction as with
  | nil => simp [Ends]
  | cons a as ih =>
      rw [List.flatMap_cons]
      exact (h a (by simp)).append (ih fun b hb => h b (List.mem_cons_of_mem a hb))

/-! ## Lists as texts -/

theorem writtenPredicates_eq (es : List Expr) :
    writtenPredicates es = es.flatMap fun e => '[' :: e.written ++ [']'] := by
  induction es with
  | nil => rfl
  | cons e es ih => simp [writtenPredicates, ih]

theorem writtenArgs_eq (es : List Expr) :
    writtenArgs [',', ' '] es = es.flatMap fun e => ',' :: ' ' :: e.written := by
  induction es with
  | nil => rfl
  | cons e es ih => simp [writtenArgs, ih]

theorem writtenSteps_eq (steps : List Step) :
    writtenSteps ['/'] steps = steps.flatMap fun step => '/' :: writtenStep step := by
  induction steps with
  | nil => rfl
  | cons step steps ih => simp [writtenSteps, ih]

/-! ## Expressions in their places -/

/-- What holds of the text of an expression: how it starts and ends, that it is read at the level
of the expression, and that, if that is a level of operators, it can be gone on with there. -/
structure Expr.Readable (e : Expr) : Prop where
  starts : Starts e.looseness e.written
  ends : Ends e.written
  reads {n : Nat} : e.written.length ≤ n → Reads n e.looseness e.written e
  readsOn {n k : Nat} : e.written.length ≤ n → e.looseness = k + 1 → k = 2 ∨ 4 ≤ k →
    ReadsOn n k e.written e

theorem Expr.looseness_le (e : Expr) : e.looseness ≤ 10 := by
  cases e with
  | binary op left right =>
      obtain ⟨k, hk, -, hle⟩ := op.looseness_cases
      simp only [Expr.looseness]
      omega
  | _ => simp [Expr.looseness]

namespace Expr.Readable

variable {e : Expr} {n k : Nat}

theorem starts_bracket (he : e.Readable) (k : Nat) : Starts k (e.bracket k e.written) := by
  unfold Expr.bracket
  split
  · next hk => exact he.starts.mono hk
  · exact ⟨'(', _, rfl, by decide, fun _ => by decide⟩

theorem ends_bracket (he : e.Readable) (k : Nat) : Ends (e.bracket k e.written) := by
  unfold Expr.bracket
  split
  · exact he.ends
  · exact ends_append_singleton (by decide) _

/-- A whole expression is read up to the mark that closes it. -/
theorem exprAt_close (he : e.Readable) (hn : e.written.length < n) {c : Char}
    (hc : c = ')' ∨ c = ']' ∨ c = ',') (s : List Char) :
    exprAt n (e.written ++ c :: s) = .ok (e, c :: s) := by
  obtain ⟨n, rfl⟩ := Nat.exists_eq_add_of_lt (Nat.zero_lt_of_lt hn)
  rw [Nat.zero_add] at hn ⊢
  exact Grammar.exprAt_close ((he.reads (by omega)).mono he.starts e.looseness_le) hc s

/-- In every place, an expression is read as itself, bare or in brackets. -/
theorem reads_bracket (he : e.Readable) (hn : (e.bracket k e.written).length ≤ n) :
    Reads n k (e.bracket k e.written) e := by
  have hstarts := he.starts_bracket k
  unfold Expr.bracket at hn hstarts ⊢
  split at hn <;> rename_i hk
  · rw [if_pos hk]
    exact (he.reads hn).mono he.starts hk
  · rw [if_neg hk]
    obtain ⟨n, rfl⟩ : ∃ m, n = m + 1 := Nat.exists_eq_add_of_le' (by simp at hn; omega)
    have hinside : Reads n 10 e.written e :=
      (he.reads (by simp at hn; omega)).mono he.starts e.looseness_le
    exact (reads_paren hinside he.starts).mono ⟨'(', _, rfl, by decide, fun _ => by decide⟩
      (Nat.zero_le k)

/-- In the place of a left operand, an expression can be gone on with. -/
theorem readsOn_bracket (he : e.Readable) (hk : k = 2 ∨ 4 ≤ k)
    (hn : (e.bracket (k + 1) e.written).length ≤ n) :
    ReadsOn n k (e.bracket (k + 1) e.written) e := by
  by_cases hlevel : e.looseness = k + 1
  · rw [Expr.bracket, if_pos (Nat.le_of_eq hlevel)] at hn ⊢
    exact he.readsOn hn hlevel hk
  · have hsame : e.bracket (k + 1) e.written = e.bracket k e.written := by
      unfold Expr.bracket
      split <;> split <;> first | rfl | omega
    rw [hsame] at hn ⊢
    exact (he.reads_bracket hn).on hk

end Expr.Readable

/-! ## Predicates and arguments -/

variable {n : Nat} {rest : List Char}

/-- All predicates are read, and nothing behind them. -/
theorem many_predicates {es : List Expr} (hes : ∀ e ∈ es, e.Readable)
    (hn : (writtenPredicates es).length ≤ n) (hrest : Follows 1 rest) {s : List Char}
    (hs : dropSpace s = dropSpace (writtenPredicates es ++ rest)) :
    ∃ left, many (predicate (exprAt n)) n s = (es, left) ∧ dropSpace left = dropSpace rest := by
  rw [writtenPredicates_eq] at hn hs
  refine many_reads _ (fun _ => True) (fun s t => dropSpace s = dropSpace t) ?_ ?_ trivial
    (fun _ _ _ => trivial)
    ((length_le_length_flatMap (fun _ _ => by simp)).trans hn) hs
  · intro e he s tail _ hs
    have hlength := (length_le_of_mem (f := fun e : Expr => '[' :: e.written ++ [']']) he).trans hn
    have hopen : skipSpaced ['['] s = some (e.written ++ ']' :: tail) := by
      rw [skipSpaced_congr hs]
      simp only [List.cons_append, List.append_assoc, List.nil_append]
      rw [skipSpaced, dropSpace_cons (by decide), skip_cons, skip_empty, Option.map_some,
        (hes e he).starts.dropSpace_append]
    have hread := (hes e he).exprAt_close (n := n) (by simp at hlength; omega) (.inr (.inl rfl)) tail
    have hclose : skipSpaced [']'] (']' :: tail) = some (dropSpace tail) := rfl
    refine ⟨dropSpace tail, ?_, dropSpace_dropSpace tail⟩
    simp [predicate, hopen, hread, hclose, bind, Except.bind, pure, Except.pure]
  · intro s hs
    refine ⟨s, ?_⟩
    rw [predicate, skipSpaced_congr hs, hrest.skipSpaced_bracket (Nat.le_refl 1)]

/-- No argument is read where the brackets close at once. -/
theorem exprAt_paren (n : Nat) (s : List Char) : ∃ place, exprAt n (')' :: s) = .error place := by
  cases n with
  | zero => exact ⟨_, rfl⟩
  | succ n =>
      have hpath : path n (exprAt n) (')' :: s) = .error (')' :: s) := rfl
      exact ⟨_, exprAt_of_error hpath (by simp [dropSpace_cons, Text.isXmlSpace])⟩

/-- All arguments are read, up to the bracket that closes. -/
theorem args_written {es : List Expr} (hes : ∀ e ∈ es, e.Readable)
    (hn : (writtenArgs [] es).length < n) (rest : List Char) :
    ∃ left, args n (exprAt n) (writtenArgs [] es ++ ')' :: rest) = (es, left) ∧
      dropSpace left = dropSpace (')' :: rest) := by
  cases es with
  | nil =>
      obtain ⟨place, hplace⟩ := exprAt_paren n rest
      refine ⟨')' :: rest, ?_, rfl⟩
      simp [writtenArgs, args, hplace]
  | cons e es =>
      have he := hes e (by simp)
      simp only [writtenArgs, List.nil_append, writtenArgs_eq, List.length_append] at hn ⊢
      -- The first argument ends at a comma or at the bracket.
      obtain ⟨c, s, hc, hs⟩ : ∃ c s, (c = ')' ∨ c = ']' ∨ c = ',') ∧
          (es.flatMap fun e => ',' :: ' ' :: e.written) ++ ')' :: rest = c :: s := by
        cases es with
        | nil => exact ⟨')', rest, by simp, rfl⟩
        | cons e' es => exact ⟨',', _, by simp, rfl⟩
      have hfirst := he.exprAt_close (n := n) (by omega) hc s
      obtain ⟨left, hothers, hleft⟩ : ∃ left,
          many (furtherArg (exprAt n)) n (c :: s) = (es, left) ∧
            dropSpace left = dropSpace (')' :: rest) := by
        refine many_reads (fun e => ',' :: ' ' :: e.written)
          (fun tail => ∃ c s, (c = ')' ∨ c = ']' ∨ c = ',') ∧ tail = c :: s)
          (fun s t => dropSpace s = dropSpace t) ?_ ?_ ⟨')', rest, by simp, rfl⟩
          (fun e' _ tail => ⟨',', _, by simp, rfl⟩)
          ((length_le_length_flatMap (f := fun e => ',' :: ' ' :: e.written) (by simp)).trans
            (by omega)) (by rw [hs])
        · rintro e' he' s' tail ⟨c, s, hc, rfl⟩ hs'
          have hlength := length_le_of_mem (f := fun e : Expr => ',' :: ' ' :: e.written) he'
          have hcomma : skipSpaced [','] s' = some (e'.written ++ c :: s) := by
            rw [skipSpaced_congr hs']
            simp only [List.cons_append]
            rw [skipSpaced, dropSpace_cons (by decide), skip_cons, skip_empty, Option.map_some,
              dropSpace_space, (hes e' (by simp [he'])).starts.dropSpace_append]
          refine ⟨c :: s, ?_, rfl⟩
          simp only [List.length_cons] at hlength
          simp only [furtherArg, hcomma]
          exact (hes e' (by simp [he'])).exprAt_close (by omega) hc s
        · intro s hs
          refine ⟨s, ?_⟩
          rw [furtherArg, skipSpaced_congr hs]
          rfl
      refine ⟨left, ?_, hleft⟩
      rw [List.append_assoc, hs]
      simp [args, hfirst, hothers]

end Restyle
