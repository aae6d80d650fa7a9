import Mathlib
import Restyle.Proofs.Expr.Tokens

/-!
# Restyle.Proofs.Expr.Levels

How tightly a reader binds, and what stops it.

The readers of expressions are numbered by looseness (`Grammar.readerAt`): each one reads what the
next tighter one reads, and then goes on over operators of its own.  It stops at a closing mark and
at a looser operator (`Grammar.Follows`).  So a text that one reader reads as an expression, every
looser reader reads as the same (`Reads.mono`), and brackets bring it back to the tightest place
(`reads_paren`).

Operators of one strength are joined from the left, so a left operand at their own level has to be
read as the start of a longer text; `ReadsOn` says what the reader is about to do behind it.
-/

namespace Restyle

/-- An operator stands at a level of operators. -/
theorem BinaryOp.looseness_cases (op : BinaryOp) :
    ∃ k, op.looseness = k + 1 ∧ (k = 2 ∨ 4 ≤ k) ∧ k + 1 ≤ 10 := by
  cases op <;> exact ⟨_, rfl, by decide, by decide⟩

namespace Grammar

/-! ## Levels -/

/-- The operators that are joined at a level. -/
def levelOp : Nat → List Char → Option (BinaryOp × List Char)
  | 3 => unionOp
  | 5 => productOp
  | 6 => sumOp
  | 7 => orderOp
  | 8 => equalityOp
  | 9 => andOp
  | 10 => orOp
  | _ => fun _ => none

/-- The reader of expressions up to a looseness, with one limit for repetitions and brackets. -/
def readerAt (n : Nat) : Nat → Reader Expr
  | 0 | 1 | 2 => path n (exprAt n)
  | 3 => chain n (levelOp 3) (path n (exprAt n))
  | 4 => signed n (exprAt n)
  | k + 5 => chain n (levelOp (k + 5)) (readerAt n (k + 4))

theorem exprAt_succ (n : Nat) : exprAt (n + 1) = readerAt n 10 := rfl

/-- At every level from 3 on but that of the sign, operands of the level before are joined. -/
theorem readerAt_succ (n : Nat) {k : Nat} (hk : k = 2 ∨ 4 ≤ k) :
    readerAt n (k + 1) = chain n (levelOp (k + 1)) (readerAt n k) := by
  obtain rfl | hk := hk
  · rfl
  · obtain ⟨j, rfl⟩ := Nat.exists_eq_add_of_le' hk
    rfl

/-- An operator between spaces is read at its level. -/
theorem levelOp_mark (o : BinaryOp) (s : List Char) :
    levelOp o.looseness (o.mark ++ ' ' :: s) = some (o, ' ' :: s) := by
  cases o <;> rfl

/-- An operator is not read at a tighter level. -/
theorem levelOp_mark_of_lt {o : BinaryOp} {k : Nat} (h : k < o.looseness) (s : List Char) :
    levelOp k (o.mark ++ ' ' :: s) = none := by
  cases o <;> simp only [BinaryOp.looseness] at h <;> interval_cases k <;> rfl

theorem dropSpace_mark (o : BinaryOp) (s : List Char) :
    dropSpace (o.mark ++ s) = o.mark ++ s := by
  cases o <;> rfl

/-! ## What may follow -/

/-- What may stand behind an expression in a place of some looseness. -/
inductive Follows (k : Nat) : List Char → Prop
  | nil : Follows k []
  | close {c : Char} (h : c = ')' ∨ c = ']' ∨ c = ',') (s : List Char) : Follows k (c :: s)
  | op (o : BinaryOp) (h : k < o.looseness) (s : List Char) : Follows k (' ' :: o.mark ++ ' ' :: s)
  | slash (h : k < 2) (s : List Char) : Follows k ('/' :: s)
  | bracket (h : k < 1) (s : List Char) : Follows k ('[' :: s)

namespace Follows

variable {j k : Nat} {rest : List Char}

theorem mono (h : Follows k rest) (hj : j ≤ k) : Follows j rest := by
  cases h with
  | nil => exact .nil
  | close h s => exact .close h s
  | op o h s => exact .op o (by omega) s
  | slash h s => exact .slash (by omega) s
  | bracket h s => exact .bracket (by omega) s

/-- The characters that may come right behind an expression. -/
theorem head_mem (h : Follows k rest) :
    ∀ c ∈ rest.head?, c ∈ [')', ']', ',', ' ', '/', '['] := by
  cases h with
  | nil => simp
  | close h s =>
      intro d hd
      obtain rfl : _ = d := by simpa using hd
      obtain rfl | rfl | rfl := h <;> simp
  | op o h s => simp
  | slash h s => simp
  | bracket h s => simp

theorem not_isNameChar (h : Follows k rest) :
    ∀ c ∈ rest.head?, isNameChar c = false ∧ c ≠ ':' := by
  intro c hc
  have := h.head_mem c hc
  simp only [List.mem_cons, List.not_mem_nil, or_false] at this
  obtain rfl | rfl | rfl | rfl | rfl | rfl := this <;> decide

theorem not_isDigit (h : Follows k rest) :
    ∀ c ∈ rest.head?, c.isDigit = false ∧ c ≠ '.' := by
  intro c hc
  have := h.head_mem c hc
  simp only [List.mem_cons, List.not_mem_nil, or_false] at this
  obtain rfl | rfl | rfl | rfl | rfl | rfl := this <;> decide

/-- No operator of a level that the place allows follows. -/
theorem levelOp_eq_none (h : Follows k rest) (hk : 2 ≤ k) (hj : j ≤ k) :
    levelOp j (dropSpace rest) = none := by
  cases h with
  | nil => unfold levelOp; split <;> rfl
  | close h s => obtain rfl | rfl | rfl := h <;> unfold levelOp <;> split <;> rfl
  | op o h s =>
      rw [List.cons_append, dropSpace_space, dropSpace_mark]
      exact levelOp_mark_of_lt (by omega) s
  | slash h s => omega
  | bracket h s => omega

/-- No round bracket opens behind an expression. -/
theorem skipSpaced_paren (h : Follows k rest) : skipSpaced ['('] rest = none := by
  cases h with
  | nil => rfl
  | close h s => obtain rfl | rfl | rfl := h <;> rfl
  | op o h s => cases o <;> rfl
  | slash h s => rfl
  | bracket h s => rfl

/-- No predicate follows what is narrowed already. -/
theorem skipSpaced_bracket (h : Follows k rest) (hk : 1 ≤ k) : skipSpaced ['['] rest = none := by
  cases h with
  | nil => rfl
  | close h s => obtain rfl | rfl | rfl := h <;> rfl
  | op o h s => cases o <;> rfl
  | slash h s => rfl
  | bracket h s => omega

/-- No step follows a whole path. -/
theorem skipSpaced_slash (h : Follows k rest) (hk : 2 ≤ k) (mark : List Char) :
    skipSpaced ('/' :: mark) rest = none := by
  cases h with
  | nil => rfl
  | close h s => obtain rfl | rfl | rfl := h <;> rfl
  | op o h s => cases o <;> rfl
  | slash h s => omega
  | bracket h s => omega

end Follows

/-! ## Reading at a level -/

/-- A text in front of what may follow it is read as an expression.  White space in front of what
follows may be gone or not where a path is still to go on. -/
def Reads (n : Nat) : Nat → List Char → Expr → Prop
  | 0, text, e => ∀ rest, Follows 0 rest → ∃ left,
      primary n (exprAt n) (text ++ rest) = some (e, left) ∧ dropSpace left = dropSpace rest
  | 1, text, e => ∀ rest, Follows 1 rest → ∃ left,
      filtered n (exprAt n) (text ++ rest) = some (e, left) ∧ dropSpace left = dropSpace rest
  | k + 2, text, e => ∀ rest, Follows (k + 2) rest →
      readerAt n (k + 2) (text ++ rest) = .ok (e, dropSpace rest)

/-- A text is read as the first operands of a chain of operators at the level above `k`; what is
left of the limit is enough for as many more operators as what follows has characters. -/
def ReadsOn (n k : Nat) (text : List Char) (e : Expr) : Prop :=
  ∀ rest, Follows k rest → ∃ used ≤ text.length,
    readerAt n (k + 1) (text ++ rest) =
      .ok (chainFrom (levelOp (k + 1)) (readerAt n k) (n - used) e (dropSpace rest))

/-- A text starts with something that is neither white space nor, in a place without room for it,
a sign. -/
def Starts (k : Nat) (text : List Char) : Prop :=
  ∃ c s, text = c :: s ∧ Text.isBlank c = false ∧ (k ≤ 3 → c ≠ '-')

variable {n j k : Nat} {text : List Char} {e : Expr}

theorem Starts.dropSpace_append (h : Starts k text) (rest : List Char) :
    dropSpace (text ++ rest) = text ++ rest := by
  obtain ⟨c, s, rfl, hc, -⟩ := h
  refine dropSpace_cons ?_ _
  by_contra hspace
  rw [Text.isBlank_of_isXmlSpace (by simpa using hspace)] at hc
  simp at hc

theorem Starts.mono (h : Starts j text) (hk : j ≤ k) : Starts k text := by
  obtain ⟨c, s, rfl, hc, hsign⟩ := h
  exact ⟨c, s, rfl, hc, fun hk' => hsign (by omega)⟩

/-- What comes without a sign is read by the reader of signs as a union. -/
theorem signed_of_ne {inner : Reader Expr} {s : List Char}
    (h : ∀ c ∈ (dropSpace s).head?, c ≠ '-') : signed n inner s = unionExpr n inner s := by
  rw [signed]
  split
  · next rest hs =>
    exact absurd rfl (h '-' (by rw [hs]; rfl))
  · rfl

/-- Where no path starts, and no sign, no expression does. -/
theorem exprAt_of_error {s place : List Char} (h : path n (exprAt n) s = .error place)
    (hsign : ∀ c ∈ (dropSpace s).head?, c ≠ '-') : exprAt (n + 1) s = .error place := by
  have hsigned : signed n (exprAt n) s = .error place := by
    rw [signed_of_ne hsign, unionExpr, chain, h]
    rfl
  simp only [exprAt, expr, chain, hsigned, bind, Except.bind]

/-- A chain that no operator continues is over. -/
theorem chainFrom_eq_of_none {op : List Char → Option (BinaryOp × List Char)}
    (operand : Reader Expr) (limit : Nat) {s : List Char} (h : op (dropSpace s) = none) :
    chainFrom op operand limit e s = (e, s) := by
  cases limit with
  | zero => rfl
  | succ limit => simp [chainFrom, h]

/-- What the next tighter reader reads is the first operand of a chain. -/
theorem Reads.on (h : Reads n k text e) (hk : k = 2 ∨ 4 ≤ k) : ReadsOn n k text e := by
  intro rest hrest
  refine ⟨0, Nat.zero_le _, ?_⟩
  obtain ⟨j, rfl⟩ : ∃ j, k = j + 2 := Nat.exists_eq_add_of_le' (by omega)
  rw [readerAt_succ n hk]
  simp [chain, h rest hrest]

/-- The chain is over where no operator of its own can follow. -/
theorem ReadsOn.reads (h : ReadsOn n k text e) (hk : k = 2 ∨ 4 ≤ k) : Reads n (k + 1) text e := by
  obtain ⟨j, rfl⟩ : ∃ j, k = j + 2 := Nat.exists_eq_add_of_le' (by omega)
  intro rest hrest
  obtain ⟨used, -, hread⟩ := h rest (hrest.mono (by omega))
  rw [hread, chainFrom_eq_of_none]
  rw [dropSpace_dropSpace]
  exact hrest.levelOp_eq_none (by omega) (by omega)

/-- A primary expression without predicates stands for itself. -/
theorem Reads.filtered (h : Reads n 0 text e) : Reads n 1 text e := by
  intro rest hrest
  obtain ⟨left, hread, hleft⟩ := h rest (hrest.mono (by omega))
  have hstop : predicate (exprAt n) left = .error left := by
    rw [predicate, skipSpaced_congr hleft, hrest.skipSpaced_bracket (Nat.le_refl 1)]
  refine ⟨left, ?_, hleft⟩
  simp [Grammar.filtered, hread, many_of_error hstop]

/-- An expression without steps stands for itself. -/
theorem Reads.path (h : Reads n 1 text e) (hstarts : Starts 1 text) : Reads n 2 text e := by
  intro rest hrest
  obtain ⟨left, hread, hleft⟩ := h rest (hrest.mono (by omega))
  have hstop : furtherStep n (exprAt n) left = .error left := by
    rw [furtherStep, skipSpaced_congr hleft, skipSpaced_congr hleft,
      hrest.skipSpaced_slash (Nat.le_refl 2), hrest.skipSpaced_slash (Nat.le_refl 2)]
  show Grammar.path n (exprAt n) (text ++ rest) = _
  simp [Grammar.path, furtherSteps, hstarts.dropSpace_append, hread, many_of_error hstop, hleft]

/-- A union without a sign stands for itself. -/
theorem Reads.signed (h : Reads n 3 text e) (hstarts : Starts 3 text) : Reads n 4 text e := by
  intro rest hrest
  have hhead : ∀ c ∈ (dropSpace (text ++ rest)).head?, c ≠ '-' := by
    rw [hstarts.dropSpace_append]
    obtain ⟨c, s, rfl, -, hsign⟩ := hstarts
    simpa using hsign (Nat.le_refl 3)
  show Grammar.signed n (exprAt n) (text ++ rest) = _
  rw [signed_of_ne hhead]
  exact h rest (hrest.mono (by decide))

/-- What is read at one level is read at the next. -/
theorem Reads.succ (h : Reads n k text e) (hstarts : Starts k text) : Reads n (k + 1) text e := by
  match k with
  | 0 => exact h.filtered
  | 1 => exact h.path hstarts
  | 2 => exact (h.on (.inl rfl)).reads (.inl rfl)
  | 3 => exact h.signed hstarts
  | k + 4 => exact (h.on (.inr (by omega))).reads (.inr (by omega))

/-- What is read at one level is read at all looser ones. -/
theorem Reads.mono (h : Reads n j text e) (hstarts : Starts j text) (hk : j ≤ k) :
    Reads n k text e := by
  induction hk with
  | refl => exact h
  | step hle ih => exact ih.succ (hstarts.mono hle)

/-! ## Brackets -/

/-- Nothing but an expression in brackets is read where a round bracket opens. -/
theorem primary_paren (limit : Nat) (inner : Reader Expr) (s : List Char) :
    primary limit inner ('(' :: s) = bracketed inner ('(' :: s) := rfl

/-- A whole expression is read up to the mark that closes it. -/
theorem exprAt_close (h : Reads n 10 text e) {c : Char} (hc : c = ')' ∨ c = ']' ∨ c = ',')
    (s : List Char) : exprAt (n + 1) (text ++ c :: s) = .ok (e, c :: s) := by
  have hclose : dropSpace (c :: s) = c :: s := by
    obtain rfl | rfl | rfl := hc <;> rfl
  rw [exprAt_succ, h _ (.close hc s), hclose]

/-- An expression between round brackets is as tight as can be. -/
theorem reads_paren (h : Reads n 10 text e) (hstarts : Starts k text) :
    Reads (n + 1) 0 ('(' :: text ++ [')']) e := by
  intro rest _
  have htext : '(' :: text ++ [')'] ++ rest = '(' :: (text ++ ')' :: rest) := by simp
  have hopen : skipSpaced ['('] ('(' :: (text ++ ')' :: rest)) = some (text ++ ')' :: rest) := by
    rw [skipSpaced, dropSpace_cons (by decide), skip_cons, skip_empty, Option.map_some,
      hstarts.dropSpace_append]
  have hclose : skipSpaced [')'] (')' :: rest) = some (dropSpace rest) := rfl
  refine ⟨dropSpace rest, ?_, dropSpace_dropSpace rest⟩
  rw [htext, primary_paren]
  simp [bracketed, hopen, exprAt_close h (.inl rfl), hclose, Except.toOption]

end Grammar

end Restyle
