import Mathlib
import Restyle.Result.Written

/-!
# Restyle.Proofs.Result.Comments

The text of a comment made safe.

Hyphens are kept apart by parting pairs again and again, each time from the left and without overlap.
What comes of it can be said at once: a space goes behind every hyphen that stands before another one
or at the end (`Written.spaceHyphens`).  This is the invariant across the passes, since parting pairs
does not change where such spaces are missing in the end; how often a hyphen stands before another one
falls with every pass.

* `Written.spaceHyphens_partPairs` — one pass leaves the final text as it is;
* `Written.exists_partHyphens_eq` — how many passes are made;
* `Written.commentText_eq` — what all passes come to;
* `Written.commentText_safe` — the main result.
-/

namespace Restyle

namespace Written

variable {c : Char} {cs ds : List Char}

/-! ## One pass -/

theorem needsSpace_eq (cs : List Char) : needsSpace cs = cs.head?.all (· == '-') := by
  cases cs <;> rfl

theorem needsSpace_partPairs (cs : List Char) : needsSpace (partPairs cs) = needsSpace cs := by
  rw [needsSpace_eq, needsSpace_eq, head?_partPairs]

theorem spaceHyphens_cons_congr (c : Char) (hnext : needsSpace cs = needsSpace ds)
    (h : spaceHyphens cs = spaceHyphens ds) : spaceHyphens (c :: cs) = spaceHyphens (c :: ds) := by
  simp [spaceHyphens, hnext, h]

/-- To part pairs is to put in some of the spaces that are put in at last. -/
theorem spaceHyphens_partPairs (cs : List Char) :
    spaceHyphens (partPairs cs) = spaceHyphens cs := by
  fun_induction partPairs cs with
  | case1 c d cs h ih =>
      obtain ⟨rfl, rfl⟩ := h
      have hnext := spaceHyphens_cons_congr '-' (needsSpace_partPairs cs) ih
      calc
        spaceHyphens ('-' :: ' ' :: '-' :: partPairs cs)
          = '-' :: ' ' :: spaceHyphens ('-' :: partPairs cs) := by simp [spaceHyphens, needsSpace]
        _ = '-' :: ' ' :: spaceHyphens ('-' :: cs) := by rw [hnext]
        _ = spaceHyphens ('-' :: '-' :: cs) := by simp [spaceHyphens, needsSpace]
  | case2 c d cs h ih => exact spaceHyphens_cons_congr c (needsSpace_partPairs (d :: cs)) ih
  | case3 => rfl

/-! ## All passes -/

/-- Pairs are parted just as often as some are left. -/
theorem exists_partHyphens_eq (cs : List Char) :
    ∃ passes, partHyphens cs = partPairs^[passes] cs ∧
      Text.occursIn ['-', '-'] (partPairs^[passes] cs) = false ∧
      ∀ earlier < passes, Text.occursIn ['-', '-'] (partPairs^[earlier] cs) = true := by
  fun_induction partHyphens cs with
  | case1 cs h ih =>
      obtain ⟨passes, heq, hnone, hearlier⟩ := ih
      refine ⟨passes + 1, heq, hnone, ?_⟩
      rintro (_ | earlier) hless
      · exact h
      · exact hearlier earlier (Nat.lt_of_succ_lt_succ hless)
  | case2 cs h => exact ⟨0, rfl, by simpa using h, by simp⟩

theorem spaceHyphens_partHyphens (cs : List Char) :
    spaceHyphens (partHyphens cs) = spaceHyphens cs := by
  fun_induction partHyphens cs with
  | case1 cs h ih => rw [ih, spaceHyphens_partPairs]
  | case2 => rfl

theorem pairCount_partHyphens (cs : List Char) : pairCount (partHyphens cs) = 0 := by
  fun_induction partHyphens cs with
  | case1 cs h ih => exact ih
  | case2 cs h => simpa [occursIn_pair] using h

/-- Where no hyphen stands before another one, only the end may lack a space. -/
theorem spaceHyphens_eq_padEnd (h : pairCount cs = 0) : spaceHyphens cs = padEnd cs := by
  induction cs with
  | nil => rfl
  | cons c cs ih =>
      simp only [pairCount, Nat.add_eq_zero_iff, ite_eq_right_iff, one_ne_zero, imp_false] at h
      rw [spaceHyphens, ih h.2, needsSpace_eq]
      cases cs with
      | nil => by_cases hc : c = '-' <;> simp [padEnd, hc]
      | cons d cs =>
          have hpair : (c == '-' && d == '-') = false := by simpa using h.1
          by_cases hlast : (d :: cs).getLast? = some '-' <;> simp [padEnd, hpair, hlast]

/-- The passes come to a space behind every hyphen that stands before another one or at the end. -/
theorem commentText_eq (cs : List Char) : commentText cs = spaceHyphens cs := by
  rw [commentText, ← spaceHyphens_eq_padEnd (pairCount_partHyphens _), spaceHyphens_partHyphens,
    spaceHyphens_partPairs]

/-! ## Safe texts -/

/-- Two hyphens stand together in a text just if a hyphen stands before another one. -/
theorem pair_infix_iff : ['-', '-'] <:+: cs ↔ 0 < pairCount cs := by
  induction cs with
  | nil => simp [pairCount]
  | cons c cs ih =>
      have hfront : ['-', '-'] <+: c :: cs ↔ c = '-' ∧ cs.head? = some '-' := by
        cases cs <;> simp [List.cons_prefix_cons, eq_comm]
      rw [List.infix_cons_iff, ih, hfront, pairCount]
      split <;> simp_all

/-- A text may stand in a comment as it is. -/
def Safe (cs : List Char) : Prop := ¬ ['-', '-'] <:+: cs ∧ cs.getLast? ≠ some '-'

theorem head?_spaceHyphens (cs : List Char) : (spaceHyphens cs).head? = cs.head? := by
  cases cs with
  | nil => rfl
  | cons c cs =>
      rw [spaceHyphens]
      split <;> rfl

theorem pairCount_spaceHyphens (cs : List Char) : pairCount (spaceHyphens cs) = 0 := by
  induction cs with
  | nil => rfl
  | cons c cs ih =>
      rw [spaceHyphens]
      split
      · simp [pairCount, ih]
      · next h =>
        have hpair : ¬(c = '-' ∧ cs.head? = some '-') := by
          rintro ⟨rfl, hhead⟩
          simp [needsSpace_eq, hhead] at h
        rw [pairCount, ih, head?_spaceHyphens, if_neg hpair]

theorem getLast?_spaceHyphens (cs : List Char) : (spaceHyphens cs).getLast? ≠ some '-' := by
  induction cs with
  | nil => simp [spaceHyphens]
  | cons c cs ih =>
      have hhead := head?_spaceHyphens cs
      rw [spaceHyphens]
      cases hrest : spaceHyphens cs with
      | nil =>
          -- Nothing follows, so a hyphen here would have needed a space.
          have hnil : cs = [] := by simpa [hrest, eq_comm] using hhead
          by_cases hc : c = '-' <;> simp [hnil, needsSpace, hc]
      | cons d rest =>
          rw [hrest] at ih
          split <;> simpa using ih

theorem safe_spaceHyphens (cs : List Char) : Safe (spaceHyphens cs) := by
  constructor
  · simp [pair_infix_iff, pairCount_spaceHyphens]
  · exact getLast?_spaceHyphens cs

/-- A text is left as it is just if it may stand so. -/
theorem spaceHyphens_eq_self_iff : spaceHyphens cs = cs ↔ Safe cs := by
  constructor
  · intro h
    exact h ▸ safe_spaceHyphens cs
  · rintro ⟨hpair, hlast⟩
    rw [pair_infix_iff, Nat.pos_iff_ne_zero, not_not] at hpair
    rw [spaceHyphens_eq_padEnd hpair, padEnd, if_neg hlast]

/-- **Comments are made safe.**  Pairs of hyphens are parted a number of times, as long as there are
any and no longer.  What comes of it has no two hyphens in a row and none at its end; it is the text
with one space behind every hyphen that stands before another one or at the end, and nothing else; so
a text is left as it is just if it was safe, and what has been made safe stays as it is. -/
theorem commentText_safe (cs : List Char) :
    (∃ passes, commentText cs = padEnd (partPairs^[passes] (partPairs cs)) ∧
      Text.occursIn ['-', '-'] (partPairs^[passes] (partPairs cs)) = false ∧
      ∀ earlier < passes,
        Text.occursIn ['-', '-'] (partPairs^[earlier] (partPairs cs)) = true) ∧
    ¬ ['-', '-'] <:+: commentText cs ∧ (commentText cs).getLast? ≠ some '-' ∧
    commentText cs = spaceHyphens cs ∧
    (commentText cs = cs ↔ ¬ ['-', '-'] <:+: cs ∧ cs.getLast? ≠ some '-') ∧
    commentText (commentText cs) = commentText cs := by
  obtain ⟨passes, hpasses, hnone, hearlier⟩ := exists_partHyphens_eq (partPairs cs)
  have hsafe := safe_spaceHyphens cs
  have hself : commentText cs = cs ↔ Safe cs := by rw [commentText_eq, spaceHyphens_eq_self_iff]
  have hagain : commentText (commentText cs) = commentText cs := by
    rw [commentText_eq, commentText_eq, spaceHyphens_eq_self_iff.2 hsafe]
  rw [← commentText_eq] at hsafe
  exact ⟨⟨passes, congrArg padEnd hpasses, hnone, hearlier⟩, hsafe.1, hsafe.2, commentText_eq cs,
    hself, hagain⟩

/-- Five hyphens are an odd run, of which the first pass leaves two pairs. -/
example : partPairs "-----".toList = "- -- --".toList ∧
    commentText "-----".toList = "- - - - - ".toList := ⟨by cbv, by cbv⟩

end Written

end Restyle
