import Mathlib
import Restyle.Expr.Written

/-!
# Restyle.Proofs.Expr.Tokens

Tokens read back: a token in front of a text that cannot be taken for more of it is read as it is,
and the text is left.

* `Grammar.takeWhile_append_stop` — a run of characters ends where the next one is of another kind;
* `Grammar.qName_append`, `Grammar.literal_quotedText` — names and quoted texts;
* `Grammar.many_reads` — items one after another.
-/

namespace Restyle

/-! ## Characters of names -/

theorem isNameChar_of_isNameStart {c : Char} (h : isNameStart c = true) : isNameChar c = true := by
  simp only [isNameStart, Bool.or_eq_true] at h
  simp only [isNameChar, Bool.or_eq_true]
  tauto

/-- No character is in two classes of which no ranges meet. -/
theorem Text.Ranges.contains_of_apart {as bs : Ranges}
    (h : (as.all fun a => bs.all fun b => a.2 < b.1 || b.2 < a.1) = true) {c : Char}
    (hc : as.contains c = true) : bs.contains c = false := by
  obtain ⟨a, ha, hlow, hhigh⟩ := contains_iff.1 hc
  by_contra hmeets
  obtain ⟨b, hb, hlow', hhigh'⟩ := contains_iff.1 (Bool.of_not_eq_false hmeets)
  have hapart := List.all_eq_true.1 (List.all_eq_true.1 h a ha) b hb
  simp only [Bool.or_eq_true, decide_eq_true_eq] at hapart
  omega

/-- White space of any kind stands in no name. -/
theorem isNameChar_of_isBlank {c : Char} (h : Text.isBlank c = true) : isNameChar c = false := by
  by_cases hlow : c.toNat < 128
  · have hcode : c.toNat ∈ [9, 10, 11, 12, 13, 32] := by
      obtain ⟨range, hrange, hfirst, hlast⟩ := Text.Ranges.contains_iff.1 h
      simp only [Text.blankRanges, List.mem_cons, List.not_mem_nil, or_false] at hrange ⊢
      obtain rfl | rfl | rfl | rfl | rfl | rfl | rfl | rfl | rfl | rfl := hrange <;>
        dsimp only at hfirst hlast <;> omega
    rw [← Char.ofNat_toNat c]
    simp only [List.mem_cons, List.not_mem_nil, or_false] at hcode
    obtain h | h | h | h | h | h := hcode <;> rw [h] <;> decide
  · have hletter : Text.letterRanges.contains c = false :=
      Text.Ranges.contains_of_apart (by decide +kernel) h
    have hnumeral : Text.numeralRanges.contains c = false :=
      Text.Ranges.contains_of_apart (by decide +kernel) h
    have hmark : ∀ mark ∈ ['_', '-', '.'], c ≠ mark := by
      rintro mark hmark rfl
      simp only [List.mem_cons, List.not_mem_nil, or_false] at hmark
      obtain rfl | rfl | rfl := hmark <;> exact hlow (by decide)
    simp [isNameChar, Text.isLetter, Text.isNumeral, hlow, hletter, hnumeral,
      hmark '_' (by simp), hmark '-' (by simp), hmark '.' (by simp)]
theorem isNCName_cons {c : Char} {cs : List Char} :
    isNCName (c :: cs) = true ↔ isNameStart c = true ∧ ∀ d ∈ cs, isNameChar d = true := by
  simp [isNCName]

/-- Every character of a name without a colon may stand in a name. -/
theorem isNameChar_of_mem {name : List Char} (h : isNCName name = true) {c : Char}
    (hc : c ∈ name) : isNameChar c = true := by
  cases name with
  | nil => simp at hc
  | cons first others =>
      obtain ⟨hfirst, hothers⟩ := isNCName_cons.1 h
      obtain rfl | hc := List.mem_cons.1 hc
      · exact isNameChar_of_isNameStart hfirst
      · exact hothers c hc

/-- A name is one name, or two with a colon between them. -/
theorem isQName_cases {name : List Char} (h : isQName name = true) :
    isNCName name = true ∨ ∃ first second, name = first ++ ':' :: second ∧
      isNCName first = true ∧ isNCName second = true := by
  unfold isQName at h
  split at h
  · exact .inl h
  · next c second hdrop =>
    rw [Bool.and_eq_true] at h
    have hcolon : c = ':' := by
      have := List.head?_dropWhile_not (· != ':') name
      simpa [hdrop] using this
    subst hcolon
    exact .inr ⟨_, second, by rw [← hdrop, List.takeWhile_append_dropWhile], h⟩

/-- A name starts with a character with which names start. -/
theorem exists_start_of_isQName {name : List Char} (h : isQName name = true) :
    ∃ c cs, name = c :: cs ∧ isNameStart c = true ∧ ∀ d ∈ cs, isNameChar d = true ∨ d = ':' := by
  obtain h | ⟨first, second, rfl, hfirst, hsecond⟩ := isQName_cases h
  · cases name with
    | nil => simp [isNCName] at h
    | cons c cs =>
        obtain ⟨hc, hcs⟩ := isNCName_cons.1 h
        exact ⟨c, cs, rfl, hc, fun d hd => .inl (hcs d hd)⟩
  · cases first with
    | nil => simp [isNCName] at hfirst
    | cons c cs =>
        obtain ⟨hc, hcs⟩ := isNCName_cons.1 hfirst
        refine ⟨c, cs ++ ':' :: second, rfl, hc, fun d hd => ?_⟩
        simp only [List.mem_append, List.mem_cons] at hd
        obtain hd | rfl | hd := hd
        · exact .inl (hcs d hd)
        · exact .inr rfl
        · exact .inl (isNameChar_of_mem hsecond hd)

/-! ## Texts of lists -/

theorem length_le_length_flatMap {α : Type} {f : α → List Char} {as : List α}
    (h : ∀ a ∈ as, f a ≠ []) : as.length ≤ (as.flatMap f).length := by
  induction as with
  | nil => simp
  | cons a as ih =>
      have hpos : 0 < (f a).length := List.length_pos_iff.2 (h a (by simp))
      have := ih fun b hb => h b (List.mem_cons_of_mem a hb)
      simp only [List.flatMap_cons, List.length_append, List.length_cons]
      omega

theorem length_le_of_mem {α : Type} {f : α → List Char} {as : List α} {a : α} (h : a ∈ as) :
    (f a).length ≤ (as.flatMap f).length := by
  obtain ⟨before, after, rfl⟩ := List.append_of_mem h
  simp only [List.flatMap_append, List.flatMap_cons, List.length_append]
  omega

namespace Grammar

/-! ## White space and fixed texts -/

theorem dropSpace_cons {c : Char} (h : Text.isXmlSpace c = false) (s : List Char) :
    dropSpace (c :: s) = c :: s := by
  simp [dropSpace, h]

@[simp] theorem dropSpace_space (s : List Char) : dropSpace (' ' :: s) = dropSpace s := rfl

@[simp] theorem dropSpace_dropSpace (s : List Char) : dropSpace (dropSpace s) = dropSpace s :=
  List.dropWhile_idempotent _ s

theorem skip_eq_some_iff {mark s rest : List Char} :
    skip mark s = some rest ↔ s = mark ++ rest := by
  unfold skip
  split
  · next h =>
    obtain ⟨tail, rfl⟩ := List.isPrefixOf_iff_prefix.1 h
    simp
  · next h =>
    simp only [reduceCtorEq, false_iff]
    rintro rfl
    exact h (List.isPrefixOf_iff_prefix.2 (List.prefix_append mark rest))

@[simp] theorem skip_append (mark rest : List Char) : skip mark (mark ++ rest) = some rest :=
  skip_eq_some_iff.2 rfl

theorem skip_cons_of_ne {m c : Char} (h : m ≠ c) (mark s : List Char) :
    skip (m :: mark) (c :: s) = none := by
  simp [skip, h]

@[simp] theorem skip_cons (c : Char) (mark s : List Char) :
    skip (c :: mark) (c :: s) = skip mark s := by
  simp [skip]

@[simp] theorem skip_empty (s : List Char) : skip [] s = some s := by
  simp [skip]

/-- White space in front does not matter to what may have it around. -/
theorem skipSpaced_congr {s t : List Char} (h : dropSpace s = dropSpace t) (mark : List Char) :
    skipSpaced mark s = skipSpaced mark t := by
  unfold skipSpaced
  rw [h]

theorem skipSpaced_cons_of_ne {m c : Char} (h : m ≠ c) (hc : Text.isXmlSpace c = false)
    (mark s : List Char) : skipSpaced (m :: mark) (c :: s) = none := by
  rw [skipSpaced, dropSpace_cons hc, skip_cons_of_ne h]
  rfl

/-! ## Runs of characters -/

/-- A run of one kind ends where what comes next is of another kind. -/
theorem takeWhile_append_stop {α : Type} {p : α → Bool} {run rest : List α}
    (hrun : ∀ c ∈ run, p c = true) (hrest : ∀ c ∈ rest.head?, p c = false) :
    (run ++ rest).takeWhile p = run ∧ (run ++ rest).dropWhile p = rest := by
  rw [List.takeWhile_append_of_pos hrun, List.dropWhile_append_of_pos hrun]
  cases rest with
  | nil => simp
  | cons c rest =>
      have hc : p c = false := hrest c rfl
      simp [hc]

/-- A name without a colon is read up to where it cannot go on. -/
theorem ncName_append {name rest : List Char} (hname : isNCName name = true)
    (hrest : ∀ c ∈ rest.head?, isNameChar c = false) :
    ncName (name ++ rest) = some (name, rest) := by
  cases name with
  | nil => simp [isNCName] at hname
  | cons c cs =>
      obtain ⟨hc, hcs⟩ := isNCName_cons.1 hname
      obtain ⟨htake, hdrop⟩ := takeWhile_append_stop hcs hrest
      simp [ncName, hc, htake, hdrop]

/-- A name is read up to where it cannot go on. -/
theorem qName_append {name rest : List Char} (hname : isQName name = true)
    (hrest : ∀ c ∈ rest.head?, isNameChar c = false ∧ c ≠ ':') :
    qName (name ++ rest) = some (name, rest) := by
  have hstop : ∀ c ∈ rest.head?, isNameChar c = false := fun c hc => (hrest c hc).1
  obtain h | ⟨first, second, rfl, hfirst, hsecond⟩ := isQName_cases hname
  · have hread := ncName_append h hstop
    cases rest with
    | nil =>
        rw [List.append_nil] at hread ⊢
        simp [qName, hread]
    | cons c rest =>
        have hcolon : c ≠ ':' := (hrest c rfl).2
        rw [qName, hread]
        split <;> simp_all
  · have hread : ncName (first ++ ':' :: (second ++ rest)) = some (first, ':' :: (second ++ rest)) :=
      ncName_append hfirst (by simp; decide)
    simp [qName, hread, ncName_append hsecond hstop]

/-- A text between quotes that it does not hold is read back. -/
theorem closedBy_append {quote : Char} {text : List Char} (h : quote ∉ text) (rest : List Char) :
    closedBy quote (text ++ quote :: rest) = some (text, rest) := by
  have hrun : ∀ c ∈ text, (c != quote) = true := by
    intro c hc
    simp only [bne_iff_ne]
    rintro rfl
    exact h hc
  have hstop : ∀ c ∈ (quote :: rest).head?, (c != quote) = false := by simp
  obtain ⟨htake, hdrop⟩ := takeWhile_append_stop hrun hstop
  simp [closedBy, htake, hdrop]

theorem literal_quotedText {text : List Char} (h : isQuotable text = true) (rest : List Char) :
    literal (quotedText text ++ rest) = some (text, rest) := by
  unfold quotedText
  split
  · next hdouble =>
    have hsingle : '\'' ∉ text := by
      simp only [isQuotable, hdouble, Bool.true_and, Bool.not_eq_true'] at h
      simpa using h
    simpa [literal] using closedBy_append hsingle rest
  · next hdouble =>
    have hdouble : '"' ∉ text := by simpa using hdouble
    simpa [literal] using closedBy_append hdouble rest

/-! ## Repetition -/

/-- Where no item can be read, none is. -/
theorem many_of_error {α : Type} {item : Reader α} {s place : List Char}
    (h : item s = .error place) (limit : Nat) : many item limit s = ([], s) := by
  cases limit with
  | zero => rfl
  | succ limit => simp [many, h]

/-- Items one after another are all read, and then what follows them is left, if each item is read
where what may follow it stands behind it, and no further item can be read.  How a text stands for
another one, such as by white space in front of it, is a parameter. -/
theorem many_reads {α : Type} {item : Reader α} {rest : List Char} {as : List α}
    (text : α → List Char) (before : List Char → Prop) (stands : List Char → List Char → Prop)
    (hitem : ∀ a ∈ as, ∀ s tail, before tail → stands s (text a ++ tail) →
      ∃ left, item s = .ok (a, left) ∧ stands left tail)
    (hstop : ∀ s, stands s rest → ∃ place, item s = .error place)
    (hrest : before rest) (hbefore : ∀ a ∈ as, ∀ tail, before (text a ++ tail)) {limit : Nat}
    (hlimit : as.length ≤ limit) {s : List Char} (hs : stands s (as.flatMap text ++ rest)) :
    ∃ left, many item limit s = (as, left) ∧ stands left rest := by
  induction as generalizing limit s with
  | nil =>
      obtain ⟨place, hplace⟩ := hstop s hs
      exact ⟨s, many_of_error hplace limit, hs⟩
  | cons a as ih =>
      obtain ⟨limit, rfl⟩ := Nat.exists_eq_add_of_lt (Nat.lt_of_lt_of_le (Nat.succ_pos _) hlimit)
      have htail : before (as.flatMap text ++ rest) := by
        cases as with
        | nil => exact hrest
        | cons b bs =>
            rw [List.flatMap_cons, List.append_assoc]
            exact hbefore b (by simp) _
      rw [List.flatMap_cons, List.append_assoc] at hs
      obtain ⟨middle, hread, hmiddle⟩ := hitem a List.mem_cons_self s _ htail hs
      have hlength : as.length ≤ limit := by
        simp only [List.length_cons] at hlimit
        omega
      obtain ⟨left, hothers, hleft⟩ := ih (fun b hb => hitem b (List.mem_cons_of_mem a hb))
        (fun b hb => hbefore b (List.mem_cons_of_mem a hb)) hlength hmiddle
      exact ⟨left, by simp [many, hread, hothers], hleft⟩

end Grammar

end Restyle
