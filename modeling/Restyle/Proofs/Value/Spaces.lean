import Mathlib
import Restyle.Function

/-!
# Restyle.Proofs.Value.Spaces

The words of a text, and texts with single spaces between their words.

What parts words is a class of characters.  All about words follows from one equation: a text is cut
at every character of the class (`Text.words_append_cons`).  The function for texts with single spaces
parts words by the Unicode property White_Space, which is wider than the white space of markup, so it
takes more away than the four characters that markup has for it.

* `Text.words_eq_iff` — the words of a text are its maximal runs of characters outside the class;
* `Text.words_intercalate` — put together with single spaces, they are the words of what comes out;
* `Text.singleSpaced_isXmlSpace_iff` — the two classes give the same words just where they agree on
  the characters of the text;
* `Function.normalizeSpace_runs` — the main result.
-/

namespace Restyle

namespace Text

variable {p q : Char → Bool} {text run : List Char} {runs : List (List Char)}

/-! ## Maximal runs -/

/-- The maximal runs of the characters of a text that lie outside a class, in order. -/
inductive Runs (p : Char → Bool) : List Char → List (List Char) → Prop
  | nil : Runs p [] []
  | gap {c : Char} {text : List Char} {runs : List (List Char)} :
    p c = true → Runs p text runs → Runs p (c :: text) runs
  | last {run : List Char} : run ≠ [] → (∀ c ∈ run, p c = false) → Runs p run [run]
  | run {run : List Char} {c : Char} {text : List Char} {runs : List (List Char)} :
    run ≠ [] → (∀ d ∈ run, p d = false) → p c = true → Runs p text runs →
    Runs p (run ++ c :: text) (run :: runs)

theorem consWord_of_ne_nil (h : run ≠ []) : consWord run runs = run.reverse :: runs := by
  simp [consWord, h]

theorem wordsFrom_of_forall {word : List Char} (h : ∀ c ∈ run, p c = false) :
    wordsFrom p word run = consWord (run.reverse ++ word) [] := by
  induction run generalizing word with
  | nil => rfl
  | cons c run ih =>
      simp only [List.forall_mem_cons] at h
      simp [wordsFrom, h.1, ih h.2]

theorem wordsFrom_append_cons {c : Char} (hc : p c = true) (word before after : List Char) :
    wordsFrom p word (before ++ c :: after) = wordsFrom p word before ++ words p after := by
  induction before generalizing word with
  | nil => by_cases h : word = [] <;> simp [wordsFrom, hc, words, consWord, h]
  | cons d before ih =>
      by_cases hd : p d = true
      · by_cases h : word = [] <;> simp [wordsFrom, hd, ih, consWord, h]
      · simp [wordsFrom, hd, ih]

/-- A text is cut at every character of the class. -/
theorem words_append_cons {c : Char} (hc : p c = true) (before after : List Char) :
    words p (before ++ c :: after) = words p before ++ words p after :=
  wordsFrom_append_cons hc [] before after

/-- A text that is not empty and holds no character of the class is one word. -/
theorem words_of_forall (hne : run ≠ []) (h : ∀ c ∈ run, p c = false) : words p run = [run] := by
  rw [words, wordsFrom_of_forall h, List.append_nil, consWord_of_ne_nil (by simpa using hne),
    List.reverse_reverse]

theorem Runs.words_eq (h : Runs p text runs) : words p text = runs := by
  induction h with
  | nil => rfl
  | gap hc _ ih => exact (words_append_cons hc [] _).trans ih
  | last hne hrun => exact words_of_forall hne hrun
  | run hne hrun hc _ ih => rw [words_append_cons hc, words_of_forall hne hrun, ih]; rfl

/-- The run in progress is the first one, together with what follows it. -/
theorem runs_wordsFrom (text word : List Char) (h : ∀ c ∈ word, p c = false) :
    Runs p (word.reverse ++ text) (wordsFrom p word text) := by
  have hrun (word : List Char) (h : ∀ c ∈ word, p c = false) : ∀ c ∈ word.reverse, p c = false :=
    fun c hc => h c (List.mem_reverse.1 hc)
  induction text generalizing word with
  | nil =>
      by_cases hne : word = []
      · subst hne
        exact .nil
      · rw [List.append_nil, wordsFrom, consWord_of_ne_nil hne]
        exact .last (by simpa using hne) (hrun word h)
  | cons c text ih =>
      by_cases hc : p c = true
      · have hrest : Runs p text (wordsFrom p [] text) := ih [] (by simp)
        rw [wordsFrom, if_pos hc]
        by_cases hne : word = []
        · subst hne
          exact .gap hc hrest
        · rw [consWord_of_ne_nil hne]
          exact .run (by simpa using hne) (hrun word h) hc hrest
      · have hword : ∀ d ∈ c :: word, p d = false := by simpa [hc] using h
        rw [wordsFrom, if_neg hc]
        simpa using ih (c :: word) hword

/-- The words of a text are its maximal runs, and no text has two lists of them. -/
theorem words_eq_iff : words p text = runs ↔ Runs p text runs := by
  constructor
  · rintro rfl
    exact runs_wordsFrom text [] (by simp)
  · exact Runs.words_eq

/-! ## Characters of words -/

theorem Runs.mem (h : Runs p text runs) :
    ∀ run ∈ runs, run ≠ [] ∧ ∀ c ∈ run, p c = false := by
  induction h with
  | nil => simp
  | gap _ _ ih => exact ih
  | last hne hrun => simpa using ⟨hne, hrun⟩
  | run hne hrun _ _ ih => simpa using ⟨⟨hne, hrun⟩, ih⟩

/-- The words hold all characters outside the class, in order. -/
theorem Runs.flatten_eq (h : Runs p text runs) : runs.flatten = text.filter fun c => !p c := by
  have hkept {run : List Char} (hrun : ∀ c ∈ run, p c = false) :
      (run.filter fun c => !p c) = run := by
    rw [List.filter_eq_self]
    intro c hc
    simp [hrun c hc]
  induction h with
  | nil => rfl
  | gap hc _ ih => simp [hc, ih]
  | last _ hrun => simp [hkept hrun]
  | run _ hrun hc _ ih => simp [ih, hc, hkept hrun]

/-- Classes that agree on the characters of a text part the same words in it. -/
theorem words_congr (h : ∀ c ∈ text, p c = q c) : words p text = words q text := by
  have hfrom (word : List Char) : wordsFrom p word text = wordsFrom q word text := by
    induction text generalizing word with
    | nil => rfl
    | cons c text ih =>
        simp only [List.forall_mem_cons] at h
        simp [wordsFrom, h.1, ih h.2]
  exact hfrom []

/-! ## Single spaces -/

/-- Words put together with single spaces are the words of what comes out. -/
theorem words_intercalate (hp : p ' ' = true)
    (h : ∀ run ∈ runs, run ≠ [] ∧ ∀ c ∈ run, p c = false) :
    words p ([' '].intercalate runs) = runs := by
  induction runs with
  | nil => rfl
  | cons run runs ih =>
      obtain ⟨⟨hne, hrun⟩, hruns⟩ := List.forall_mem_cons.1 h
      cases runs with
      | nil => rw [List.intercalate_singleton, words_of_forall hne hrun]
      | cons next runs =>
          rw [List.intercalate_cons_cons, List.append_assoc, List.singleton_append,
            words_append_cons hp, words_of_forall hne hrun, ih hruns]
          rfl

theorem filter_intercalate (hp : p ' ' = true) (runs : List (List Char)) :
    ([' '].intercalate runs).filter (fun c => !p c) = runs.flatten.filter fun c => !p c := by
  induction runs with
  | nil => rfl
  | cons run runs ih =>
      cases runs with
      | nil => simp
      | cons next runs =>
          rw [List.intercalate_cons_cons, List.filter_append, ih]
          simp [hp]

/-- A text is another one with single spaces between its words and nothing around them. -/
def SingleSpaced (p : Char → Bool) (text result : String) : Prop :=
  ∃ runs, Runs p text.toList runs ∧ result = " ".intercalate (runs.map String.ofList)

/-- The characters of a text that are no white space of markup, in order. -/
def others (text : String) : List Char := text.toList.filter fun c => !isXmlSpace c

/-- The only white space in a text is that of markup. -/
def OnlyXmlSpace (text : String) : Prop :=
  ∀ c ∈ text.toList, isBlank c = true → isXmlSpace c = true

instance (text : String) : Decidable (OnlyXmlSpace text) :=
  decidable_of_iff (text.toList.all (fun c => !isBlank c || isXmlSpace c) = true) (by
    rw [List.all_eq_true]
    refine forall₂_congr fun c _ => ?_
    cases isBlank c <;> simp)

variable {source result : String}

theorem toList_intercalate_words (runs : List (List Char)) :
    (" ".intercalate (runs.map String.ofList)).toList = [' '].intercalate runs := by
  rw [String.toList_intercalate, List.map_map]
  simp [Function.comp_def]

theorem singleSpaced_spaced (text : String) : SingleSpaced isBlank text (Function.spaced text) :=
  ⟨_, words_eq_iff.1 rfl, rfl⟩

theorem SingleSpaced.eq_spaced (h : SingleSpaced isBlank source result) :
    result = Function.spaced source := by
  obtain ⟨runs, hruns, rfl⟩ := h
  rw [Function.spaced, hruns.words_eq]

/-- A text is as it is with single spaces if it holds nothing that parts words. -/
theorem singleSpaced_self (h : ∀ c ∈ source.toList, p c = false) : SingleSpaced p source source := by
  by_cases hne : source.toList = []
  · refine ⟨[], hne ▸ .nil, ?_⟩
    simpa using String.toList_eq_nil_iff.1 hne
  · exact ⟨[source.toList], .last hne h, by simp⟩

/-- Nothing but what parts words is taken away or added. -/
theorem SingleSpaced.filter_eq (hp : p ' ' = true) (h : SingleSpaced p source result) :
    (result.toList.filter fun c => !p c) = source.toList.filter fun c => !p c := by
  obtain ⟨runs, hruns, rfl⟩ := h
  rw [toList_intercalate_words, filter_intercalate hp, hruns.flatten_eq, List.filter_filter]
  simp

/-- A text with single spaces stays as it is. -/
theorem spaced_spaced (text : String) :
    Function.spaced (Function.spaced text) = Function.spaced text := by
  have hruns : Runs isBlank text.toList (words isBlank text.toList) := words_eq_iff.1 rfl
  have hwords := words_intercalate (p := isBlank) (by decide) hruns.mem
  rw [Function.spaced, Function.spaced, toList_intercalate_words, hwords]

theorem mem_intercalate {c : Char} (h : c ∈ [' '].intercalate runs) :
    c = ' ' ∨ ∃ run ∈ runs, c ∈ run := by
  induction runs with
  | nil => simp at h
  | cons run runs ih =>
      cases runs with
      | nil => exact .inr ⟨run, by simp, by simpa using h⟩
      | cons next runs =>
          rw [List.intercalate_cons_cons] at h
          simp only [List.mem_append, List.mem_singleton] at h
          obtain (h | h) | h := h
          · exact .inr ⟨run, by simp, h⟩
          · exact .inl h
          · exact (ih h).imp_right fun ⟨other, hother, hc⟩ =>
              ⟨other, List.mem_cons_of_mem _ hother, hc⟩

/-- What is made of a text has no other white space than single spaces. -/
theorem onlyXmlSpace_spaced (text : String) : OnlyXmlSpace (Function.spaced text) := by
  intro c hc hblank
  obtain ⟨runs, hruns, hresult⟩ := singleSpaced_spaced text
  rw [hresult, toList_intercalate_words] at hc
  obtain rfl | ⟨run, hrun, hmem⟩ := mem_intercalate hc
  · rfl
  · rw [(hruns.mem run hrun).2 c hmem] at hblank
    cases hblank

/-! ## White space of markup -/

/-- Other white space does not outlast the function. -/
theorem onlyXmlSpace_of_others_eq (h : others (Function.spaced source) = others source) :
    OnlyXmlSpace source := by
  intro c hc hblank
  by_contra hother
  have hmem : c ∈ others source := List.mem_filter.2 ⟨hc, by simpa using hother⟩
  rw [← h] at hmem
  exact hother (onlyXmlSpace_spaced source c (List.mem_filter.1 hmem).1 hblank)

theorem OnlyXmlSpace.words_eq (h : OnlyXmlSpace source) :
    words isXmlSpace source.toList = words isBlank source.toList := by
  refine words_congr fun c hc => ?_
  rw [Bool.eq_iff_iff]
  exact ⟨isBlank_of_isXmlSpace, h c hc⟩

/-- The function parts words by the white space of markup just where a text has no other. -/
theorem singleSpaced_isXmlSpace_iff :
    SingleSpaced isXmlSpace source (Function.spaced source) ↔ OnlyXmlSpace source := by
  constructor
  · intro h
    exact onlyXmlSpace_of_others_eq (h.filter_eq (by decide))
  · intro h
    exact ⟨words isBlank source.toList, words_eq_iff.1 h.words_eq, rfl⟩

theorem others_spaced_iff :
    others (Function.spaced source) = others source ↔ OnlyXmlSpace source := by
  constructor
  · exact onlyXmlSpace_of_others_eq
  · intro h
    exact (singleSpaced_isXmlSpace_iff.2 h).filter_eq (by decide)

/-- A text is left as it is, and has no white space of markup, just if it has none at all. -/
theorem spaced_eq_self_iff :
    ((∀ c ∈ source.toList, isXmlSpace c = false) ∧ Function.spaced source = source) ↔
      ∀ c ∈ source.toList, isBlank c = false := by
  constructor
  · rintro ⟨hxml, hself⟩ c hc
    have honly := hself ▸ onlyXmlSpace_spaced source
    by_contra hblank
    have hspace := honly c hc (by simpa using hblank)
    rw [hxml c hc] at hspace
    cases hspace
  · intro h
    refine ⟨fun c hc => ?_, (singleSpaced_self h).eq_spaced.symm⟩
    by_contra hspace
    have hblank := isBlank_of_isXmlSpace (c := c) (by simpa using hspace)
    rw [h c hc] at hblank
    cases hblank

end Text

/-! ## The function -/

namespace Function

open Text

/-- **Single spaces between words.**  For a text the function gives its maximal runs of characters
without the property White_Space, in order, with single spaces between them, and for that text again
the same.  Exactly if the text has no other white space than that of markup, these are the runs
between white space of markup, and exactly then all other characters are still there, in order; and a
text without white space of markup is left as it is exactly if it has no other white space either. -/
theorem normalizeSpace_runs {ctx : Context} {args : List Value} {text : String}
    (h : textOrContext "normalize-space" ctx args = .ok text) :
    ∃ result, normalizeSpace.apply ctx args = .ok (.string result) ∧
      SingleSpaced isBlank text result ∧
      normalizeSpace.apply ctx [.string result] = .ok (.string result) ∧
      (SingleSpaced isXmlSpace text result ↔ OnlyXmlSpace text) ∧
      (others result = others text ↔ OnlyXmlSpace text) ∧
      (((∀ c ∈ text.toList, isXmlSpace c = Bool.false) ∧ result = text) ↔
        ∀ c ∈ text.toList, isBlank c = Bool.false) := by
  have hresult : normalizeSpace.apply ctx args = .ok (.string (spaced text)) := by
    rw [apply, h]
    rfl
  have hagain : normalizeSpace.apply ctx [.string (spaced text)] =
      .ok (.string (spaced (spaced text))) := rfl
  rw [spaced_spaced] at hagain
  exact ⟨spaced text, hresult, singleSpaced_spaced text, hagain, singleSpaced_isXmlSpace_iff,
    others_spaced_iff, spaced_eq_self_iff⟩

/-- An empty document with its root in view. -/
def emptyRoot : Context := ⟨(⟨[]⟩ : Document).root, ⟨[]⟩, 1, 1, names, fun _ => none⟩

/-- White space of markup of three kinds is made one space, or taken away at the ends. -/
theorem normalizeSpace_runs_mixed :
    textOrContext "normalize-space" emptyRoot [.string "\n a\t b "] = .ok "\n a\t b " ∧
      OnlyXmlSpace "\n a\t b " ∧
      ∃ result, normalizeSpace.apply emptyRoot [.string "\n a\t b "] = .ok (.string result) ∧
        result = "a b" ∧ SingleSpaced isXmlSpace "\n a\t b " result := by
  have honly : OnlyXmlSpace "\n a\t b " := by decide
  have htext : textOrContext "normalize-space" emptyRoot [.string "\n a\t b "] =
      .ok "\n a\t b " := rfl
  obtain ⟨result, hresult, hspaced, -, hxml, -⟩ := normalizeSpace_runs htext
  have hvalue : spaced "\n a\t b " = "a b" := by cbv
  exact ⟨htext, honly, result, hresult, hspaced.eq_spaced.trans hvalue, hxml.2 honly⟩

/-- A no-break space is made a space, although it parts no words in markup. -/
theorem noBreakSpace_parted :
    normalizeSpace.apply emptyRoot [.string "a\u00a0b"] = .ok (.string "a b") ∧
      ¬ SingleSpaced isXmlSpace "a\u00a0b" "a b" := by
  have hspaced : spaced "a\u00a0b" = "a b" := by cbv
  have hother : ¬ OnlyXmlSpace "a\u00a0b" := by decide
  constructor
  · rw [← hspaced]
    rfl
  · rwa [← hspaced, singleSpaced_isXmlSpace_iff]

end Function

end Restyle
