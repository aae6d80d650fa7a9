import Restyle.Result
import Restyle.Stylesheet
import Restyle.Text.Search

/-!
# Restyle.Result.Written

Results as text.

As markup, text has references for `&`, `<` and `>`, attribute values also for both quotes, and an
element without content is written as `<name/>`.  The start tag of an element is held back until it
is known whether the element has content.  A comment may hold no two hyphens in a row and no hyphen at
its end, so pairs of hyphens are parted until there are none.  As plain text, a result is the text in
it.

* `Written.commentText` — the text of a comment as it is written;
* `Written.markup` — the markup for events;
* `Written.result` — the text of a result in the form that a stylesheet asks for.
-/

namespace Restyle.Written

/-! ## Escapes -/

/-- A character of text as it is written in markup. -/
def textChar (c : Char) : List Char :=
  if c = '&' then "&amp;".toList
  else if c = '<' then "&lt;".toList
  else if c = '>' then "&gt;".toList
  else [c]

/-- A character of an attribute value as it is written in markup. -/
def valueChar (c : Char) : List Char :=
  if c = '"' then "&quot;".toList
  else if c = '\'' then "&apos;".toList
  else textChar c

/-- Text as it is written in markup. -/
def escapeText (text : String) : List Char := text.toList.flatMap textChar

/-- An attribute value as it is written in markup. -/
def escapeValue (value : String) : List Char := value.toList.flatMap valueChar

/-! ## Comments -/

/-- The pairs of hyphens in a text, taken from the left without overlap, each with a space in it. -/
def partPairs : List Char → List Char
  | c :: d :: cs =>
    if c = '-' ∧ d = '-' then c :: ' ' :: d :: partPairs cs else c :: partPairs (d :: cs)
  | cs => cs

/-- How often a hyphen stands right before another one. -/
def pairCount : List Char → Nat
  | [] => 0
  | c :: cs => (if c = '-' ∧ cs.head? = some '-' then 1 else 0) + pairCount cs

/-- Parting pairs leaves the first character where it is. -/
theorem head?_partPairs (cs : List Char) : (partPairs cs).head? = cs.head? := by
  unfold partPairs
  split
  · split <;> rfl
  · rfl

/-- A character makes a pair with what follows it just if it did before that was parted. -/
theorem pairCount_cons_partPairs (c : Char) (cs : List Char) :
    pairCount (c :: partPairs cs) + pairCount cs =
      pairCount (c :: cs) + pairCount (partPairs cs) := by
  simp only [pairCount, head?_partPairs]
  omega

theorem pairCount_parted (cs : List Char) :
    pairCount ('-' :: ' ' :: '-' :: cs) = pairCount ('-' :: cs) := by
  simp [pairCount]

theorem pairCount_pair (cs : List Char) :
    pairCount ('-' :: '-' :: cs) = pairCount ('-' :: cs) + 1 := by
  simp [pairCount, Nat.add_comm]

theorem pairCount_cons_cons_of_not {c d : Char} (h : ¬(c = '-' ∧ d = '-')) (cs : List Char) :
    pairCount (c :: d :: cs) = pairCount (d :: cs) := by
  simp [pairCount, h]

theorem pairCount_partPairs_le (cs : List Char) : pairCount (partPairs cs) ≤ pairCount cs := by
  fun_induction partPairs cs with
  | case1 c d cs h ih =>
      obtain ⟨rfl, rfl⟩ := h
      have hnext := pairCount_cons_partPairs '-' cs
      rw [pairCount_parted, pairCount_pair]
      omega
  | case2 c d cs h ih =>
      have hnext := pairCount_cons_partPairs c (d :: cs)
      rw [pairCount_cons_cons_of_not h] at hnext ⊢
      omega
  | case3 => exact Nat.le_refl _

/-- Where there are pairs, there are fewer once they are parted.  A third hyphen behind a pair makes
another pair with the second, so some may be left. -/
theorem pairCount_partPairs_lt {cs : List Char} (hpos : 0 < pairCount cs) :
    pairCount (partPairs cs) < pairCount cs := by
  fun_induction partPairs cs with
  | case1 c d cs h ih =>
      obtain ⟨rfl, rfl⟩ := h
      have hnext := pairCount_cons_partPairs '-' cs
      have hle := pairCount_partPairs_le cs
      rw [pairCount_parted, pairCount_pair]
      omega
  | case2 c d cs h ih =>
      have hnext := pairCount_cons_partPairs c (d :: cs)
      rw [pairCount_cons_cons_of_not h] at hnext hpos ⊢
      have hrest := ih hpos
      omega
  | case3 cs h =>
      cases cs with
      | nil => exact absurd hpos (Nat.lt_irrefl 0)
      | cons c cs =>
          cases cs with
          | nil => simp [pairCount] at hpos
          | cons d cs => exact absurd rfl (h c d cs)

/-- A pair occurs in a text just if one is counted. -/
theorem occursIn_pair (cs : List Char) :
    Text.occursIn ['-', '-'] cs = true ↔ 0 < pairCount cs := by
  induction cs with
  | nil => simp [Text.occursIn, Text.cutAt?, pairCount]
  | cons c cs ih =>
      rw [Text.occursIn, Text.cutAt?, pairCount]
      by_cases h : c = '-' ∧ cs.head? = some '-'
      · obtain ⟨rfl, hhead⟩ := h
        obtain ⟨rest, rfl⟩ := List.head?_eq_some_iff.1 hhead
        have hprefix : ['-', '-'].isPrefixOf ('-' :: '-' :: rest) = true := by
          simp [List.isPrefixOf]
        rw [if_pos hprefix, if_pos ⟨rfl, hhead⟩]
        exact iff_of_true rfl (Nat.add_pos_left Nat.one_pos _)
      · have hfirst : ['-', '-'].isPrefixOf (c :: cs) = false := by
          cases cs <;> simp [List.isPrefixOf] at h ⊢
          grind
        rw [if_neg (by simp [hfirst]), Option.isSome_map, ← Text.occursIn, ih, if_neg h,
          Nat.zero_add]

/-- A text with its pairs of hyphens parted again and again until none occurs. -/
def partHyphens (cs : List Char) : List Char :=
  if Text.occursIn ['-', '-'] cs then partHyphens (partPairs cs) else cs
termination_by pairCount cs
decreasing_by exact pairCount_partPairs_lt ((occursIn_pair cs).1 ‹_›)

/-- A text with a space behind a hyphen at its end. -/
def padEnd (cs : List Char) : List Char :=
  if cs.getLast? = some '-' then cs ++ [' '] else cs

/-- The text of a comment as it is written. -/
def commentText (cs : List Char) : List Char := padEnd (partHyphens (partPairs cs))

/-- Whether a hyphen with this rest behind it may not stand as it is in a comment. -/
def needsSpace : List Char → Bool
  | [] => true
  | c :: _ => c == '-'

/-- The text of a comment with a space behind every hyphen that stands before another one or at
the end. -/
def spaceHyphens : List Char → List Char
  | [] => []
  | c :: cs =>
    if c == '-' && needsSpace cs then c :: ' ' :: spaceHyphens cs else c :: spaceHyphens cs

/-! ## Tags -/

/-- Attributes with one more; a name that is there already takes the new value in its place. -/
def setAttribute (name value : String) : List (String × String) → List (String × String)
  | [] => [(name, value)]
  | (other, old) :: attrs =>
    if other = name then (other, value) :: attrs else (other, old) :: setAttribute name value attrs

/-- A start tag whose last characters are given. -/
def startTag (close : List Char) (tag : String × List (String × String)) : List Char :=
  '<' :: tag.1.toList ++
    tag.2.flatMap (fun (name, value) =>
      ' ' :: name.toList ++ '=' :: '"' :: escapeValue value ++ ['"']) ++
    close

/-- The start tag that was held back, if there is one, of an element with content. -/
def release (tag : Option (String × List (String × String))) : List Char :=
  match tag with
  | some tag => startTag ['>'] tag
  | none => []

/-- The open elements when content follows the start tag that was held back. -/
def enclosing (tag : Option (String × List (String × String))) (above : List String) :
    List String :=
  match tag with
  | some tag => tag.1 :: above
  | none => above

/-! ## Results -/

/-- The markup for events, where a start tag may be held back and the elements `above` it are open,
innermost first. -/
def markupFrom (tag : Option (String × List (String × String))) (above : List String) :
    List Event → Except EventProblem (List Char)
  | [] =>
    match enclosing tag above with
    | [] => .ok []
    | name :: _ => .error (.unclosed name)
  | .start name :: events => do
    return release tag ++ (← markupFrom (some (name, [])) (enclosing tag above) events)
  | .attr name value :: events =>
    match tag with
    | some (element, attrs) =>
      markupFrom (some (element, setAttribute name value attrs)) above events
    | none => .error (.strayAttribute name)
  | .text content :: events => do
    return release tag ++ escapeText content ++ (← markupFrom none (enclosing tag above) events)
  | .comment content :: events => do
    return release tag ++ "<!--".toList ++ commentText content.toList ++ "-->".toList ++
      (← markupFrom none (enclosing tag above) events)
  | .stop :: events =>
    match tag, above with
    | some tag, _ => do return startTag "/>".toList tag ++ (← markupFrom none above events)
    | none, name :: above => do
      return "</".toList ++ name.toList ++ '>' :: (← markupFrom none above events)
    | none, [] => .error .strayEnd

/-- The markup for events. -/
def markup (events : List Event) : Except EventProblem (List Char) := markupFrom none [] events

/-- The declaration before a result. -/
def declaration : List Char := "<?xml version=\"1.0\" encoding=\"UTF-8\"?>\n".toList

/-- The text of a result in a form. -/
def result (form : OutputForm) (events : List Event) : Except EventProblem String := do
  match form.method with
  | .text => return Event.textOf events
  | .html => return String.ofList (← markup events)
  | .xml =>
    return String.ofList ((if form.declaration then declaration else []) ++ (← markup events))

end Restyle.Written
