import Restyle.Text.Ranges

/-!
# Restyle.Text.Blank

Two classes of white space and what is cut along them.  `isXmlSpace` is the white space of markup
and of expressions: space, tab, carriage return and line feed.  `isBlank` is the Unicode property
White_Space, which also holds the no-break space and the wide spaces.

* `trim` removes the characters of a class from both ends of a text;
* `words` lists the maximal runs of the other characters.
-/

namespace Restyle.Text

/-- The white space of markup and of expressions. -/
def isXmlSpace (c : Char) : Bool :=
  c == ' ' || c == '\t' || c == '\r' || c == '\n'

/-- The characters with the Unicode property White_Space. -/
def blankRanges : Ranges :=
  [(0x9, 0xD), (0x20, 0x20), (0x85, 0x85), (0xA0, 0xA0), (0x1680, 0x1680), (0x2000, 0x200A),
   (0x2028, 0x2029), (0x202F, 0x202F), (0x205F, 0x205F), (0x3000, 0x3000)]

/-- Whether a character has the Unicode property White_Space. -/
def isBlank (c : Char) : Bool := blankRanges.contains c

/-- The white space of markup is white space of Unicode. -/
theorem isBlank_of_isXmlSpace {c : Char} (h : isXmlSpace c = true) : isBlank c = true := by
  simp only [isXmlSpace, Bool.or_eq_true, beq_iff_eq] at h
  rcases h with ((rfl | rfl) | rfl) | rfl <;> decide

/-! ## Cutting -/

/-- A list without the members of a class at its end. -/
def trimEnd (p : Char → Bool) (cs : List Char) : List Char :=
  (cs.reverse.dropWhile p).reverse

/-- A list without the members of a class at both ends. -/
def trim (p : Char → Bool) (cs : List Char) : List Char :=
  trimEnd p (cs.dropWhile p)

/-- A text without the members of a class at both ends. -/
def trimString (p : Char → Bool) (text : String) : String :=
  String.ofList (trim p text.toList)

/-- The word in progress, last character first, put in front of the words that follow it unless it
is empty. -/
def consWord (word : List Char) (rest : List (List Char)) : List (List Char) :=
  if word.isEmpty then rest else word.reverse :: rest

/-- The maximal runs of characters outside a class, where `word` is the run in progress, last
character first. -/
def wordsFrom (p : Char → Bool) (word : List Char) : List Char → List (List Char)
  | [] => consWord word []
  | c :: cs => if p c then consWord word (wordsFrom p [] cs) else wordsFrom p (c :: word) cs

/-- The maximal runs of characters outside a class, in order. -/
def words (p : Char → Bool) (cs : List Char) : List (List Char) := wordsFrom p [] cs

end Restyle.Text
