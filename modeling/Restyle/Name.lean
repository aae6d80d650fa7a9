import Restyle.Text.Letter

/-!
# Restyle.Name

Names of elements and attributes, and the characters they are written with.

A `QName` is a local part with an optional qualifier, written `qualifier:local`.  Two alphabets are
in use: names in expressions are made of Unicode letters and numerals, names in markup of the
ranges that XML lists.
-/

namespace Restyle

/-- A qualified name. -/
structure QName where
  /-- What stands before the colon, if there is one. -/
  qualifier : Option String
  /-- What stands after the colon. -/
  localPart : String
deriving DecidableEq, Repr, Inhabited

namespace QName

/-- The name as it is written. -/
def text (name : QName) : String :=
  match name.qualifier with
  | some qualifier => qualifier ++ ":" ++ name.localPart
  | none => name.localPart

/-- Whether a name is the one written as `test`.  The first colon of `test` separates the
qualifier. -/
def isWritten (name : QName) (test : String) : Bool :=
  name.text == test &&
    match name.qualifier with
    | some qualifier => !qualifier.toList.contains ':'
    | none => !test.toList.contains ':'

end QName

/-! ## Names in expressions -/

/-- Whether a name in an expression may start with a character. -/
def isNameStart (c : Char) : Bool := Text.isLetter c || c == '_'

/-- Whether a name in an expression may go on with a character. -/
def isNameChar (c : Char) : Bool :=
  Text.isLetter c || Text.isNumeral c || c == '_' || c == '-' || c == '.'

/-- A name without a colon. -/
def isNCName : List Char → Bool
  | [] => false
  | c :: cs => isNameStart c && cs.all isNameChar

/-! ## Names in markup -/

/-- The characters from 128 on with which a name in markup may start. -/
def markupStartRanges : Text.Ranges :=
  [(0xC0, 0xD6), (0xD8, 0xF6), (0xF8, 0x2FF), (0x370, 0x37D), (0x37F, 0x1FFF), (0x200C, 0x200D),
   (0x2070, 0x218F), (0x2C00, 0x2FEF), (0x3001, 0xD7FF), (0xF900, 0xFDCF), (0xFDF0, 0xFFFD),
   (0x10000, 0xEFFFF)]

/-- Whether a name in markup may start with a character.  The colon counts: it separates the
parts. -/
def isMarkupStart (c : Char) : Bool :=
  if c.toNat < 128 then c.isAlpha || c == ':' || c == '_' else markupStartRanges.contains c

/-- Whether a name in markup may go on with a character. -/
def isMarkupChar (c : Char) : Bool :=
  isMarkupStart c || c.isDigit || c == '-' || c == '.' || c.toNat == 0xB7 ||
    (0x300 ≤ c.toNat && c.toNat ≤ 0x36F) || (0x203F ≤ c.toNat && c.toNat ≤ 0x2040)

/-- Whether markup may hold a character at all. -/
def isMarkupText (c : Char) : Bool :=
  if c.toNat < 0x20 then c == '\t' || c == '\n' || c == '\r'
  else c.toNat != 0xFFFE && c.toNat != 0xFFFF

end Restyle
