import Restyle.Text.Printable

/-!
# Restyle.Text.Quoted

Texts as messages show them: between double quotes, with a backslash before a quote and a
backslash, short forms for NUL, tab, line feed and carriage return, and the hexadecimal code point
of every other character that cannot be printed.
-/

namespace Restyle.Text

/-- One character inside a quoted text. -/
def quotedChar (c : Char) : List Char :=
  if c = '\x00' then ['\\', '0']
  else if c = '\t' then ['\\', 't']
  else if c = '\n' then ['\\', 'n']
  else if c = '\r' then ['\\', 'r']
  else if c = '"' then ['\\', '"']
  else if c = '\\' then ['\\', '\\']
  else if isPrintable c then [c]
  else ['\\', 'u', '\x7b'] ++ Nat.toDigits 16 c.toNat ++ ['\x7d']

/-- A text between double quotes. -/
def quoted (text : String) : String :=
  String.ofList ('"' :: text.toList.flatMap quotedChar ++ ['"'])

end Restyle.Text
