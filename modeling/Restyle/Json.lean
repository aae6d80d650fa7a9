import Restyle.Double.Decimal

/-!
# Restyle.Json

Reading JSON, in which files of parameters are written.

A number without fraction and exponent that fits 64 bits is an integer; every other number is read
as its first digits (as many as fit 64 bits) times or divided by a power of ten, each rounded once.
The fields of an object are kept in the order of their names, and the last of several fields with
one name wins.  Brackets may be nested 127 levels deep.  The place of a failure is told in bytes,
which may be inside a character.
-/

namespace Restyle

/-- A JSON value. -/
inductive Json where
  | null
  | boolean (value : Bool)
  | integer (value : Int)
  | real (value : Double)
  | string (text : String)
  | array (items : List Json)
  | object (fields : List (String × Json))
deriving Inhabited

/-- What is wrong with a JSON text. -/
inductive JsonProblem where
  | endInList
  | endInObject
  | endInString
  | endInValue
  | colonExpected
  | listEndExpected
  | objectEndExpected
  | wordExpected
  | valueExpected
  | badEscape
  | badNumber
  | numberTooLarge
  | controlInString
  | keyNotString
  | loneSurrogate
  | halfSurrogate
  | trailingComma
  | trailingText
  | tooDeep
deriving DecidableEq, Repr

/-- The words for a problem. -/
def JsonProblem.message : JsonProblem → String
  | .endInList => "EOF while parsing a list"
  | .endInObject => "EOF while parsing an object"
  | .endInString => "EOF while parsing a string"
  | .endInValue => "EOF while parsing a value"
  | .colonExpected => "expected `:`"
  | .listEndExpected => "expected `,` or `]`"
  | .objectEndExpected => "expected `,` or `\x7d`"
  | .wordExpected => "expected ident"
  | .valueExpected => "expected value"
  | .badEscape => "invalid escape"
  | .badNumber => "invalid number"
  | .numberTooLarge => "number out of range"
  | .controlInString => "control character (\\u0000-\\u001F) found while parsing a string"
  | .keyNotString => "key must be a string"
  | .loneSurrogate => "lone leading surrogate in hex escape"
  | .halfSurrogate => "unexpected end of hex escape"
  | .trailingComma => "trailing comma"
  | .trailingText => "trailing characters"
  | .tooDeep => "recursion limit exceeded"

/-- A problem, a text that is left, and how many bytes into that text the problem was found. -/
structure JsonFailure where
  problem : JsonProblem
  rest : List Char
  ahead : Nat

namespace Json

/-- A reader of JSON. -/
abbrev Reader (α : Type) := List Char → Except JsonFailure (α × List Char)

/-- A problem found with the first byte of the text that is left. -/
def failNext {α : Type} (problem : JsonProblem) (s : List Char) : Except JsonFailure α :=
  .error ⟨problem, s, 1⟩

/-- A problem found just before the text that is left. -/
def failHere {α : Type} (problem : JsonProblem) (s : List Char) : Except JsonFailure α :=
  .error ⟨problem, s, 0⟩

/-- What is left after white space. -/
def dropSpace (s : List Char) : List Char :=
  s.dropWhile fun c => c == ' ' || c == '\n' || c == '\t' || c == '\r'

/-- The rest of a word. -/
def word : List Char → List Char → Except JsonFailure (List Char)
  | [], s => .ok s
  | _ :: _, [] => failHere .endInValue []
  | c :: cs, d :: s => if c == d then word cs s else failNext .wordExpected (d :: s)

/-! ## Numbers -/

/-- Read digits while their value stays within a limit. -/
def boundedDigits (limit acc : Nat) : List Char → Nat × List Char
  | [] => (acc, [])
  | c :: s =>
    let next := acc * 10 + (c.toNat - '0'.toNat)
    if c.isDigit && next ≤ limit then boundedDigits limit next s else (acc, c :: s)

/-- The largest 64-bit natural number. -/
def maxSignificand : Nat := Nat.pow 2 64 - 1

/-- The largest exponent that is read as a number. -/
def maxExponent : Nat := Nat.pow 2 31 - 1

/-- A number divided by a power of ten, by `10 ^ 308` at a time. -/
def scaleDown (x : Double) (places : Nat) : Double :=
  if places ≤ 308 then x.div (.nearest false (Nat.pow 10 places) 1)
  else if x = .zero false then x
  else scaleDown (x.div (.nearest false (Nat.pow 10 308) 1)) (places - 308)
termination_by places

/-- The number `significand · 10 ^ exponent`, or `none` beyond the largest number. -/
def scaled (significand : Nat) (exponent : Int) : Option Double :=
  let x := Double.ofNat significand
  if exponent < 0 then some (scaleDown x exponent.natAbs)
  else if significand = 0 then some x
  else if 308 < exponent then none
  else match x.mul (.nearest false (Nat.pow 10 exponent.toNat) 1) with
    | .infinity _ => none
    | y => some y

/-- A real number with its sign. -/
def realNumber (negative : Bool) (significand : Nat) (exponent : Int) : Reader Json := fun s =>
  match scaled significand exponent with
  | some x => .ok (.real (if negative then x.neg else x), s)
  | none => failHere .numberTooLarge s

/-- What follows the `e` of an exponent. -/
def exponentPart (negative : Bool) (significand : Nat) (start : Int) : Reader Json := fun s =>
  let (down, digits) := match s with
    | '+' :: rest => (false, rest)
    | '-' :: rest => (true, rest)
    | _ => (false, s)
  match digits with
  | [] => failHere .endInValue []
  | c :: _ =>
    if !c.isDigit then failNext .badNumber digits
    else
      let (exponent, rest') := boundedDigits maxExponent 0 digits
      match rest' with
      | d :: rest'' =>
        if d.isDigit then
          if significand != 0 && !down then failHere .numberTooLarge rest''
          else realNumber negative 0 0 (rest'.dropWhile Char.isDigit)
        else
          realNumber negative significand (if down then start - exponent else start + exponent)
            rest'
      | [] =>
        realNumber negative significand (if down then start - exponent else start + exponent) []

/-- What may follow the digits of a real number. -/
def afterDigits (negative : Bool) (significand : Nat) (exponent : Int) : Reader Json := fun s =>
  match s with
  | 'e' :: rest | 'E' :: rest => exponentPart negative significand exponent rest
  | _ => realNumber negative significand exponent s

/-- What follows the point of a number; digits that no longer fit are passed over. -/
def fractionPart (negative : Bool) (significand : Nat) (exponent : Int) : Reader Json := fun s =>
  let (significand', rest) := boundedDigits maxSignificand significand s
  let read := s.length - rest.length
  if read = 0 && !(rest.head?.any Char.isDigit) then
    if s.isEmpty then failNext .endInValue s else failNext .badNumber s
  else afterDigits negative significand' (exponent - read) (rest.dropWhile Char.isDigit)

/-- A number after its sign. -/
def number (negative : Bool) : Reader Json := fun s =>
  match s with
  | [] => failHere .endInValue []
  | '0' :: c :: rest =>
    if c.isDigit then failNext .badNumber (c :: rest) else whole 0 0 (c :: rest)
  | c :: _ =>
    if !c.isDigit then failNext .badNumber s
    else
      let (significand, rest') := boundedDigits maxSignificand 0 s
      whole significand (rest'.takeWhile Char.isDigit).length (rest'.dropWhile Char.isDigit)
where
  /-- A number whose digits before the point are read, `dropped` of them passed over. -/
  whole (significand dropped : Nat) : Reader Json := fun s =>
    match s with
    | '.' :: rest => fractionPart negative significand dropped rest
    | 'e' :: rest | 'E' :: rest => exponentPart negative significand dropped rest
    | _ =>
      if dropped = 0 && !negative then .ok (.integer significand, s)
      else if dropped = 0 && significand != 0 && significand ≤ Nat.pow 2 63 then
        .ok (.integer (-significand), s)
      else realNumber negative significand dropped s

/-! ## Strings -/

/-- The value of a hexadecimal digit. -/
def hexDigit? (c : Char) : Option Nat :=
  if c.isDigit then some (c.toNat - '0'.toNat)
  else if 'a' ≤ c && c ≤ 'f' then some (c.toNat - 'a'.toNat + 10)
  else if 'A' ≤ c && c ≤ 'F' then some (c.toNat - 'A'.toNat + 10)
  else none

/-- How many bytes characters take. -/
def byteCount (s : List Char) : Nat := s.foldl (fun n c => n + c.utf8Size) 0

/-- Four hexadecimal digits; whether they are digits is asked of four bytes at once. -/
def fourHex : Reader Nat := fun s =>
  match s with
  | a :: b :: c :: d :: rest =>
    match hexDigit? a, hexDigit? b, hexDigit? c, hexDigit? d with
    | some a, some b, some c, some d => .ok (a * 4096 + b * 256 + c * 16 + d, rest)
    | _, _, _, _ => .error ⟨.badEscape, s, 4⟩
  | _ => if byteCount s < 4 then failHere .endInString [] else .error ⟨.badEscape, s, 4⟩

theorem length_lt_of_fourHex {s rest : List Char} {n : Nat} (h : fourHex s = .ok (n, rest)) :
    rest.length < s.length := by
  unfold fourHex at h
  split at h
  · split at h
    · simp only [Except.ok.injEq, Prod.mk.injEq] at h
      simp only [← h.2, List.length_cons]; omega
    · contradiction
  · split at h <;> contradiction

/-- A character that must come next in the second half of a surrogate pair. -/
def surrogateMark (mark : Char) : List Char → Except JsonFailure (List Char)
  | [] => failHere .endInString []
  | c :: s => if c == mark then .ok s else failNext .halfSurrogate (c :: s)

theorem length_lt_of_surrogateMark {mark : Char} {s rest : List Char}
    (h : surrogateMark mark s = .ok rest) : rest.length < s.length := by
  unfold surrogateMark at h
  split at h
  · contradiction
  · split at h
    · rw [← Except.ok.inj h]; exact Nat.lt_succ_self _
    · contradiction

/-- The character whose code unit, or first half of it, has just been read. -/
def afterUnit (high : Nat) : Reader Char := fun s =>
  if 0xDC00 ≤ high && high ≤ 0xDFFF then failHere .loneSurrogate s
  else if 0xD800 ≤ high && high ≤ 0xDBFF then
    match surrogateMark '\\' s with
    | .error failure => .error failure
    | .ok s =>
      match surrogateMark 'u' s with
      | .error failure => .error failure
      | .ok s =>
        match fourHex s with
        | .error failure => .error failure
        | .ok (low, s) =>
          if 0xDC00 ≤ low && low ≤ 0xDFFF then
            .ok (Char.ofNat (0x10000 + (high - 0xD800) * 0x400 + (low - 0xDC00)), s)
          else failHere .loneSurrogate s
  else .ok (Char.ofNat high, s)

theorem length_le_of_afterUnit {high : Nat} {s rest : List Char} {c : Char}
    (h : afterUnit high s = .ok (c, rest)) : rest.length ≤ s.length := by
  unfold afterUnit at h
  split at h
  · contradiction
  · split at h
    · split at h
      · contradiction
      · next s₁ h₁ =>
        split at h
        · contradiction
        · next s₂ h₂ =>
          split at h
          · contradiction
          · next low s₃ h₃ =>
            split at h
            · simp only [Except.ok.injEq, Prod.mk.injEq] at h
              have := length_lt_of_surrogateMark h₁
              have := length_lt_of_surrogateMark h₂
              have := length_lt_of_fourHex h₃
              rw [← h.2]; omega
            · contradiction
    · simp only [Except.ok.injEq, Prod.mk.injEq] at h
      exact Nat.le_of_eq (congrArg List.length h.2.symm)

/-- What follows a backslash. -/
def escaped : Reader Char
  | [] => failHere .endInString []
  | '"' :: s => .ok ('"', s)
  | '\\' :: s => .ok ('\\', s)
  | '/' :: s => .ok ('/', s)
  | 'b' :: s => .ok ('\x08', s)
  | 'f' :: s => .ok ('\x0c', s)
  | 'n' :: s => .ok ('\n', s)
  | 'r' :: s => .ok ('\r', s)
  | 't' :: s => .ok ('\t', s)
  | 'u' :: s =>
    match fourHex s with
    | .error failure => .error failure
    | .ok (high, s) => afterUnit high s
  | c :: s => failNext .badEscape (c :: s)

theorem length_lt_of_escaped {s rest : List Char} {c : Char}
    (h : escaped s = .ok (c, rest)) : rest.length < s.length := by
  unfold escaped at h
  split at h
  case h_10 s =>
    split at h
    · contradiction
    · next high s₁ h₁ =>
      have := length_lt_of_fourHex h₁
      have := length_le_of_afterUnit h
      simp only [List.length_cons]; omega
  all_goals first
    | contradiction
    | (simp only [Except.ok.injEq, Prod.mk.injEq] at h; rw [← h.2]; exact Nat.lt_succ_self _)

/-- A string after its opening quote. -/
def stringTail (s : List Char) : Except JsonFailure (List Char × List Char) :=
  match s with
  | [] => failHere .endInString []
  | '"' :: rest => .ok ([], rest)
  | '\\' :: rest =>
    match _h : escaped rest with
    | .error failure => .error failure
    | .ok (c, rest') => (stringTail rest').map fun (cs, rest'') => (c :: cs, rest'')
  | c :: rest =>
    if c.toNat < 0x20 then failHere .controlInString rest
    else (stringTail rest).map fun (cs, rest') => (c :: cs, rest')
termination_by s.length
decreasing_by
  · exact Nat.lt_succ_of_lt (length_lt_of_escaped _h)
  · exact Nat.lt_succ_self _

/-! ## Values -/

/-- Put a field among fields in the order of their names, in place of one with its name. -/
def insertField {α : Type} (name : String) (value : α) :
    List (String × α) → List (String × α)
  | [] => [(name, value)]
  | (other, old) :: fields =>
    if name = other then (name, value) :: fields
    else if name < other then (name, value) :: (other, old) :: fields
    else (other, old) :: insertField name value fields

section Nested

variable (inner : Reader Json)

/-- The items of a list from the next one on, up to the closing bracket.  There may be no more of
them than a limit. -/
def items (limit : Nat) (s : List Char) : Except JsonFailure (List Json × List Char) := do
  let (item, rest) ← inner s
  match dropSpace rest with
  | ']' :: rest' => return ([item], rest')
  | ',' :: rest' =>
    match dropSpace rest' with
    | [] => failNext .endInValue []
    | ']' :: rest'' => failNext .trailingComma (']' :: rest'')
    | next =>
      match limit with
      | 0 => failHere .listEndExpected next
      | limit + 1 => do
        let (others, rest'') ← items limit next
        return (item :: others, rest'')
  | [] => failNext .endInList []
  | other => failNext .listEndExpected other

/-- The fields of an object from the next name on, whose opening quote is read, up to the closing
bracket.  There may be no more of them than a limit. -/
def fields (limit : Nat) (known : List (String × Json)) (s : List Char) :
    Except JsonFailure (List (String × Json) × List Char) := do
  let (name, rest) ← stringTail s
  match dropSpace rest with
  | ':' :: rest' =>
    let (value, rest'') ← inner rest'
    let known' := insertField (String.ofList name) value known
    match dropSpace rest'' with
    | '}' :: rest => return (known', rest)
    | ',' :: rest =>
      match dropSpace rest with
      | [] => failNext .endInValue []
      | '"' :: next =>
        match limit with
        | 0 => failHere .objectEndExpected next
        | limit + 1 => fields limit known' next
      | '}' :: next => failNext .trailingComma ('}' :: next)
      | next => failNext .keyNotString next
    | [] => failNext .endInObject []
    | other => failNext .objectEndExpected other
  | [] => failNext .endInObject []
  | other => failNext .colonExpected other

end Nested

/-- A value, where `inner` reads what stands in brackets if more of them may be nested.  No
brackets may hold more than a limit of items. -/
def value (limit : Nat) (inner : Option (Reader Json)) : Reader Json := fun s =>
  match dropSpace s with
  | [] => failNext .endInValue []
  | 'n' :: rest => (word ['u', 'l', 'l'] rest).map (.null, ·)
  | 't' :: rest => (word ['r', 'u', 'e'] rest).map (.boolean true, ·)
  | 'f' :: rest => (word ['a', 'l', 's', 'e'] rest).map (.boolean false, ·)
  | '-' :: rest => number true rest
  | '"' :: rest => (stringTail rest).map fun (cs, rest') => (.string (String.ofList cs), rest')
  | '[' :: rest =>
    match inner with
    | none => failNext .tooDeep ('[' :: rest)
    | some inner =>
      match dropSpace rest with
      | [] => failNext .endInList []
      | ']' :: rest' => .ok (.array [], rest')
      | next => (items inner limit next).map fun (values, rest') => (.array values, rest')
  | '{' :: rest =>
    match inner with
    | none => failNext .tooDeep ('{' :: rest)
    | some inner =>
      match dropSpace rest with
      | [] => failNext .endInObject []
      | '}' :: rest' => .ok (.object [], rest')
      | '"' :: next =>
        (fields inner limit [] next).map fun (known, rest') => (.object known, rest')
      | next => failNext .keyNotString next
  | c :: rest => if c.isDigit then number false (c :: rest) else failNext .valueExpected (c :: rest)

/-- A value in which brackets are nested at most `depth` levels deep. -/
def valueAt (limit : Nat) : Nat → Reader Json
  | 0 => value limit none
  | depth + 1 => value limit (some (valueAt limit depth))

/-- The line and the column that lie a number of bytes into a text which starts at a line and a
column.  Lines count from one; the column is the number of bytes before it in its line. -/
def placeAfter (bytes line column : Nat) : List Char → Nat × Nat
  | [] => (line, column)
  | c :: s =>
    if bytes < c.utf8Size then (line, column + bytes)
    else if c = '\n' then placeAfter (bytes - 1) (line + 1) 0 s
    else placeAfter (bytes - c.utf8Size) line (column + c.utf8Size) s

/-- The words for a failure in a text. -/
def failureMessage (source : List Char) (failure : JsonFailure) : String :=
  let before := source.take (source.length - failure.rest.length)
  let (line, column) := placeAfter (byteCount before + failure.ahead) 1 0 source
  s!"{failure.problem.message} at line {line} column {column}"

/-- Read a JSON text up to its end.  No brackets hold more items than the text has characters. -/
def document (s : List Char) : Except JsonFailure Json := do
  let (value, rest) ← valueAt s.length 127 s
  match dropSpace rest with
  | [] => return value
  | other => failNext .trailingText other

/-- Read a JSON text; a failure comes with its words. -/
def parse (source : String) : Except String Json :=
  (document source.toList).mapError (failureMessage source.toList)

end Json

end Restyle
