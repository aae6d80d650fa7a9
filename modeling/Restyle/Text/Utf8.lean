/-!
# Restyle.Text.Utf8

Reading UTF-8.  The first byte of a sequence fixes the ranges in which the bytes after it must
lie; those ranges leave out overlong forms, surrogates and code points above 10FFFF.  A failure
says where the readable part ends, and how many bytes there start a sequence that can no longer be
completed.
-/

namespace Restyle.Text

/-- Why bytes are not UTF-8.  `index` is the length of the part that can be read. -/
inductive Utf8Error where
  /-- The first `length` bytes at `index` start no sequence. -/
  | invalid (length index : Nat)
  /-- The input ends inside a sequence. -/
  | incomplete (index : Nat)
deriving DecidableEq, Repr

/-- The words for a failure. -/
def Utf8Error.message : Utf8Error → String
  | .invalid length index => s!"invalid utf-8 sequence of {length} bytes from index {index}"
  | .incomplete index => s!"incomplete utf-8 byte sequence from index {index}"

/-- The ranges for the bytes that follow a first byte, or `none` if it starts no sequence. -/
def followers (first : Nat) : Option (List (Nat × Nat)) :=
  if first < 0x80 then some []
  else if first < 0xC2 then none
  else if first < 0xE0 then some [(0x80, 0xBF)]
  else if first < 0xE1 then some [(0xA0, 0xBF), (0x80, 0xBF)]
  else if first < 0xED then some [(0x80, 0xBF), (0x80, 0xBF)]
  else if first < 0xEE then some [(0x80, 0x9F), (0x80, 0xBF)]
  else if first < 0xF0 then some [(0x80, 0xBF), (0x80, 0xBF)]
  else if first < 0xF1 then some [(0x90, 0xBF), (0x80, 0xBF), (0x80, 0xBF)]
  else if first < 0xF4 then some [(0x80, 0xBF), (0x80, 0xBF), (0x80, 0xBF)]
  else if first < 0xF5 then some [(0x80, 0x8F), (0x80, 0xBF), (0x80, 0xBF)]
  else none

/-- How the bytes after a first byte meet its ranges. -/
inductive Follow where
  /-- Each range has its byte. -/
  | complete
  /-- The input ends first. -/
  | short
  /-- `count` bytes fit and the next one does not. -/
  | broken (count : Nat)

/-- Compare bytes with ranges, after `count` that fit. -/
def follow (count : Nat) : List (Nat × Nat) → List UInt8 → Follow
  | [], _ => .complete
  | _ :: _, [] => .short
  | (low, high) :: ranges, b :: bytes =>
    if low ≤ b.toNat && b.toNat ≤ high then follow (count + 1) ranges bytes else .broken count

/-- The code point of a sequence of `1 + rest.length` bytes. -/
def codePoint (first : UInt8) (rest : List UInt8) : Nat :=
  let lead := match rest.length with
    | 0 => first.toNat
    | n + 1 => first.toNat % Nat.pow 2 (5 - n)
  rest.foldl (fun code b => code * 64 + b.toNat % 64) lead

/-- Decode bytes that start at `index`. -/
def decodeFrom (index : Nat) : List UInt8 → Except Utf8Error (List Char)
  | [] => .ok []
  | first :: bytes =>
    match followers first.toNat with
    | none => .error (.invalid 1 index)
    | some ranges =>
      match follow 1 ranges bytes with
      | .short => .error (.incomplete index)
      | .broken count => .error (.invalid count index)
      | .complete => do
        let c := Char.ofNat (codePoint first (bytes.take ranges.length))
        let cs ← decodeFrom (index + 1 + ranges.length) (bytes.drop ranges.length)
        return c :: cs
termination_by bytes => bytes.length
decreasing_by simp only [List.length_drop, List.length_cons]; omega

/-- Decode UTF-8. -/
def decodeUtf8 (bytes : List UInt8) : Except Utf8Error String :=
  (decodeFrom 0 bytes).map String.ofList

end Restyle.Text
