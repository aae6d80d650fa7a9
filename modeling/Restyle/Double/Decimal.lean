import Restyle.Double

/-!
# Restyle.Double.Decimal

Numbers in decimal: reading a decimal rounds it to the nearest number, and writing a number uses
the fewest digits that read back as it.

* `Decimal` — digits and a power of ten, with `Decimal.rank` the rank of the nearest number;
* `Decimal.shortest` — the shortest decimal of a rank, the nearer of two of the same length;
* `Decimal.positional` — digits with a point and no exponent.

A candidate is accepted only if it reads back, and the exact decimal expansion stands in if no
candidate were found, so what is written always reads back (`rank_shortest`).
-/

namespace Restyle

/-- The decimal number `digits · 10 ^ exponent`. -/
structure Decimal where
  digits : Nat
  exponent : Int
deriving DecidableEq, Repr

namespace Decimal

/-- A decimal as a fraction of natural numbers. -/
def fraction (d : Decimal) : Nat × Nat :=
  if 0 ≤ d.exponent then (d.digits * Nat.pow 10 d.exponent.toNat, 1)
  else (d.digits, Nat.pow 10 (-d.exponent).toNat)

/-- The number of this sign nearest to a decimal. -/
def toDouble (negative : Bool) (d : Decimal) : Double :=
  Double.nearest negative d.fraction.1 d.fraction.2

/-- The rank nearest to a decimal. -/
def rank (d : Decimal) : Nat :=
  Double.nearestRank (d.fraction.1 * Double.one) d.fraction.2

/-! ## The shortest decimal -/

/-- The power of ten of the first digit of `num / den`. -/
def leadingPlace (num den : Nat) : Int :=
  if den ≤ num then (Nat.toDigits 10 (num / den)).length - 1
  else -((Nat.toDigits 10 (den / num)).length : Int)

/-- The multiple of `10 ^ place` that reads back as a rank, if one of the two next to its value
does.  If both do, the nearer one is taken, and the upper one when they are equally near. -/
def onGrid (rank : Nat) (place : Int) : Option Decimal :=
  let value := Double.magnitude rank
  let num := if 0 ≤ place then value else value * Nat.pow 10 (-place).toNat
  let den := if 0 ≤ place then Double.one * Nat.pow 10 place.toNat else Double.one
  let lower : Decimal := ⟨num / den, place⟩
  let upper : Decimal := ⟨num / den + 1, place⟩
  let lowerHits := lower.rank = rank
  let upperHits := upper.rank = rank
  if lowerHits ∧ (¬ upperHits ∨ 2 * (num % den) < den) then some lower
  else if upperHits then some upper
  else none

/-- The exact decimal expansion of the number with a rank. -/
def exact (rank : Nat) : Decimal := ⟨Double.magnitude rank * Nat.pow 5 1074, -1074⟩

/-- The decimal with the fewest digits that reads back as a rank, the nearest of those.  Seventeen
digits always suffice. -/
def shortest (rank : Nat) : Decimal :=
  let first := leadingPlace (Double.magnitude rank) Double.one
  ((List.range 17).findSome? fun (n : Nat) => onGrid rank (first - n)).getD (exact rank)

/-! ## Writing -/

/-- The decimal digits of a natural number. -/
def digitsOf (n : Nat) : List Char := Nat.toDigits 10 n

/-- A list of digits without the zeros at its end. -/
def dropTrailingZeros (cs : List Char) : List Char :=
  (cs.reverse.dropWhile (· == '0')).reverse

/-- Digits with a point and without an exponent; a whole number has no point. -/
def positional (d : Decimal) : List Char :=
  let (num, den) := d.fraction
  let places := (-d.exponent).toNat
  let part := digitsOf (num % den)
  let fraction := dropTrailingZeros (List.replicate (places - part.length) '0' ++ part)
  digitsOf (num / den) ++ if fraction.isEmpty then [] else '.' :: fraction

/-- The first digit, the other significant digits after a point, and the power of ten. -/
def scientific (d : Decimal) : List Char :=
  let all := digitsOf d.digits
  let power := d.exponent + (all.length - 1 : Int)
  let rest := dropTrailingZeros (all.drop 1)
  all.take 1 ++ (if rest.isEmpty then [] else '.' :: rest) ++ 'e' :: (toString power).toList

end Decimal

/-! ## Texts of numbers -/

/-- How a number is written: the words for the numbers that have no digits, whether a negative
zero shows its sign, whether a whole number ends in `.0`, and the powers of ten of the first digit
that are written without an exponent. -/
structure NumberStyle where
  nan : String
  infinity : String
  signedZero : Bool
  point : Bool
  positional : Int → Bool

/-- Write a number. -/
def NumberStyle.write (style : NumberStyle) (x : Double) : String :=
  match x with
  | .nan => style.nan
  | .infinity negative => if negative then "-" ++ style.infinity else style.infinity
  | .finite negative rank =>
    if rank.val = 0 then
      (if negative && style.signedZero then "-" else "") ++ if style.point then "0.0" else "0"
    else
      let d := Decimal.shortest rank
      let body :=
        if style.positional (Decimal.leadingPlace (Double.magnitude rank) Double.one) then
          let plain := d.positional
          if style.point && !plain.contains '.' then plain ++ ['.', '0'] else plain
        else d.scientific
      String.ofList (if negative then '-' :: body else body)

namespace Double

/-- The text of a number as a string value: no exponent, no sign on zero. -/
def text (x : Double) : String :=
  NumberStyle.write ⟨"NaN", "Infinity", false, false, fun _ => true⟩ x

/-- The text of a number that tells all numbers apart: no exponent, and a sign on zero. -/
def plain (x : Double) : String :=
  NumberStyle.write ⟨"NaN", "inf", true, false, fun _ => true⟩ x

/-- The text of a number in a message about values: a point or an exponent always shows, the
exponent from `10¹⁶` up and below `10⁻⁴`. -/
def detailed (x : Double) : String :=
  NumberStyle.write ⟨"NaN", "inf", true, true, fun power => -4 ≤ power && power < 16⟩ x

end Double

/-! ## Reading -/

/-- Digits of a base, lowest first, as digits of its square. -/
def pairDigits (base : Nat) : List Nat → List Nat
  | low :: high :: digits => (low + base * high) :: pairDigits base digits
  | digits => digits

theorem length_pairDigits_le (base : Nat) (digits : List Nat) :
    (pairDigits base digits).length ≤ digits.length := by
  fun_induction pairDigits base digits with
  | case1 low high digits ih => simp only [List.length_cons]; omega
  | case2 => exact Nat.le_refl _

/-- The number with these digits of a base, lowest first.  Digits are joined in pairs, so that long
numbers are multiplied only by numbers about as long. -/
def ofDigits (base : Nat) (digits : List Nat) : Nat :=
  match digits with
  | [] => 0
  | [digit] => digit
  | low :: high :: digits =>
    ofDigits (base * base) ((low + base * high) :: pairDigits base digits)
termination_by digits.length
decreasing_by
  have := length_pairDigits_le base digits
  simp only [List.length_cons]; omega

/-- The value of a decimal digit. -/
def digitValue (c : Char) : Nat := c.toNat - '0'.toNat

/-- The value of a list of decimal digits. -/
def digitsValue (cs : List Char) : Nat := ofDigits 10 (cs.reverse.map digitValue)

/-- The parts of an unsigned numeral: the digits before the point, and those after it if there is a
point.  A numeral has a digit on at least one side. -/
def numeralParts? (cs : List Char) : Option (List Char × List Char) :=
  let whole := cs.takeWhile Char.isDigit
  match cs.dropWhile Char.isDigit with
  | [] => if whole.isEmpty then none else some (whole, [])
  | '.' :: fraction =>
    if fraction.all Char.isDigit && !(whole.isEmpty && fraction.isEmpty) then
      some (whole, fraction)
    else none
  | _ :: _ => none

/-- The number nearest to the numeral with these digits before and after the point. -/
def numeralValue (negative : Bool) (whole fraction : List Char) : Double :=
  Decimal.toDouble negative ⟨digitsValue (whole ++ fraction), -(fraction.length : Int)⟩

end Restyle
