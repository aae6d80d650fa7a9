/-!
# Restyle.Double

Double-precision numbers (IEEE 754 binary64), held exactly.

A finite number is its sign and its *rank*: the non-negative finite numbers are numbered from zero
in ascending order, so neighbours have neighbouring ranks and numbers compare as their ranks do.
In binary, the rank is the sign-free bit pattern: the lower 52 bits are the fraction and the upper
11 the exponent field.

* `Double.units` — the value as an integer multiple of `2⁻¹⁰⁷⁴`, the smallest positive number;
* `Double.nearest` — the number nearest to a rational, ties to the even rank; every operation that
  rounds is the exact operation followed by it;
* `Double.lt`, `Double.le`, `Double.eq` — comparison, under which NaN is unlike everything and the
  two zeros are one;
* `Double.totalKey` — a total order that tells the zeros apart and puts NaN last.
-/

namespace Restyle

/-- How many finite numbers have a given sign. -/
abbrev Double.finiteCount : Nat := 2047 * Nat.pow 2 52

/-- A double-precision number. -/
inductive Double where
  /-- Not a number. -/
  | nan
  /-- An infinity of either sign. -/
  | infinity (negative : Bool)
  /-- The finite number with this sign whose magnitude has this rank. -/
  | finite (negative : Bool) (rank : Fin Double.finiteCount)
deriving DecidableEq

namespace Double

/-- The zero of a sign. -/
def zero (negative : Bool) : Double := .finite negative ⟨0, by decide⟩

instance : Inhabited Double := ⟨zero false⟩

/-! ## Magnitudes -/

/-- The magnitude of a rank, as a multiple of `2⁻¹⁰⁷⁴`.  Ranks below `2⁵³` are one unit apart, and
the distance doubles every `2⁵²` ranks from there on. -/
def magnitude (rank : Nat) : Nat :=
  if rank < Nat.pow 2 52 then rank
  else (Nat.pow 2 52 + rank % Nat.pow 2 52) <<< (rank / Nat.pow 2 52 - 1)

/-- An integer with a sign put to it. -/
def signed (negative : Bool) (n : Nat) : Int := if negative then -(n : Int) else n

/-- The value of a finite number as a multiple of `2⁻¹⁰⁷⁴`; the others count as zero. -/
def units : Double → Int
  | .finite negative rank => signed negative (magnitude rank)
  | _ => 0

/-- How many binary places the smallest positive number has. -/
def places : Nat := 1074

/-- The units in the number one. -/
def one : Nat := Nat.pow 2 places

/-! ## Rounding -/

/-- The integer nearest to `num / den`, the even one of two. -/
def divideToEven (num den : Nat) : Nat :=
  let quotient := num / den
  let rest := num % den
  if den < 2 * rest ∨ (2 * rest = den ∧ quotient % 2 = 1) then quotient + 1 else quotient

/-- The rank nearest to `num / den` units.  The quotient is cut to 53 significant bits by dropping
`shift` of them, and a carry out of the top bit moves on to the next power of two by itself. -/
def nearestRank (num den : Nat) : Nat :=
  let shift := (num / den).log2 - 52
  shift * Nat.pow 2 52 + divideToEven num (den <<< shift)

/-- The number of a sign and a rank, an infinity beyond the largest. -/
def ofRank (negative : Bool) (rank : Nat) : Double :=
  if h : rank < finiteCount then .finite negative ⟨rank, h⟩ else .infinity negative

/-- The number of this sign nearest to `num / den` units, an infinity beyond the largest. -/
def nearestUnits (negative : Bool) (num den : Nat) : Double :=
  ofRank negative (nearestRank num den)

/-- The number of this sign nearest to the rational `num / den`. -/
def nearest (negative : Bool) (num den : Nat) : Double :=
  nearestUnits negative (num * one) den

/-- The number nearest to a natural number.  Up to 53 bits the natural number is a number itself,
and its rank has those bits moved up. -/
def ofNat (n : Nat) : Double :=
  if n = 0 ∨ 52 < n.log2 then nearest false n 1
  else ofRank false ((1022 + n.log2) * Nat.pow 2 52 + n * (Nat.pow 2 52 >>> n.log2))

theorem log2_mul_pow {n : Nat} (h : n ≠ 0) (k : Nat) :
    (n * Nat.pow 2 k).log2 = n.log2 + k := by
  have h₁ := Nat.log2_self_le h
  have h₂ := Nat.lt_log2_self (n := n)
  have hk := Nat.two_pow_pos k
  rw [Nat.pow_eq, Nat.log2_eq_iff (Nat.mul_ne_zero h (Nat.ne_of_gt hk))]
  constructor
  · rw [Nat.pow_add]; exact Nat.mul_le_mul_right _ h₁
  · rw [Nat.add_right_comm, Nat.pow_add]; exact Nat.mul_lt_mul_of_pos_right h₂ hk

theorem divideToEven_mul {den : Nat} (h : 0 < den) (q : Nat) :
    divideToEven (q * den) den = q := by
  simp [divideToEven, Nat.mul_div_cancel _ h, Nat.ne_of_lt h]

/-- What has at most 53 significant bits is not rounded. -/
theorem nearestRank_mul_pow {n k : Nat} (h : n ≠ 0) (hn : n.log2 ≤ 52) (hk : 52 ≤ k) :
    nearestRank (n * Nat.pow 2 k) 1 =
      (k - 52 + n.log2) * Nat.pow 2 52 + n <<< (52 - n.log2) := by
  have hlog : (n * Nat.pow 2 k / 1).log2 - 52 = k - 52 + n.log2 := by
    rw [Nat.div_one, log2_mul_pow h]; omega
  have hshift :
      n * Nat.pow 2 k = (n <<< (52 - n.log2)) * (1 <<< (k - 52 + n.log2)) := by
    rw [Nat.shiftLeft_eq, Nat.shiftLeft_eq, Nat.one_mul, Nat.mul_assoc, Nat.pow_eq,
      ← Nat.pow_add, show 52 - n.log2 + (k - 52 + n.log2) = k by omega]
  rw [nearestRank, hlog, hshift, divideToEven_mul]
  rw [Nat.shiftLeft_eq, Nat.one_mul]
  exact Nat.two_pow_pos _

/-- A natural number is rounded as any other rational is. -/
theorem ofNat_eq_nearest (n : Nat) : ofNat n = nearest false n 1 := by
  unfold ofNat
  split
  · rfl
  · next h =>
    rw [not_or, Nat.not_lt] at h
    have hrank : nearestRank (n * one) 1 =
        (1022 + n.log2) * Nat.pow 2 52 + n <<< (52 - n.log2) := by
      have hplaces : 52 ≤ places := by decide
      delta one
      generalize hk : places = k at hplaces ⊢
      rw [nearestRank_mul_pow h.1 h.2 hplaces, ← hk]
      rfl
    have hshift : Nat.pow 2 52 >>> n.log2 = Nat.pow 2 (52 - n.log2) := by
      rw [Nat.shiftRight_eq_div_pow, Nat.pow_eq, Nat.pow_eq, Nat.pow_div h.2 (by decide)]
    rw [nearest, nearestUnits, hrank, hshift, Nat.shiftLeft_eq]
    rfl

/-- The number nearest to an integer. -/
def ofInt (n : Int) : Double := nearest (n < 0) n.natAbs 1

/-! ## Arithmetic -/

/-- The number with the other sign. -/
def neg : Double → Double
  | .nan => .nan
  | .infinity negative => .infinity (!negative)
  | .finite negative rank => .finite (!negative) rank

/-- The rounded sum.  A sum of exactly zero is negative only if both terms are. -/
def add : Double → Double → Double
  | .nan, _ => .nan
  | _, .nan => .nan
  | .infinity a, .infinity b => if a = b then .infinity a else .nan
  | .infinity a, .finite .. => .infinity a
  | .finite .., .infinity b => .infinity b
  | .finite a r, .finite b s =>
    let sum := signed a (magnitude r) + signed b (magnitude s)
    if sum = 0 then zero (a && b) else nearestUnits (sum < 0) sum.natAbs 1

/-- The rounded difference. -/
def sub (x y : Double) : Double := add x (neg y)

/-- The rounded product. -/
def mul : Double → Double → Double
  | .nan, _ => .nan
  | _, .nan => .nan
  | .infinity a, .infinity b => .infinity (a != b)
  | .infinity a, .finite b s => if s.val = 0 then .nan else .infinity (a != b)
  | .finite a r, .infinity b => if r.val = 0 then .nan else .infinity (a != b)
  | .finite a r, .finite b s => nearestUnits (a != b) (magnitude r * magnitude s) one

/-- The rounded quotient. -/
def div : Double → Double → Double
  | .nan, _ => .nan
  | _, .nan => .nan
  | .infinity _, .infinity _ => .nan
  | .infinity a, .finite b _ => .infinity (a != b)
  | .finite a _, .infinity b => zero (a != b)
  | .finite a r, .finite b s =>
    if s.val = 0 then if r.val = 0 then .nan else .infinity (a != b)
    else nearestUnits (a != b) (magnitude r * one) (magnitude s)

/-- What is left of the first number after taking away the second as often as it fits toward zero.
The result is exact and has the sign of the first. -/
def rem : Double → Double → Double
  | .nan, _ => .nan
  | _, .nan => .nan
  | .infinity _, _ => .nan
  | .finite a r, .infinity _ => .finite a r
  | .finite a r, .finite _ s =>
    if s.val = 0 then .nan else nearestUnits a (magnitude r % magnitude s) 1

/-- The largest integer that is not above a number. -/
def floor : Double → Double
  | .finite negative rank =>
    let m := magnitude rank
    nearest negative (if negative && m % one != 0 then m / one + 1 else m / one) 1
  | x => x

/-- The smallest integer that is not below a number. -/
def ceil (x : Double) : Double := neg (floor (neg x))

/-- The smallest natural number that is not below a number, if there is one. -/
def leastNat? : Double → Option Nat
  | .nan => none
  | .infinity negative => if negative then some 0 else none
  | .finite negative rank =>
    if negative then some 0
    else
      let m := magnitude rank
      some (if m % one = 0 then m / one else m / one + 1)

/-! ## Comparison -/

/-- The sign and the rank of a number; infinities come after the largest rank. -/
@[inline] def signedRank? : Double → Option (Bool × Nat)
  | .nan => none
  | .infinity negative => some (negative, finiteCount)
  | .finite negative rank => some (negative, rank)

/-- How two numbers compare that are given by their signs and ranks; the two zeros are equal. -/
def compareSigned (a : Bool) (r : Nat) (b : Bool) (s : Nat) : Ordering :=
  match a, b with
  | false, false => compare r s
  | true, true => compare s r
  | true, false => if r = 0 ∧ s = 0 then .eq else .lt
  | false, true => if r = 0 ∧ s = 0 then .eq else .gt

/-- How two numbers compare; NaN compares with nothing. -/
def compare? (x y : Double) : Option Ordering :=
  match x.signedRank?, y.signedRank? with
  | some (a, r), some (b, s) => some (compareSigned a r b s)
  | _, _ => none

/-- Numeric equality: NaN equals nothing, and the zeros are equal. -/
def eq (x y : Double) : Bool := x.compare? y == some .eq

/-- Numeric "less than". -/
def lt (x y : Double) : Bool := x.compare? y == some .lt

/-- Numeric "less than or equal". -/
def le (x y : Double) : Bool := (x.compare? y).any Ordering.isLE

/-- A strict order of all numbers: the negative zero comes before the positive one, and NaN after
everything. -/
def totalKey : Double → Int
  | .nan => finiteCount + 1
  | .infinity false => finiteCount
  | .infinity true => -(finiteCount : Int) - 1
  | .finite false rank => rank
  | .finite true rank => -(rank : Int) - 1

/-- Whether a number is not a number. -/
def isNaN : Double → Bool
  | .nan => true
  | _ => false

theorem isNaN_iff {x : Double} : x.isNaN = true ↔ x = .nan := by
  cases x <;> simp [isNaN]

theorem compareSigned_swap (a : Bool) (r : Nat) (b : Bool) (s : Nat) :
    (compareSigned a r b s).swap = compareSigned b s a r := by
  cases a <;> cases b <;> simp only [compareSigned, Nat.compare_swap] <;>
    simp only [and_comm (a := r = 0)] <;> split <;> rfl

/-- Comparison is turned round when the sides are swapped. -/
theorem compare?_swap (x y : Double) : (x.compare? y).map Ordering.swap = y.compare? x := by
  cases x <;> cases y <;> simp [compare?, signedRank?, compareSigned_swap]

/-- The total order tells all numbers apart. -/
theorem totalKey_injective {x y : Double} (h : x.totalKey = y.totalKey) : x = y := by
  cases x with
  | nan =>
    cases y with
    | nan => rfl
    | infinity b => cases b <;> simp only [totalKey] at h <;> omega
    | finite b s => have := s.isLt; cases b <;> simp only [totalKey] at h <;> omega
  | infinity a =>
    cases y with
    | nan => cases a <;> simp only [totalKey] at h <;> omega
    | infinity b => cases a <;> cases b <;> first | rfl | (simp only [totalKey] at h; omega)
    | finite b s =>
      have := s.isLt; cases a <;> cases b <;> simp only [totalKey] at h <;> omega
  | finite a r =>
    have := r.isLt
    cases y with
    | nan => cases a <;> simp only [totalKey] at h <;> omega
    | infinity b => cases a <;> cases b <;> simp only [totalKey] at h <;> omega
    | finite b s =>
      have := s.isLt
      cases a <;> cases b <;> simp only [totalKey] at h <;>
        first | omega | (have : r = s := Fin.ext (by omega); rw [this])

/-! ## Bit patterns -/

/-- The number with a bit pattern: sign, 11 bits of exponent, 52 bits of fraction. -/
def ofBits (bits : Nat) : Double :=
  let negative := bits / Nat.pow 2 63 % 2 = 1
  let rank := bits % Nat.pow 2 63
  if h : rank < finiteCount then .finite negative ⟨rank, h⟩
  else if rank = finiteCount then .infinity negative
  else .nan

end Double

end Restyle
