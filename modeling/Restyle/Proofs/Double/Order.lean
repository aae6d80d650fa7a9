import Mathlib
import Restyle.Double

/-!
# Restyle.Proofs.Double.Order

The total order of numbers beside their numeric order.

The total order tells all numbers apart and numeric comparison does not, but only the two zeros make
a difference: among other numbers both orders say the same.

* `Double.totalKey_lt_iff` — less in the total order is less, or a negative zero before a positive
  one;
* `Double.eq_iff` — numerically equal numbers are the same, or they are the two zeros;
* `Double.compare?_eq_level` — numbers compare as integers do, which are put below all for NaN;
* `Double.isNaN_nearest` — a rounded number is a number.
-/

namespace Restyle

namespace Double

variable {x y : Double}

/-- What a number is in both orders: a sign and a rank. -/
structure HasRank (x : Double) (a : Bool) (r : Nat) : Prop where
  signedRank : x.signedRank? = some (a, r)
  totalKey : x.totalKey = if a then -(r : Int) - 1 else r
  /-- Only the zeros have rank zero. -/
  eq_zero_iff (b : Bool) : x = zero b ↔ a = b ∧ r = 0

theorem exists_hasRank (hx : x.isNaN = false) : ∃ a r, x.HasRank a r := by
  cases x with
  | nan => cases hx
  | infinity a =>
      refine ⟨a, finiteCount, rfl, by cases a <;> rfl, fun b => ⟨nofun, fun h => ?_⟩⟩
      exact absurd h.2 (by decide)
  | finite a r =>
      refine ⟨a, r, rfl, by cases a <;> rfl, fun b => ⟨fun h => ?_, ?_⟩⟩
      · obtain ⟨hsign, hrank⟩ := Double.finite.inj h
        exact ⟨hsign, congrArg Fin.val hrank⟩
      · rintro ⟨rfl, hrank⟩
        exact congrArg (Double.finite a) (Fin.ext hrank)

/-- The total order refines the numeric one by telling the zeros apart. -/
theorem totalKey_lt_iff (hx : x.isNaN = false) (hy : y.isNaN = false) :
    x.totalKey < y.totalKey ↔ x.lt y = true ∨ (x = zero true ∧ y = zero false) := by
  obtain ⟨a, r, hxrank, hxkey, hxzero⟩ := exists_hasRank hx
  obtain ⟨b, s, hyrank, hykey, hyzero⟩ := exists_hasRank hy
  rw [hxkey, hykey, hxzero, hyzero, lt, compare?, hxrank, hyrank]
  cases a <;> cases b
  · simp [compareSigned, Nat.compare_eq_lt]
  · have hkey : ¬(r : Int) < -s - 1 := by omega
    by_cases hzero : r = 0 ∧ s = 0 <;> simp [compareSigned, hzero, hkey]
  · have hkey : -(r : Int) - 1 < s := by omega
    by_cases hzero : r = 0 ∧ s = 0 <;> simp [compareSigned, hzero, hkey]
  · have hkey : -(r : Int) - 1 < -s - 1 ↔ s < r := by omega
    simp [compareSigned, Nat.compare_eq_lt, hkey]

/-- Numerically equal numbers are the same but for the sign of zero. -/
theorem eq_iff (hx : x.isNaN = false) (hy : y.isNaN = false) : x.eq y = true ↔
    x = y ∨ (x = zero true ∧ y = zero false) ∨ (x = zero false ∧ y = zero true) := by
  obtain ⟨a, r, hxrank, hxkey, hxzero⟩ := exists_hasRank hx
  obtain ⟨b, s, hyrank, hykey, hyzero⟩ := exists_hasRank hy
  have hsame : x = y ↔ x.totalKey = y.totalKey := ⟨congrArg _, totalKey_injective⟩
  rw [hsame, hxkey, hykey, hxzero, hyzero, hxzero, hyzero, eq, compare?, hxrank, hyrank]
  cases a <;> cases b
  · simp [compareSigned]
  · have hkey : (r : Int) ≠ -s - 1 := by omega
    by_cases hzero : r = 0 ∧ s = 0 <;> simp [compareSigned, hzero, hkey]
  · have hkey : -(r : Int) - 1 ≠ s := by omega
    by_cases hzero : r = 0 ∧ s = 0 <;> simp [compareSigned, hzero, hkey]
  · have hkey : -(r : Int) - 1 = -s - 1 ↔ s = r := by omega
    simp [compareSigned, hkey]

/-! ## The numeric order -/

/-- Where a number stands by size, with NaN below all others. -/
def level : Double → Int
  | .nan => -(finiteCount : Int) - 1
  | .infinity negative => signed negative finiteCount
  | .finite negative rank => signed negative rank

theorem compareSigned_eq (a : Bool) (r : Nat) (b : Bool) (s : Nat) :
    compareSigned a r b s = compare (signed a r) (signed b s) := by
  rw [Int.compare_eq_ite_lt]
  cases a <;> cases b <;> simp [compareSigned, signed, Nat.compare_eq_ite_lt] <;>
    split_ifs <;> first | rfl | omega

/-- Numbers other than NaN compare as their levels do. -/
theorem compare?_eq_level (hx : x.isNaN = false) (hy : y.isNaN = false) :
    x.compare? y = some (compare x.level y.level) := by
  cases x <;> cases y <;> simp_all [isNaN, compare?, signedRank?, level, compareSigned_eq]

theorem level_nan_lt (hx : x.isNaN = false) : nan.level < x.level := by
  cases x with
  | nan => cases hx
  | infinity a => cases a <;> simp only [level, signed] <;> omega
  | finite a r =>
      have hr := r.isLt
      cases a <;> simp only [level, signed] <;> omega

/-- NaN compares with nothing. -/
theorem compare?_of_isNaN (h : x.isNaN = true ∨ y.isNaN = true) : x.compare? y = none := by
  cases x <;> cases y <;> simp_all [isNaN, compare?, signedRank?]

/-! ## Rounding -/

theorem isNaN_nearest (negative : Bool) (num den : Nat) :
    (nearest negative num den).isNaN = false := by
  unfold nearest nearestUnits ofRank
  split <;> rfl

end Double

end Restyle
