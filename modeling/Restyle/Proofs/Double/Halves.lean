import Mathlib
import Restyle.Proofs.Double.Rounding

/-!
# Restyle.Proofs.Double.Halves

One half added to a number.

The exact sum has the whole part of the nearest integer, and rounding the sum can bring it to the next
whole number.  Below `2⁵²` a number of 53 bits lies between the sum and the next whole number
(`Double.roundedNat_div_one`) unless the sum is that of one half and the number next below it.  From
`2⁵²` on the sum is half the way up to a neighbour where these are one apart, and is rounded to the
even one.

* `Double.SlipsUnits` — the numbers from which the rounded sum comes one too far;
* `Double.roundedUnits_large`, `Double.roundedUnits_small` — the whole part of the rounded sum;
* `Double.exists_roundedNat_le` — the sum is finite.
-/

namespace Restyle

namespace Double

-- nothing is to be computed with so large a power
attribute [local irreducible] places one

variable {x y : Double} {n m : ℤ} {q k rank number : ℕ}

/-! ## One half -/

/-- The units in one half. -/
def half : ℕ := 2 ^ (places - 1)

/-- The units between one half and the number below it. -/
def tick : ℕ := 2 ^ (places - 54)

theorem places_eq : places = 1074 := by
  unfold places
  rfl

-- nor with these
attribute [local irreducible] half tick

theorem half_eq_mul_pow {e : ℕ} (h : e + k + 1 = places) : half = 2 ^ e * 2 ^ k := by
  rw [half, ← pow_add]
  congr 1
  omega

theorem one_eq_two_mul_half : one = 2 * half := by
  have := places_eq
  rw [one_eq, half, mul_pow_sub_one (by omega)]

theorem half_eq_tick : half = 2 ^ 53 * tick := by
  have := places_eq
  rw [half, tick, ← pow_add]
  congr 1
  omega

theorem tick_pos : 0 < tick := by
  rw [tick]
  exact Nat.two_pow_pos _

theorem half_pos : 0 < half := by
  have := tick_pos
  have := half_eq_tick
  omega

theorem half_lt_one : half < one := by
  have := half_pos
  have := one_eq_two_mul_half
  omega

/-- Next below one, numbers are two ticks apart. -/
theorem two_mul_tick : 2 * tick = 2 ^ (places - 53) := by
  have := places_eq
  rw [tick, ← pow_succ']
  congr 1
  omega

/-- One half is a number. -/
theorem hasUnits_half : HasUnits (nearest false 1 2) half := by
  have hplaces := places_eq
  have hself : roundedNat half = half := by
    rw [half, ← one_mul (2 ^ (places - 1))]
    exact roundedNat_mul_pow (by norm_num) _
  have hnearest : nearest false 1 2 = nearestUnits false half 1 := by
    rw [nearest, nearestUnits, nearestUnits, one_mul, one_eq_two_mul_half, Nat.mul_comm 2 half]
    rw [← nearestRank_mul_right two_pos half 1, one_mul]
  have hbound : roundedNat half ≤ magnitude largeRank := by
    rw [hself, magnitude_largeRank, one_eq_two_mul_half]
    omega
  have hunits := hasUnits_nearestUnits false ⟨largeRank, largeRank_lt⟩ hbound
  rw [hself] at hunits
  rw [hnearest]
  exact hunits

/-! ## One half added to a large number -/

/-- Neighbours of such a power are one apart, or more. -/
theorem two_mul_half_le_pow (h : places ≤ k) :
    (k = places ∧ 2 * half = 2 ^ k) ∨ (k ≠ places ∧ 2 * half < 2 ^ k) := by
  rw [← one_eq_two_mul_half, one_eq]
  by_cases hk : k = places
  · exact .inl ⟨hk, by rw [hk]⟩
  · exact .inr ⟨hk, Nat.pow_lt_pow_right (by norm_num) (by omega)⟩

/-- Where neighbours are one apart, the sum of an odd number is rounded to the even one above. -/
theorem roundedNat_add_half (hk : places ≤ k) (hq : 2 ^ 52 ≤ q) (hq' : q < 2 ^ 53) :
    roundedNat (q * 2 ^ k + half) =
      (if k = places ∧ q % 2 = 1 then q + 1 else q) * 2 ^ k := by
  have hpos := half_pos
  have hpow := two_mul_half_le_pow hk
  rw [roundedNat_between hq hq' (by omega)]
  congr 1
  split <;> split <;> omega

/-- Half the way down from an odd number is rounded to the even one below. -/
theorem roundedNat_sub_half (hk : places ≤ k) (hq : 2 ^ 52 < q) (hq' : q < 2 ^ 53) :
    roundedNat (q * 2 ^ k - half) =
      (if k = places ∧ q % 2 = 1 then q - 1 else q) * 2 ^ k := by
  have hpos := half_pos
  have hpow := two_mul_half_le_pow hk
  obtain ⟨p, rfl⟩ : ∃ p, q = p + 1 := ⟨q - 1, by omega⟩
  have hsub : (p + 1) * 2 ^ k - half = p * 2 ^ k + (2 ^ k - half) := by
    rw [Nat.succ_mul]
    omega
  rw [hsub, roundedNat_between (by omega) (by omega) (by omega)]
  congr 1
  split <;> split <;> omega

/-- Below a power of two the numbers are closer. -/
theorem roundedNat_pow_sub_half (hk : places ≤ k) :
    roundedNat (2 ^ 52 * 2 ^ k - half) =
      if k = places then 2 ^ 52 * 2 ^ k - half else 2 ^ 52 * 2 ^ k := by
  have hpos := half_pos
  have hplaces := places_eq
  obtain ⟨j, rfl⟩ : ∃ j, k = j + 1 := ⟨k - 1, by omega⟩
  have hpow := two_mul_half_le_pow hk
  have hpow' : j + 1 = places ∨ 2 * half ≤ 2 ^ j := by
    by_cases hj : places ≤ j
    · have := two_mul_half_le_pow hj
      omega
    · omega
  rw [pow_succ 2 j] at hpow ⊢
  have hsub : 2 ^ 52 * (2 ^ j * 2) - half = (2 ^ 53 - 1) * 2 ^ j + (2 ^ j - half) := by omega
  rw [hsub, roundedNat_between (by norm_num) (by norm_num) (by omega)]
  split <;> split <;> omega

/-! ## One half added to a small number -/

/-- The whole part is that of the exact number if a number of 53 bits lies between it and the next
whole number. -/
theorem roundedNat_div_one {whole : ℕ} (hdiv : number / one = whole) (hwhole : whole ≤ 2 ^ 53)
    (hq : q ≤ 2 ^ 53) (hle : number ≤ q * 2 ^ k) (hlt : q * 2 ^ k < (whole + 1) * one) :
    roundedNat number / one = whole := by
  have hlow : whole * one ≤ roundedNat number := by
    have hpart : whole * one ≤ number := hdiv ▸ Nat.div_mul_le_self number one
    rw [one_eq] at hpart ⊢
    exact le_roundedNat hwhole hpart
  exact Nat.div_eq_of_lt_le hlow ((roundedNat_le hq hle).trans_lt hlt)

theorem div_one_eq_zero_of_lt_half (h : number < half) : (number + half) / one = 0 := by
  rw [one_eq_two_mul_half]
  exact Nat.div_eq_of_lt (by omega)

/-- Below one half there is the number one tick less, and the others are two ticks less or more. -/
theorem le_of_lt_half (hq : q < 2 ^ 53) (h : q * 2 ^ k < half) (hslip : q * 2 ^ k ≠ half - tick) :
    q * 2 ^ k ≤ half - 2 * tick := by
  have hhalf := half_eq_tick
  obtain hk | hk := Nat.lt_or_ge k (places - 54)
  · have hpow : 2 * 2 ^ k ≤ tick := by
      rw [tick, ← pow_succ']
      exact Nat.pow_le_pow_right (by norm_num) (by omega)
    have := Nat.mul_le_mul_right (2 ^ k) hq.le
    omega
  · obtain ⟨j, hj⟩ : ∃ j, q * 2 ^ k = j * tick := by
      obtain ⟨d, rfl⟩ := Nat.exists_eq_add_of_le hk
      exact ⟨q * 2 ^ d, by rw [tick, pow_add]; ring⟩
    rw [hj] at h hslip ⊢
    have hlt : j < 2 ^ 53 := Nat.lt_of_mul_lt_mul_right (h.trans_eq hhalf)
    have hne : j ≠ 2 ^ 53 - 1 := by
      rintro rfl
      omega
    have := Nat.mul_le_mul_right tick (show j ≤ 2 ^ 53 - 2 by omega)
    omega

/-- Only the number next below one half is rounded up to one. -/
theorem roundedNat_add_half_of_lt_half (hq : q < 2 ^ 53) (h : q * 2 ^ k < half)
    (hslip : q * 2 ^ k ≠ half - tick) :
    roundedNat (q * 2 ^ k + half) / one = (q * 2 ^ k + half) / one := by
  have hzero : (q * 2 ^ k + half) / one = 0 := div_one_eq_zero_of_lt_half h
  have hgap : q * 2 ^ k + half ≤ (2 ^ 53 - 1) * 2 ^ (places - 53) := by
    have hbelow := le_of_lt_half hq h hslip
    have hhalf := half_eq_tick
    have htick := two_mul_tick
    omega
  have hlt : (2 ^ 53 - 1) * 2 ^ (places - 53) < (0 + 1) * one := by
    have hhalf := half_eq_tick
    have hone := one_eq_two_mul_half
    have htick := two_mul_tick
    have hpos := tick_pos
    omega
  rw [hzero]
  exact roundedNat_div_one hzero (by norm_num) (by norm_num) hgap hlt

/-- A whole number below a number of 53 bits is followed by another that is not beyond 53 bits. -/
theorem succ_mul_one_le {whole : ℕ} (hq : q < 2 ^ 53) (hwhole : 0 < whole)
    (h : whole * one < q * 2 ^ k) : (whole + 1) * one ≤ 2 ^ 53 * 2 ^ k := by
  have hlt : whole * one < 2 ^ 53 * 2 ^ k := h.trans_le (Nat.mul_le_mul_right _ hq.le)
  have hpower : 2 ^ places < 2 ^ (53 + k) := by
    rw [pow_add, ← one_eq]
    exact (Nat.le_mul_of_pos_left one hwhole).trans_lt hlt
  rw [Nat.pow_lt_pow_iff_right (by norm_num)] at hpower
  obtain ⟨d, hd⟩ := Nat.exists_eq_add_of_lt hpower
  have hmul : 2 ^ 53 * 2 ^ k = 2 ^ (d + 1) * one := by
    rw [one_eq, ← pow_add, ← pow_add]
    congr 1
    omega
  rw [hmul] at hlt ⊢
  exact Nat.mul_le_mul_right _ (Nat.lt_of_mul_lt_mul_right hlt)

/-- What is not beyond the middle of two whole numbers is not rounded to the upper one. -/
theorem roundedNat_div_one_of_le_middle {whole : ℕ} (hdiv : number / one = whole)
    (hwhole : whole < 2 ^ 52) (h : number ≤ whole * one + half) :
    roundedNat number / one = whole := by
  have hpos := half_pos
  have hone := one_eq_two_mul_half
  have hmiddle : whole * one + half = (2 * whole + 1) * 2 ^ (places - 1) := by
    rw [hone, half]
    ring
  have hlt : whole * one + half < (whole + 1) * one := by
    rw [Nat.succ_mul]
    omega
  rw [hmiddle] at h hlt
  exact roundedNat_div_one hdiv (by omega) (by omega) h hlt

/-- From one half on, nothing below a whole number is rounded up to it. -/
theorem roundedNat_add_half_of_half_le (hq : q < 2 ^ 53) (hk : k < places) (h : half ≤ q * 2 ^ k) :
    roundedNat (q * 2 ^ k + half) / one = (q * 2 ^ k + half) / one := by
  have hone := one_eq_two_mul_half
  have hpos := half_pos
  obtain ⟨e, he⟩ : ∃ e, e + k + 1 = places := ⟨places - k - 1, by omega⟩
  have hhalf := half_eq_mul_pow he
  have hsum : q * 2 ^ k + half = (q + 2 ^ e) * 2 ^ k := by
    rw [hhalf, add_mul]
  by_cases hexact : q + 2 ^ e ≤ 2 ^ 53
  · rw [hsum, roundedNat_mul_pow hexact]
  generalize hwhole : (q * 2 ^ k + half) / one = whole
  have hbelow : q * 2 ^ k ≤ whole * one := by
    -- otherwise even the next whole number had no more than 53 bits of this power
    by_contra hbeyond
    have hwhole' : 0 < whole := by
      rw [← hwhole]
      exact Nat.div_pos (by omega) one_pos
    have hnext := succ_mul_one_le hq hwhole' (Nat.lt_of_not_le hbeyond)
    have hlt : q * 2 ^ k + half < (whole + 1) * one :=
      (Nat.div_lt_iff_lt_mul one_pos).1 (hwhole ▸ Nat.lt_succ_self _)
    rw [hsum] at hlt
    have := Nat.lt_of_mul_lt_mul_right (hlt.trans_le hnext)
    omega
  have hsmall : whole < 2 ^ 52 := by
    have hstep : 2 * 2 ^ k ≤ half := by
      rw [hhalf]
      exact Nat.mul_le_mul_right _ (by omega)
    have hle := Nat.mul_le_mul_right (2 ^ k) hq.le
    rw [← hwhole, Nat.div_lt_iff_lt_mul one_pos]
    omega
  exact roundedNat_div_one_of_le_middle hwhole hsmall (by omega)

/-- The sum of one half and the number next below it is half the way between one and the number next
below that, and is rounded to one. -/
theorem roundedNat_slip : roundedNat (half - tick + half) = one := by
  have hhalf := half_eq_tick
  have hone := one_eq_two_mul_half
  have hpos := tick_pos
  have htick := two_mul_tick
  have hsum : half - tick + half = (2 ^ 53 - 1) * 2 ^ (places - 53) + tick := by omega
  rw [hsum, roundedNat_between (by norm_num) (by norm_num) (by omega)]
  split <;> omega

/-! ## The rounded sum -/

theorem one_cast_ne_zero : (one : ℤ) ≠ 0 := by
  exact_mod_cast one_pos.ne'

theorem add_div_one (c : ℤ) {rest : ℕ} (h : rest < one) : (c * one + rest) / one = c := by
  rw [Int.add_comm, Int.add_mul_ediv_right _ _ one_cast_ne_zero, ← Int.natCast_ediv, Nat.div_eq_of_lt h]
  simp

theorem mul_div_one (c : ℤ) : c * one / one = c := by
  simpa using add_div_one c one_pos

theorem mul_pow_places_add (q d : ℕ) : q * 2 ^ (places + d) = q * 2 ^ d * one := by
  rw [one_eq, pow_add, mul_comm (2 ^ places), ← mul_assoc]

theorem signed_mul_one (negative : Bool) (whole : ℕ) :
    signed negative (whole * one) = signed negative whole * one := by
  cases negative with
  | false => rw [signed_false, signed_false, Nat.cast_mul]
  | true => rw [signed_true, signed_true, Nat.cast_mul, neg_mul]

theorem abs_signed (negative : Bool) (number : ℕ) : |signed negative number| = number := by
  cases negative <;> simp

theorem odd_signed (negative : Bool) (number : ℕ) :
    Odd (signed negative number) ↔ number % 2 = 1 := by
  cases negative <;> simp [Nat.odd_iff]

theorem signed_add_half (number : ℕ) : signed false number + half = (number + half : ℕ) := by
  simp

theorem neg_add_half_of_le (h : half ≤ number) :
    signed true number + half = -(number - half : ℕ) := by
  rw [signed_true]
  omega

theorem neg_add_half_of_ge (h : number ≤ half) :
    signed true number + half = (half - number : ℕ) := by
  rw [signed_true]
  omega

/-- Among large numbers the odd ones slip, half the way up being rounded to an even one. -/
theorem roundedUnits_large (negative : Bool) (hk : places ≤ k) (hq : 2 ^ 52 ≤ q) (hq' : q < 2 ^ 53) :
    roundedUnits (signed negative (q * 2 ^ k) + half) / one =
      signed negative (q * 2 ^ k) / one + if k = places ∧ q % 2 = 1 then 1 else 0 := by
  cases negative with
  | false =>
      rw [signed_add_half, roundedUnits_natCast, roundedNat_add_half hk hq hq']
      by_cases hslip : k = places ∧ q % 2 = 1
      · obtain ⟨rfl, hodd⟩ := hslip
        simp [hodd, ← one_eq, one_pos.ne']
      · simp [hslip]
  | true =>
      have hle : half ≤ q * 2 ^ k := by
        have := two_mul_half_le_pow hk
        have := Nat.mul_le_mul_right (2 ^ k) hq
        omega
      rw [neg_add_half_of_le hle, roundedUnits_neg_natCast]
      obtain rfl | hq := Nat.eq_or_lt_of_le hq
      · rw [roundedNat_pow_sub_half hk]
        by_cases hslip : k = places
        · subst hslip
          rw [← one_eq] at hle ⊢
          have hsum : -((2 ^ 52 * one - half : ℕ) : ℤ) = (-2 ^ 52) * one + half := by omega
          have hself : signed true (2 ^ 52 * one) = (-2 ^ 52) * one := by
            rw [signed_true]
            omega
          rw [if_pos rfl, hsum, hself, add_div_one _ half_lt_one, mul_div_one]
          simp
        · simp [hslip]
      · rw [roundedNat_sub_half hk hq hq']
        by_cases hslip : k = places ∧ q % 2 = 1
        · have hcast : ((q - 1 : ℕ) : ℤ) = q - 1 := by omega
          have hself : signed true (q * one) = (-q) * one := by
            rw [signed_true, Nat.cast_mul, neg_mul]
          rw [if_pos hslip, if_pos hslip, hslip.1, ← one_eq, hself, Nat.cast_mul, hcast, ← neg_mul,
            mul_div_one, mul_div_one]
          ring
        · simp [hslip]

/-- Among small numbers the one next below one half slips. -/
theorem roundedUnits_small (negative : Bool) (hk : k < places) (hq : q < 2 ^ 53) :
    roundedUnits (signed negative (q * 2 ^ k) + half) / one =
      (signed negative (q * 2 ^ k) + half) / one +
        if signed negative (q * 2 ^ k) = half - tick then 1 else 0 := by
  have hhalf := half_eq_tick
  have hpos := tick_pos
  cases negative with
  | false =>
      have hiff : signed false (q * 2 ^ k) = half - tick ↔ q * 2 ^ k = half - tick := by
        rw [signed_false]
        omega
      rw [signed_add_half, roundedUnits_natCast, ← Int.natCast_ediv, ← Int.natCast_ediv]
      by_cases hslip : q * 2 ^ k = half - tick
      · rw [if_pos (hiff.2 hslip), hslip, roundedNat_slip, Nat.div_self one_pos,
          div_one_eq_zero_of_lt_half (by omega)]
        rfl
      · rw [if_neg (hiff.not.2 hslip), add_zero]
        obtain hlt | hle := Nat.lt_or_ge (q * 2 ^ k) half
        · rw [roundedNat_add_half_of_lt_half hq hlt hslip]
        · rw [roundedNat_add_half_of_half_le hq hk hle]
  | true =>
      have hslip : ¬signed true (q * 2 ^ k) = half - tick := by
        rw [signed_true]
        omega
      rw [if_neg hslip, add_zero]
      obtain hle | hle := Nat.le_total half (q * 2 ^ k)
      · obtain ⟨e, he⟩ : ∃ e, e + k + 1 = places := ⟨places - k - 1, by omega⟩
        have hexact : q * 2 ^ k - half = (q - 2 ^ e) * 2 ^ k := by
          rw [half_eq_mul_pow he, Nat.sub_mul]
        rw [neg_add_half_of_le hle, roundedUnits_neg_natCast, hexact,
          roundedNat_mul_pow ((Nat.sub_le _ _).trans hq.le)]
      · have hzero : (half - q * 2 ^ k) / one = 0 :=
          Nat.div_eq_of_lt ((Nat.sub_le _ _).trans_lt half_lt_one)
        have hrounded : roundedNat (half - q * 2 ^ k) / one = 0 :=
          roundedNat_div_one_of_le_middle hzero (by norm_num) (by omega)
        rw [neg_add_half_of_ge hle, roundedUnits_natCast, ← Int.natCast_ediv, ← Int.natCast_ediv,
          hzero, hrounded]

/-- The numbers from which adding one half comes one too far: the one next below one half, and the
odd ones where neighbours are a whole unit apart. -/
def SlipsUnits (n : ℤ) : Prop :=
  n = half - tick ∨ ∃ c : ℤ, n = c * one ∧ Odd c ∧ 2 ^ 52 < |c| ∧ |c| < 2 ^ 53

theorem slipsUnits_mul_one (c : ℤ) :
    SlipsUnits (c * one) ↔ Odd c ∧ 2 ^ 52 < |c| ∧ |c| < 2 ^ 53 := by
  constructor
  · rintro (htick | ⟨c', hc, h⟩)
    · have hhalf := half_eq_tick
      have hpos := tick_pos
      have hone := half_lt_one
      have hzero : c * one / one = (half - tick : ℤ) / one := by rw [htick]
      rw [mul_div_one, Int.ediv_eq_zero_of_lt (by omega) (by omega)] at hzero
      rw [hzero] at htick
      omega
    · rwa [mul_right_cancel₀ one_cast_ne_zero hc]
  · exact fun h => .inr ⟨c, rfl, h⟩

theorem slipsUnits_large (negative : Bool) (hk : places ≤ k) (hq : 2 ^ 52 ≤ q) (hq' : q < 2 ^ 53) :
    SlipsUnits (signed negative (q * 2 ^ k)) ↔ k = places ∧ q % 2 = 1 := by
  obtain ⟨d, rfl⟩ := Nat.exists_eq_add_of_le hk
  rw [mul_pow_places_add, signed_mul_one, slipsUnits_mul_one, odd_signed, abs_signed]
  cases d with
  | zero =>
      have hcast : ((q * 2 ^ 0 : ℕ) : ℤ) = q := by simp
      rw [hcast, pow_zero, mul_one]
      omega
  | succ d =>
      have heven : q * 2 ^ (d + 1) % 2 = 0 := by
        rw [pow_succ, ← mul_assoc, Nat.mul_mod_left]
      omega

theorem slipsUnits_small (negative : Bool) (hk : k < places) (hq : q < 2 ^ 53) :
    SlipsUnits (signed negative (q * 2 ^ k)) ↔ signed negative (q * 2 ^ k) = half - tick := by
  refine ⟨?_, .inl⟩
  rintro (htick | ⟨c, hc, -, hlarge, -⟩)
  · exact htick
  · have hpow : 2 ^ k ≤ half := by
      rw [half]
      exact Nat.pow_le_pow_right (by norm_num) (by omega)
    have hlt : q * 2 ^ k < 2 ^ 52 * one := by
      have hone := one_eq_two_mul_half
      have hlt := Nat.mul_lt_mul_of_lt_of_le hq hpow half_pos
      omega
    have habs : ((q * 2 ^ k : ℕ) : ℤ) = |c| * one := by
      rw [← abs_signed negative, hc, abs_mul, Nat.abs_cast]
    have : |c| * one < 2 ^ 52 * one := by
      rw [← habs]
      exact_mod_cast hlt
    exact absurd (lt_of_mul_lt_mul_right this (by positivity)) (by omega)

/-- The sum of a finite number and one half is finite. -/
theorem exists_roundedNat_le (negative : Bool) (rank : Fin finiteCount) :
    ∃ bound : Fin finiteCount,
      roundedNat (signed negative (magnitude rank) + half).natAbs ≤ magnitude bound := by
  obtain ⟨q, k, hself, hq, hrange⟩ := exists_significand rank
  have hlarge {number : ℕ} (h : number ≤ 2 ^ 53 * one) :
      ∃ bound : Fin finiteCount, roundedNat number ≤ magnitude bound :=
    ⟨⟨largeRank, largeRank_lt⟩, roundedNat_le_magnitude (h.trans_eq magnitude_largeRank.symm)⟩
  have hhalf := half_lt_one
  rw [hself]
  cases negative with
  | false =>
      rw [signed_add_half, Int.natAbs_natCast]
      obtain hk | hk := Nat.lt_or_ge places k
      · refine ⟨rank, ?_⟩
        rw [roundedNat_add_half hk.le (by omega) hq, if_neg (by omega), hself]
      · have hpow : 2 ^ k ≤ one := by
          rw [one_eq]
          exact Nat.pow_le_pow_right (by norm_num) hk
        have := Nat.mul_le_mul (Nat.le_sub_one_of_lt hq) hpow
        exact hlarge (by omega)
  | true =>
      obtain hle | hle := Nat.le_total half (q * 2 ^ k)
      · rw [neg_add_half_of_le hle, Int.natAbs_neg, Int.natAbs_natCast]
        exact ⟨rank, roundedNat_le_magnitude (by omega)⟩
      · rw [neg_add_half_of_ge hle, Int.natAbs_natCast]
        exact hlarge (by omega)

/-- Where neighbours are a whole unit apart or more there are no fractions to lose. -/
theorem add_half_div_one_large (negative : Bool) (hk : places ≤ k) :
    (signed negative (q * 2 ^ k) + half) / one = signed negative (q * 2 ^ k) / one := by
  obtain ⟨d, rfl⟩ := Nat.exists_eq_add_of_le hk
  rw [mul_pow_places_add, signed_mul_one, add_div_one _ half_lt_one, mul_div_one]

end Double

end Restyle
