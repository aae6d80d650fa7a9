import Mathlib
import Restyle.Proofs.Double.ReadBack

/-!
# Restyle.Proofs.Double.Rounding

What rounding makes of a number of units.

A magnitude is a significand of at most 53 bits times a power of two (`Double.exists_significand`), and
everything of this form is a magnitude (`Double.exists_magnitude_eq`).  A number of units that lies
between two neighbours of one power is rounded to the nearer one, or to the one with the even
significand (`Double.nearestRank_between`).  What has at most 53 bits is therefore never passed by
rounding (`Double.nearestRank_le`, `Double.le_nearestRank`).

* `Double.HasUnits`, `Double.HasValue` — a finite number is so and so many units, and this rational;
* `Double.HasUnits.add` — the sum of two numbers is the rounded sum of their units;
* `Double.HasUnits.floor` — to drop a fraction is exact.
-/

namespace Restyle

namespace Double

/-! ## Magnitudes -/

theorem one_eq : one = 2 ^ places := by
  delta one
  generalize places = exponent
  exact Nat.pow_eq

-- nothing is to be computed with so large a power
attribute [local irreducible] places one

variable {x y : Double} {n m : ℤ} {q k rest rank number : ℕ}

theorem magnitude_of_lt (h : rank < 2 ^ 52) : magnitude rank = rank := by
  rw [magnitude, if_pos (by simpa using h)]

/-- Ranks of one power of two are numbered by their significands. -/
theorem magnitude_add (hq : 2 ^ 52 ≤ q) (hq' : q ≤ 2 ^ 53) (k : ℕ) :
    magnitude (k * 2 ^ 52 + q) = q * 2 ^ k := by
  rw [magnitude, if_neg (by simp only [Nat.pow_eq]; omega), Nat.shiftLeft_eq, Nat.pow_eq]
  obtain hq' | rfl := Nat.lt_or_eq_of_le hq'
  · have hdiv : (k * 2 ^ 52 + q) / 2 ^ 52 - 1 = k := by omega
    have hmod : 2 ^ 52 + (k * 2 ^ 52 + q) % 2 ^ 52 = q := by omega
    rw [hdiv, hmod]
  · have hdiv : (k * 2 ^ 52 + 2 ^ 53) / 2 ^ 52 - 1 = k + 1 := by omega
    have hmod : 2 ^ 52 + (k * 2 ^ 52 + 2 ^ 53) % 2 ^ 52 = 2 ^ 52 := by omega
    rw [hdiv, hmod, pow_succ]
    omega

/-- Every rank from `2⁵²` on has a power of two and a significand. -/
theorem exists_rank_eq (h : 2 ^ 52 ≤ rank) :
    ∃ k q, rank = k * 2 ^ 52 + q ∧ 2 ^ 52 ≤ q ∧ q < 2 ^ 53 :=
  ⟨rank / 2 ^ 52 - 1, 2 ^ 52 + rank % 2 ^ 52, by omega, by omega, by omega⟩

theorem exists_significand (rank : ℕ) :
    ∃ q k, magnitude rank = q * 2 ^ k ∧ q < 2 ^ 53 ∧ (2 ^ 52 ≤ q ∨ k = 0) := by
  obtain h | h := Nat.lt_or_ge rank (2 ^ 52)
  · exact ⟨rank, 0, by rw [magnitude_of_lt h, pow_zero, mul_one], by omega, .inr rfl⟩
  · obtain ⟨k, q, rfl, hq, hq'⟩ := exists_rank_eq h
    exact ⟨q, k, magnitude_add hq hq'.le k, hq', .inl hq⟩

/-- A higher rank has a larger magnitude. -/
theorem magnitude_strictMono : StrictMono magnitude := by
  refine strictMono_nat_of_lt_succ fun rank => ?_
  obtain h | h := Nat.lt_or_ge rank (2 ^ 52)
  · obtain h' | h' := Nat.lt_or_ge (rank + 1) (2 ^ 52)
    · rw [magnitude_of_lt h, magnitude_of_lt h']
      omega
    · have hlast : rank + 1 = 0 * 2 ^ 52 + 2 ^ 52 := by omega
      rw [magnitude_of_lt h, hlast, magnitude_add le_rfl (by norm_num)]
      omega
  · obtain ⟨k, q, rfl, hq, hq'⟩ := exists_rank_eq h
    rw [magnitude_add hq hq'.le, add_assoc, magnitude_add (by omega) (by omega)]
    exact Nat.mul_lt_mul_of_pos_right (Nat.lt_succ_self q) (Nat.two_pow_pos k)

/-- What has at most 53 significant bits is the magnitude of a rank. -/
theorem exists_magnitude_eq (hq : q ≤ 2 ^ 53) (k : ℕ) : ∃ rank, magnitude rank = q * 2 ^ k := by
  induction k generalizing q with
  | zero =>
      obtain h | h := Nat.lt_or_ge q (2 ^ 52)
      · exact ⟨q, by rw [magnitude_of_lt h, pow_zero, mul_one]⟩
      · exact ⟨0 * 2 ^ 52 + q, magnitude_add h hq 0⟩
  | succ k ih =>
      obtain h | h := Nat.lt_or_ge q (2 ^ 52)
      · obtain ⟨rank, hrank⟩ := ih (show 2 * q ≤ 2 ^ 53 by omega)
        exact ⟨rank, by rw [hrank, pow_succ]; ring⟩
      · exact ⟨(k + 1) * 2 ^ 52 + q, magnitude_add h hq (k + 1)⟩

/-! ## Rounding -/

/-- Between two neighbours of one power of two the nearer one is chosen, or the even one. -/
theorem nearestRank_between (hq : 2 ^ 52 ≤ q) (hq' : q < 2 ^ 53) (hrest : rest < 2 ^ k) :
    nearestRank (q * 2 ^ k + rest) 1 = k * 2 ^ 52 +
      if 2 ^ k < 2 * rest ∨ (2 * rest = 2 ^ k ∧ q % 2 = 1) then q + 1 else q := by
  have hpos := Nat.two_pow_pos k
  have hlog : (q * 2 ^ k + rest).log2 = 52 + k := by
    have hlow : 2 ^ 52 * 2 ^ k ≤ q * 2 ^ k := Nat.mul_le_mul_right _ hq
    have hhigh : (q + 1) * 2 ^ k ≤ 2 ^ 53 * 2 ^ k := Nat.mul_le_mul_right _ hq'
    rw [Nat.log2_eq_iff (by omega), add_right_comm, pow_add, pow_add]
    rw [Nat.succ_mul] at hhigh
    omega
  have hdiv : (q * 2 ^ k + rest) / 2 ^ k = q := by
    rw [Nat.mul_comm, Nat.mul_add_div hpos, Nat.div_eq_of_lt hrest, add_zero]
  have hmod : (q * 2 ^ k + rest) % 2 ^ k = rest := by
    rw [Nat.mul_comm, Nat.mul_add_mod, Nat.mod_eq_of_lt hrest]
  have hshift : (q * 2 ^ k + rest) / 1 = q * 2 ^ k + rest := Nat.div_one _
  simp only [nearestRank, hshift, hlog, Nat.add_sub_cancel_left, Nat.shiftLeft_eq, one_mul,
    divideToEven, hdiv, hmod, Nat.pow_eq]

/-- A number of units that has more than 52 bits lies between two neighbours of one power of two. -/
theorem exists_neighbours (h : 2 ^ 52 ≤ number) :
    ∃ q k rest, number = q * 2 ^ k + rest ∧ 2 ^ 52 ≤ q ∧ q < 2 ^ 53 ∧ rest < 2 ^ k := by
  have hne : number ≠ 0 := by omega
  have hlog : 52 ≤ number.log2 := (Nat.le_log2 hne).2 h
  obtain ⟨k, hk⟩ := Nat.exists_eq_add_of_le hlog
  obtain ⟨hlow, hhigh⟩ := (Nat.log2_eq_iff hne).1 hk
  have hpos := Nat.two_pow_pos k
  rw [pow_add] at hlow
  rw [add_right_comm, pow_add] at hhigh
  exact ⟨number / 2 ^ k, k, number % 2 ^ k, by rw [Nat.mul_comm, Nat.div_add_mod],
    (Nat.le_div_iff_mul_le hpos).2 hlow, (Nat.div_lt_iff_lt_mul hpos).2 hhigh,
    Nat.mod_lt _ hpos⟩

theorem nearestRank_of_lt (h : number < 2 ^ 52) : nearestRank number 1 = number := by
  have hself := nearestRank_magnitude number
  rwa [magnitude_of_lt h] at hself

/-- Rounding up does not pass a magnitude. -/
theorem nearestRank_le (h : number ≤ magnitude rank) : nearestRank number 1 ≤ rank := by
  obtain hsmall | hlarge := Nat.lt_or_ge number (2 ^ 52)
  · rw [nearestRank_of_lt hsmall]
    rwa [← magnitude_of_lt hsmall, magnitude_strictMono.le_iff_le] at h
  · obtain ⟨q, k, rest, rfl, hq, hq', hrest⟩ := exists_neighbours hlarge
    by_cases hzero : rest = 0
    · subst hzero
      rw [add_zero, ← magnitude_add hq hq'.le, magnitude_strictMono.le_iff_le] at h
      rwa [add_zero, ← magnitude_add hq hq'.le, nearestRank_magnitude]
    · have hbelow : magnitude (k * 2 ^ 52 + q) < magnitude rank := by
        rw [magnitude_add hq hq'.le]
        omega
      rw [magnitude_strictMono.lt_iff_lt] at hbelow
      rw [nearestRank_between hq hq' hrest]
      split <;> omega

/-- Rounding down does not pass a magnitude. -/
theorem le_nearestRank (h : magnitude rank ≤ number) : rank ≤ nearestRank number 1 := by
  obtain hsmall | hlarge := Nat.lt_or_ge number (2 ^ 52)
  · rw [nearestRank_of_lt hsmall]
    rwa [← magnitude_of_lt hsmall, magnitude_strictMono.le_iff_le] at h
  · obtain ⟨q, k, rest, rfl, hq, hq', hrest⟩ := exists_neighbours hlarge
    have habove : magnitude rank < magnitude (k * 2 ^ 52 + (q + 1)) := by
      rw [magnitude_add (by omega) hq', Nat.succ_mul]
      omega
    rw [magnitude_strictMono.lt_iff_lt] at habove
    rw [nearestRank_between hq hq' hrest]
    split <;> omega

/-- What a number of units is rounded to. -/
def roundedNat (number : ℕ) : ℕ := magnitude (nearestRank number 1)

/-- What has at most 53 significant bits is not rounded. -/
theorem roundedNat_mul_pow (hq : q ≤ 2 ^ 53) (k : ℕ) : roundedNat (q * 2 ^ k) = q * 2 ^ k := by
  obtain ⟨rank, hrank⟩ := exists_magnitude_eq hq k
  rw [roundedNat, ← hrank, nearestRank_magnitude]

theorem roundedNat_le_magnitude (h : number ≤ magnitude rank) :
    roundedNat number ≤ magnitude rank :=
  magnitude_strictMono.monotone (nearestRank_le h)

theorem roundedNat_le (hq : q ≤ 2 ^ 53) (h : number ≤ q * 2 ^ k) :
    roundedNat number ≤ q * 2 ^ k := by
  obtain ⟨rank, hrank⟩ := exists_magnitude_eq hq k
  rw [← hrank] at h ⊢
  exact roundedNat_le_magnitude h

theorem le_roundedNat (hq : q ≤ 2 ^ 53) (h : q * 2 ^ k ≤ number) :
    q * 2 ^ k ≤ roundedNat number := by
  obtain ⟨rank, hrank⟩ := exists_magnitude_eq hq k
  rw [← hrank] at h ⊢
  exact magnitude_strictMono.monotone (le_nearestRank h)

theorem roundedNat_between (hq : 2 ^ 52 ≤ q) (hq' : q < 2 ^ 53) (hrest : rest < 2 ^ k) :
    roundedNat (q * 2 ^ k + rest) =
      (if 2 ^ k < 2 * rest ∨ (2 * rest = 2 ^ k ∧ q % 2 = 1) then q + 1 else q) * 2 ^ k := by
  rw [roundedNat, nearestRank_between hq hq' hrest]
  split
  · exact magnitude_add (by omega) (by omega) k
  · exact magnitude_add hq hq'.le k

@[simp] theorem signed_false (number : ℕ) : signed false number = number := rfl

@[simp] theorem signed_true (number : ℕ) : signed true number = -number := rfl

/-- The units that a number of units with a sign is rounded to. -/
def roundedUnits (n : ℤ) : ℤ := signed (n < 0) (roundedNat n.natAbs)

theorem roundedUnits_natCast (number : ℕ) : roundedUnits number = roundedNat number := by
  simp [roundedUnits, signed]

theorem roundedUnits_neg_natCast (number : ℕ) : roundedUnits (-number) = -roundedNat number := by
  obtain rfl | hpos := Nat.eq_zero_or_pos number
  · decide
  · simp [roundedUnits, signed, hpos]

/-! ## The units of a number -/

/-- A number is finite, and so and so many units. -/
def HasUnits (x : Double) (n : ℤ) : Prop :=
  ∃ negative rank, x = .finite negative rank ∧ signed negative (magnitude rank) = n

/-- A number is finite, and this rational. -/
def HasValue (x : Double) (v : ℚ) : Prop := ∃ n, x.HasUnits n ∧ v = n / one

/-- The rank of `2⁵³`. -/
def largeRank : ℕ := places * 2 ^ 52 + 2 ^ 53

theorem magnitude_largeRank : magnitude largeRank = 2 ^ 53 * one :=
  (magnitude_add (by norm_num) le_rfl places).trans (by rw [one_eq])

theorem largeRank_lt : largeRank < finiteCount := by
  unfold largeRank places finiteCount
  norm_num

theorem hasUnits_zero (negative : Bool) : HasUnits (zero negative) 0 := by
  cases negative
  · exact ⟨false, _, rfl, rfl⟩
  · exact ⟨true, _, rfl, rfl⟩

/-- What is rounded is a number, or an infinity beyond the largest. -/
theorem nearestUnits_cases (negative : Bool) (number : ℕ) :
    HasUnits (nearestUnits negative number 1) (signed negative (roundedNat number)) ∨
      (nearestUnits negative number 1 = .infinity negative ∧ finiteCount ≤ nearestRank number 1) := by
  obtain hrank | hrank := Nat.lt_or_ge (nearestRank number 1) finiteCount
  · exact .inl ⟨negative, ⟨_, hrank⟩, by rw [nearestUnits, ofRank, dif_pos hrank], rfl⟩
  · exact .inr ⟨by rw [nearestUnits, ofRank, dif_neg (Nat.not_lt.2 hrank)], hrank⟩

theorem nearestRank_lt (bound : Fin finiteCount) (h : roundedNat number ≤ magnitude bound) :
    nearestRank number 1 < finiteCount :=
  (magnitude_strictMono.le_iff_le.1 h).trans_lt bound.isLt

/-- What is not rounded beyond a number is rounded to a number. -/
theorem hasUnits_nearestUnits (negative : Bool) (bound : Fin finiteCount)
    (h : roundedNat number ≤ magnitude bound) :
    HasUnits (nearestUnits negative number 1) (signed negative (roundedNat number)) :=
  (nearestUnits_cases negative number).resolve_right fun hbeyond =>
    (nearestRank_lt bound h).not_ge hbeyond.2

/-- The sum of two numbers is the rounded sum of their units, or an infinity beyond the largest. -/
theorem HasUnits.add_cases (hx : HasUnits x n) (hy : HasUnits y m) :
    HasUnits (x.add y) (roundedUnits (n + m)) ∨
      (x.add y = .infinity (n + m < 0) ∧ finiteCount ≤ nearestRank (n + m).natAbs 1) := by
  obtain ⟨a, r, rfl, rfl⟩ := hx
  obtain ⟨b, s, rfl, rfl⟩ := hy
  by_cases hzero : signed a (magnitude r) + signed b (magnitude s) = 0
  · have hsum : (Double.finite a r).add (.finite b s) = zero (a && b) := by
      simp only [Double.add, hzero, if_true]
    have hrounded : roundedUnits 0 = 0 := by decide
    rw [hsum, hzero, hrounded]
    exact .inl (hasUnits_zero _)
  · have hsum : (Double.finite a r).add (.finite b s) =
        nearestUnits (signed a (magnitude r) + signed b (magnitude s) < 0)
          (signed a (magnitude r) + signed b (magnitude s)).natAbs 1 := by
      simp only [Double.add, hzero, if_false]
    rw [hsum]
    exact nearestUnits_cases _ _

/-- The sum of two numbers is the rounded sum of their units. -/
theorem HasUnits.add (hx : HasUnits x n) (hy : HasUnits y m) (bound : Fin finiteCount)
    (h : roundedNat (n + m).natAbs ≤ magnitude bound) :
    HasUnits (x.add y) (roundedUnits (n + m)) :=
  (hx.add_cases hy).resolve_right fun hbeyond => (nearestRank_lt bound h).not_ge hbeyond.2

/-! ## Dropping a fraction -/

theorem one_pos : 0 < one := by
  rw [one_eq]
  exact Nat.two_pow_pos places

/-- From `2⁵²` on there are no fractions. -/
theorem le_of_one_mul_le (hq : q < 2 ^ 53) (h : 2 ^ 52 * one ≤ q * 2 ^ k) : places ≤ k := by
  have hpower : 2 ^ (52 + places) < 2 ^ (53 + k) := by
    rw [pow_add, pow_add, ← one_eq]
    exact h.trans_lt (Nat.mul_lt_mul_of_pos_right hq (Nat.two_pow_pos k))
  rw [Nat.pow_lt_pow_iff_right (by norm_num)] at hpower
  omega

theorem one_dvd_pow (h : places ≤ k) : one ∣ 2 ^ k := by
  rw [one_eq]
  exact pow_dvd_pow 2 h

/-- A whole number that is not beyond a number by one or more is a number. -/
theorem exists_magnitude_eq_mul_one {whole : ℕ} (bound : Fin finiteCount)
    (h : whole = magnitude bound / one ∨
      (whole = magnitude bound / one + 1 ∧ magnitude bound % one ≠ 0)) :
    ∃ rank : Fin finiteCount, magnitude rank = whole * one := by
  obtain hlarge | hsmall := Nat.le_total (2 ^ 52 * one) (magnitude bound)
  · obtain ⟨q, k, hqk, hq, -⟩ := exists_significand bound
    have hdvd : one ∣ magnitude bound := by
      rw [hqk] at hlarge ⊢
      exact (one_dvd_pow (le_of_one_mul_le hq hlarge)).mul_left q
    obtain rfl | ⟨-, hmod⟩ := h
    · exact ⟨bound, (Nat.div_mul_cancel hdvd).symm⟩
    · exact absurd (Nat.mod_eq_zero_of_dvd hdvd) hmod
  · have hwhole : whole ≤ 2 ^ 53 := by
      have := Nat.div_le_of_le_mul (hsmall.trans_eq (Nat.mul_comm _ _))
      omega
    obtain ⟨rank, hrank⟩ := exists_magnitude_eq hwhole places
    have hle : rank ≤ largeRank := by
      rw [← magnitude_strictMono.le_iff_le, magnitude_largeRank, hrank, one_eq]
      exact Nat.mul_le_mul_right _ hwhole
    exact ⟨⟨rank, hle.trans_lt largeRank_lt⟩, by rw [hrank, one_eq]⟩

/-- The whole number that a magnitude with a sign is cut to. -/
def whole (negative : Bool) (units : ℕ) : ℕ :=
  if negative && units % one != 0 then units / one + 1 else units / one

theorem floor_finite (negative : Bool) (rank : Fin finiteCount) :
    (Double.finite negative rank).floor =
      nearestUnits negative (whole negative (magnitude rank) * one) 1 :=
  rfl

theorem signed_whole (negative : Bool) (units : ℕ) :
    signed negative (whole negative units * one) = signed negative units / one * one := by
  cases negative with
  | false => simp [signed, whole]
  | true =>
      have hone : (one : ℤ).sign = 1 := Int.sign_eq_one_of_pos (by exact_mod_cast one_pos)
      have hcut : (-units : ℤ) / one = -(whole true units : ℕ) := by
        simp only [Int.neg_ediv, hone, Int.natCast_dvd_natCast, Nat.dvd_iff_mod_eq_zero]
        by_cases hmod : units % one = 0
        · simp [whole, hmod]
        · simp [whole, hmod]
          ring
      simp [signed, hcut]

/-- To drop a fraction is exact. -/
theorem HasUnits.floor (h : HasUnits x n) : HasUnits x.floor (n / one * one) := by
  obtain ⟨negative, rank, rfl, rfl⟩ := h
  have hwhole : whole negative (magnitude rank) = magnitude rank / one ∨
      (whole negative (magnitude rank) = magnitude rank / one + 1 ∧
        magnitude rank % one ≠ 0) := by
    unfold whole
    split <;> simp_all
  obtain ⟨bound, hbound⟩ := exists_magnitude_eq_mul_one rank hwhole
  have hself : roundedNat (magnitude bound) = magnitude bound := by
    rw [roundedNat, nearestRank_magnitude]
  rw [floor_finite, ← signed_whole, ← hbound]
  have hunits := hasUnits_nearestUnits negative bound hself.le
  rwa [hself] at hunits

end Double

end Restyle
