import Mathlib
import Restyle.Proofs.Double.Halves
import Restyle.Function

/-!
# Restyle.Proofs.Value.Rounding

Rounding to an integer, and the characters at integer places.

The number whose fraction is dropped after adding one half is the nearest integer, and the larger one
of two, but for two kinds of numbers (`Slips`): the sum is itself rounded, and with the number next
below one half and with the odd numbers between `2⁵²` and `2⁵³` it comes to the integer above.

* `Double.IsNearest` — an integer is nearest to a rational, the larger one of two;
* `Double.HasUnits.rounded` — what a number is rounded to;
* `Function.slice_eq_placed` — the characters of a slice are those at the places from one bound to the
  other;
* `Function.rounded_nearest` — all numbers that do not slip are rounded to the nearest integer, and a
  text is cut at the very places that are given as integers.
-/

namespace Restyle

namespace Double

-- nothing is to be computed with so large a power
attribute [local irreducible] places one half tick

variable {x y : Double} {n m : ℤ} {place : ℕ}

/-! ## Units and values -/

/-- What a number is rounded to: one half is added, and the fraction dropped. -/
theorem HasUnits.rounded (h : HasUnits x n) :
    ∃ whole : ℤ, (Function.rounded x).HasUnits (whole * one) ∧
      (SlipsUnits n → whole = (n + half) / one + 1) ∧
      (¬SlipsUnits n → whole = (n + half) / one) := by
  obtain ⟨bound, hbound⟩ : ∃ bound : Fin finiteCount,
      roundedNat (n + half).natAbs ≤ magnitude bound := by
    obtain ⟨negative, rank, -, rfl⟩ := h
    exact exists_roundedNat_le negative rank
  have hsum := (h.add hasUnits_half bound hbound).floor
  obtain ⟨negative, rank, rfl, rfl⟩ := h
  refine ⟨_, hsum, ?_⟩
  obtain ⟨q, k, hself, hq, hrange⟩ := exists_significand rank
  rw [hself]
  obtain hk | hk := Nat.lt_or_ge k places
  · rw [roundedUnits_small negative hk hq, slipsUnits_small negative hk hq]
    exact ⟨fun h => by rw [if_pos h], fun h => by rw [if_neg h, add_zero]⟩
  · have hq' : 2 ^ 52 ≤ q := by
      have hplaces := places_eq
      omega
    rw [roundedUnits_large negative hk hq' hq, slipsUnits_large negative hk hq' hq,
      add_half_div_one_large negative hk]
    exact ⟨fun h => by rw [if_pos h], fun h => by rw [if_neg h, add_zero]⟩

/-- The value of a whole number of ones. -/
theorem HasUnits.hasValue {whole : ℤ} (h : HasUnits x (whole * one)) : x.HasValue whole := by
  have hone : (one : ℚ) ≠ 0 := by exact_mod_cast one_pos.ne'
  refine ⟨_, h, ?_⟩
  push_cast
  rw [mul_div_cancel_right₀ _ hone]

theorem HasValue.hasUnits {whole : ℤ} (h : x.HasValue whole) : x.HasUnits (whole * one) := by
  obtain ⟨n, hunits, hvalue⟩ := h
  have hone : (one : ℚ) ≠ 0 := by exact_mod_cast one_pos.ne'
  rw [eq_div_iff hone] at hvalue
  have hn : n = whole * one := by exact_mod_cast hvalue.symm
  rwa [← hn]

/-- The whole part of the exact sum of a value and one half. -/
theorem floor_add_half (n : ℤ) : ⌊(n / one + 1 / 2 : ℚ)⌋ = (n + half) / one := by
  have hone : (one : ℚ) = 2 * half := by exact_mod_cast one_eq_two_mul_half
  have hhalf : (half : ℚ) ≠ 0 := by exact_mod_cast half_pos.ne'
  have hsum : (n / one + 1 / 2 : ℚ) = ((n + half : ℤ) : ℚ) / (one : ℕ) := by
    rw [hone]
    push_cast
    field_simp
  rw [hsum, Rat.floor_intCast_div_natCast]

/-! ## Places -/

/-- Whether a place is below a number. -/
def isAbove (x : Double) (place : ℕ) : Bool := x.leastNat?.all (place < ·)

theorem leastNat?_finite (rank : Fin finiteCount) (place : ℕ) :
    (if magnitude rank % one = 0 then magnitude rank / one else magnitude rank / one + 1) ≤ place ↔
      magnitude rank ≤ place * one := by
  split
  · next hmod =>
    exact Nat.div_le_iff_le_mul_of_dvd one_pos.ne' (Nat.dvd_of_mod_eq_zero hmod)
  · next hmod =>
    have hne : magnitude rank ≠ place * one := by
      rintro heq
      exact hmod (by rw [heq, Nat.mul_mod_left])
    rw [Nat.succ_le_iff, Nat.div_lt_iff_lt_mul one_pos]
    omega

theorem HasUnits.leastNat? (h : x.HasUnits n) :
    ∃ least, x.leastNat? = some least ∧ ∀ place : ℕ, least ≤ place ↔ n ≤ place * one := by
  obtain ⟨negative, rank, rfl, rfl⟩ := h
  cases negative with
  | true =>
      refine ⟨0, rfl, fun place => ?_⟩
      rw [signed_true]
      have : (0 : ℤ) ≤ place * one := by exact_mod_cast Nat.zero_le _
      omega
  | false =>
      refine ⟨_, rfl, fun place => ?_⟩
      rw [signed_false]
      refine (leastNat?_finite rank place).trans ?_
      exact_mod_cast Iff.rfl

theorem HasUnits.isAbove_iff (h : x.HasUnits n) : x.isAbove place = true ↔ place * one < n := by
  obtain ⟨least, hleast, hiff⟩ := h.leastNat?
  rw [isAbove, hleast, Option.all_some, decide_eq_true_eq, ← not_le, hiff, not_le]

/-- Up to 53 bits rounding does not pass a place. -/
theorem lt_roundedUnits_iff {c : ℤ} (hplace : place < 2 ^ 53) :
    place * one < roundedUnits (c * one) ↔ (place : ℤ) < c := by
  have hone : (0 : ℤ) < one := by exact_mod_cast one_pos
  obtain ⟨whole, rfl | rfl⟩ := c.eq_nat_or_neg
  · rw [← Nat.cast_mul, ← Nat.cast_mul, roundedUnits_natCast, Nat.cast_lt, Nat.cast_lt]
    rw [one_eq]
    constructor
    · intro h
      by_contra hle
      exact h.not_ge (roundedNat_le hplace.le (Nat.mul_le_mul_right _ (Nat.le_of_not_lt hle)))
    · intro h
      have hnext := le_roundedNat (show place + 1 ≤ 2 ^ 53 from hplace)
        (Nat.mul_le_mul_right (2 ^ places) (Nat.succ_le_of_lt h))
      rw [Nat.succ_mul] at hnext
      have := Nat.two_pow_pos places
      omega
  · rw [neg_mul, ← Nat.cast_mul, ← Nat.cast_mul, roundedUnits_neg_natCast]
    omega

/-- The places below a sum of whole numbers are those below the exact sum. -/
theorem isAbove_add {a b : ℤ} (hx : x.HasUnits (a * one)) (hy : y.HasUnits (b * one))
    (hplace : place < 2 ^ 53) : (x.add y).isAbove place = true ↔ (place : ℤ) < a + b := by
  obtain hsum | ⟨hsum, hbeyond⟩ := hx.add_cases hy
  · rw [hsum.isAbove_iff, ← add_mul, lt_roundedUnits_iff hplace]
  · have hlarge : 2 ^ 53 < (a + b).natAbs := by
      by_contra hle
      have hnumber : (a * one + b * one : ℤ).natAbs ≤ magnitude largeRank := by
        rw [magnitude_largeRank, ← add_mul, Int.natAbs_mul, Int.natAbs_natCast]
        exact Nat.mul_le_mul_right _ (Nat.le_of_not_lt hle)
      have := nearestRank_le hnumber
      have := largeRank_lt
      omega
    have hsign : a * one + b * one < 0 ↔ a + b < 0 := by
      have hone : (0 : ℤ) < one := by exact_mod_cast one_pos
      rw [← add_mul, mul_neg_iff]
      omega
    rw [hsum]
    by_cases hnegative : a + b < 0 <;> simp [isAbove, Double.leastNat?, hsign, hnegative] <;> omega

theorem add_ne_nan {a b : ℤ} (hx : x.HasUnits a) (hy : y.HasUnits b) : x.add y ≠ .nan := by
  obtain ⟨_, _, hsum, -⟩ | ⟨hsum, -⟩ := hx.add_cases hy <;> simp [hsum]

/-! ## Nearest integers -/

/-- An integer is nearest to a rational, and the largest one that is. -/
structure IsNearest (k : ℤ) (v : ℚ) : Prop where
  le (j : ℤ) : |v - k| ≤ |v - j|
  largest (j : ℤ) (h : |v - j| = |v - k|) : j ≤ k

theorem isNearest_floor (v : ℚ) : IsNearest ⌊v + 1 / 2⌋ v := by
  rw [← round_eq]
  refine ⟨round_le v, fun j h => ?_⟩
  by_contra hlt
  have hfloor := Int.lt_floor_add_one (v + 1 / 2)
  rw [← round_eq] at hfloor
  have hnext : (round v : ℚ) + 1 ≤ j := by exact_mod_cast Int.lt_of_not_ge hlt
  have hhalf := (abs_le.1 (h.trans_le (abs_sub_round v))).1
  linarith

/-- The values that are rounded to the integer above the nearest one. -/
def Slips (v : ℚ) : Prop :=
  v = 1 / 2 - 1 / 2 ^ 54 ∨ ∃ k : ℤ, v = k ∧ Odd k ∧ 2 ^ 52 < |k| ∧ |k| < 2 ^ 53

/-- The units next below one half. -/
theorem below_half_eq : (1 / 2 - 1 / 2 ^ 54 : ℚ) = ((half - tick : ℤ) : ℚ) / one := by
  have htick : (tick : ℚ) ≠ 0 := by exact_mod_cast tick_pos.ne'
  have hhalf : (half : ℚ) = 2 ^ 53 * tick := by exact_mod_cast half_eq_tick
  have hone : (one : ℚ) = 2 * half := by exact_mod_cast one_eq_two_mul_half
  push_cast
  rw [hone, hhalf]
  field_simp

theorem slips_iff (n : ℤ) : Slips (n / one) ↔ SlipsUnits n := by
  have hone : (one : ℚ) ≠ 0 := by exact_mod_cast one_pos.ne'
  have hbelow : (n / one : ℚ) = 1 / 2 - 1 / 2 ^ 54 ↔ n = half - tick := by
    rw [below_half_eq, div_left_inj' hone, Int.cast_inj]
  have hwhole (k : ℤ) : (n / one : ℚ) = k ↔ n = k * one := by
    rw [div_eq_iff hone]
    exact_mod_cast Iff.rfl
  simp only [Slips, SlipsUnits, hbelow, hwhole]

/-- A finite number that does not slip is rounded to the nearest integer, and one that does to the
integer above. -/
theorem HasValue.rounded {v : ℚ} (h : x.HasValue v) :
    ∃ k : ℤ, IsNearest k v ∧ (¬Slips v → (Function.rounded x).HasValue k) ∧
      (Slips v → (Function.rounded x).HasValue (k + 1)) := by
  obtain ⟨n, hunits, rfl⟩ := h
  obtain ⟨whole, hrounded, hslips, hexact⟩ := hunits.rounded
  have hvalue := hrounded.hasValue
  refine ⟨_, isNearest_floor _, ?_, ?_⟩
  · rw [slips_iff, floor_add_half]
    intro h
    rwa [← hexact h]
  · rw [slips_iff, floor_add_half]
    intro h
    rw [hslips h] at hvalue
    exact_mod_cast hvalue

/-- Only one integer is the largest nearest one. -/
theorem IsNearest.unique {k j : ℤ} {v : ℚ} (hk : IsNearest k v) (hj : IsNearest j v) : k = j :=
  le_antisymm (hj.largest k (le_antisymm (hk.le j) (hj.le k)))
    (hk.largest j (le_antisymm (hj.le k) (hk.le j)))

/-- An integer is the only one nearest to it. -/
theorem IsNearest.eq {k j : ℤ} (h : IsNearest k j) : k = j := by
  have hzero := h.le j
  rw [sub_self, abs_zero, abs_nonpos_iff, sub_eq_zero] at hzero
  exact_mod_cast hzero.symm

theorem HasValue.rounded_intCast {a : ℤ} (h : x.HasValue a) (hslips : ¬Slips a) :
    (Function.rounded x).HasValue a := by
  obtain ⟨k, hk, hrounded, -⟩ := h.rounded
  rw [hk.eq] at hrounded
  exact hrounded hslips

theorem HasUnits.eq (h : x.HasUnits n) (h' : x.HasUnits m) : n = m := by
  obtain ⟨a, r, rfl, rfl⟩ := h
  obtain ⟨b, s, hself, rfl⟩ := h'
  obtain ⟨rfl, rfl⟩ := Double.finite.inj hself
  rfl

/-- A number has one value. -/
theorem HasValue.eq {v v' : ℚ} (h : x.HasValue v) (h' : x.HasValue v') : v = v' := by
  obtain ⟨n, hn, rfl⟩ := h
  obtain ⟨m, hm, rfl⟩ := h'
  rw [hn.eq hm]

/-! ## Some numbers -/

/-- The number two. -/
def two : Double := .finite false ⟨1024 * Nat.pow 2 52, by decide⟩

theorem two_hasValue : two.HasValue 2 := by
  have hmagnitude : magnitude (1023 * 2 ^ 52 + 2 ^ 52) = 2 * one := by
    rw [magnitude_add le_rfl (by norm_num), one_eq, places_eq, ← pow_add, ← pow_succ']
  have hunits : two.HasUnits ((2 : ℤ) * one) := by
    refine ⟨false, _, rfl, ?_⟩
    rw [signed_false]
    exact_mod_cast hmagnitude
  exact_mod_cast hunits.hasValue

/-- The number half the way from two to three. -/
def fiveHalves : Double := .finite false ⟨1024 * Nat.pow 2 52 + Nat.pow 2 50, by decide⟩

theorem fiveHalves_hasValue : fiveHalves.HasValue (5 / 2) := by
  have hmagnitude : magnitude (1023 * 2 ^ 52 + (2 ^ 52 + 2 ^ 50)) = 5 * half := by
    rw [magnitude_add (by norm_num) (by norm_num), half, places_eq,
      show 2 ^ 52 + 2 ^ 50 = 5 * 2 ^ 50 by norm_num, mul_assoc, ← pow_add]
  have hone : (one : ℚ) = 2 * half := by exact_mod_cast one_eq_two_mul_half
  have hhalf : (half : ℚ) ≠ 0 := by exact_mod_cast half_pos.ne'
  refine ⟨5 * half, ⟨false, _, rfl, ?_⟩, ?_⟩
  · rw [signed_false]
    exact_mod_cast hmagnitude
  · push_cast
    rw [hone]
    field_simp

/-- The number next below one half. -/
def belowHalf : Double := .finite false ⟨1022 * Nat.pow 2 52 - 1, by decide⟩

theorem belowHalf_hasValue : belowHalf.HasValue (1 / 2 - 1 / 2 ^ 54) := by
  have hhalf := half_eq_tick
  have hmagnitude : magnitude (1020 * 2 ^ 52 + (2 ^ 53 - 1)) = half - tick := by
    rw [magnitude_add (by norm_num) (by norm_num), hhalf, tick, places_eq, Nat.sub_one_mul]
  refine ⟨half - tick, ⟨false, _, rfl, ?_⟩, below_half_eq⟩
  rw [signed_false, ← Nat.cast_sub (by omega)]
  exact_mod_cast hmagnitude

end Double

namespace Function

open Double (IsNearest Slips)

/-! ## Characters at places -/

/-- The characters of a text at chosen places, which are counted from one. -/
def placed (chosen : ℕ → Bool) (text : List Char) : List Char :=
  ((text.zipIdx 1).filter fun c => chosen c.2).map Prod.fst

theorem placed_congr {chosen chosen' : ℕ → Bool} {text : List Char}
    (h : ∀ place ≤ text.length, chosen place = chosen' place) :
    placed chosen text = placed chosen' text := by
  rw [placed, placed]
  congr 1
  refine List.filter_congr fun c hc => h c.2 ?_
  have := List.snd_lt_add_of_mem_zipIdx hc
  omega

/-- What is taken and dropped, for places that are counted from any number. -/
theorem filter_zipIdx (text : List Char) (first bound start : ℕ) :
    ((text.zipIdx start).filter fun c => first ≤ c.2 ∧ c.2 < bound).map Prod.fst =
      (text.take (bound - start)).drop (first - start) := by
  induction text generalizing start with
  | nil => simp
  | cons c text ih =>
      rw [List.zipIdx_cons, List.filter_cons]
      by_cases hbound : start < bound
      · rw [show bound - start = bound - (start + 1) + 1 by omega, List.take_succ_cons]
        by_cases hfirst : first ≤ start
        · rw [if_pos (by simp [hfirst, hbound]), List.map_cons, ih]
          simp [Nat.sub_eq_zero_of_le hfirst, Nat.sub_eq_zero_of_le (Nat.le_succ_of_le hfirst)]
        · rw [if_neg (by simp [hfirst]), ih, show first - start = first - (start + 1) + 1 by omega,
            List.drop_succ_cons]
      · rw [if_neg (by simp [hbound]), ih, show bound - start = 0 by omega,
          show bound - (start + 1) = 0 by omega]
        simp

theorem take_drop_eq_placed (text : List Char) (first bound : ℕ) :
    (text.take (bound - 1)).drop (first - 1) =
      placed (fun place => first ≤ place ∧ place < bound) text :=
  (filter_zipIdx text first bound 1).symm

/-- A slice holds the characters at the places from one number up to another. -/
theorem slice_eq_placed {first bound : Double} {least : ℕ} (text : List Char)
    (hfirst : first.leastNat? = some least) (hbound : bound ≠ .nan) :
    slice text first bound =
      placed (fun place => decide (least ≤ place) && bound.isAbove place) text := by
  cases hleast : bound.leastNat? with
  | none =>
      have hslice : slice text first bound = text.drop (least - 1) := by
        simp only [slice, hfirst, hleast]
      have hall : text.take (text.length + 1 - 1) = text := by simp
      rw [hslice]
      nth_rewrite 1 [← hall]
      rw [take_drop_eq_placed]
      refine placed_congr fun place hplace => ?_
      simp [Double.isAbove, hleast]
      omega
  | some above =>
      have hslice : slice text first bound = (text.take (above - 1)).drop (least - 1) := by
        simp only [slice, hfirst, hleast]
      rw [hslice, take_drop_eq_placed]
      simp [Double.isAbove, hleast]

/-- A start that is rounded to an integer chooses the characters from that place on. -/
theorem substring_from {a : ℤ} (ctx : Context) (text start : Value)
    (hstart : (rounded start.toNumber).HasValue a) :
    apply ctx .substring [text, start] =
      .ok (.string (String.ofList (placed (fun place => a ≤ place) text.toText.toList))) := by
  obtain ⟨least, hleast, hplace⟩ := hstart.hasUnits.leastNat?
  have hbound : Double.infinity Bool.false ≠ .nan := nofun
  rw [apply, slice_eq_placed _ hleast hbound]
  congr 3
  refine placed_congr fun place _ => ?_
  have hiff : least ≤ place ↔ a ≤ place := by
    rw [hplace, mul_le_mul_iff_left₀ (by exact_mod_cast Double.one_pos)]
  simp [Double.isAbove, Double.leastNat?, hiff]

/-- A length that is rounded to an integer as well chooses as many of them. -/
theorem substring_between {a b : ℤ} (ctx : Context) (text start length : Value)
    (hstart : (rounded start.toNumber).HasValue a) (hlength : (rounded length.toNumber).HasValue b)
    (htext : text.toText.length < 2 ^ 53) :
    apply ctx .substring [text, start, length] =
      .ok (.string (String.ofList
        (placed (fun place => a ≤ place ∧ place < a + b) text.toText.toList))) := by
  obtain ⟨least, hleast, hplace⟩ := hstart.hasUnits.leastNat?
  rw [apply, slice_eq_placed _ hleast (Double.add_ne_nan hstart.hasUnits hlength.hasUnits)]
  congr 3
  refine placed_congr fun place hle => ?_
  have hiff : least ≤ place ↔ a ≤ place := by
    rw [hplace, mul_le_mul_iff_left₀ (by exact_mod_cast Double.one_pos)]
  have hshort : place < 2 ^ 53 := hle.trans_lt (by rwa [String.length_toList])
  have habove := Double.isAbove_add hstart.hasUnits hlength.hasUnits hshort
  simp [hiff, ← habove]

/-- All finite numbers but those that slip are rounded to the nearest integer, the larger one of two.
An integer is thus left as it is, and a text is cut at the very places that are given as integers. -/
theorem rounded_nearest {x : Double} {v : ℚ} (hx : x.HasValue v) :
    (∃ k : ℤ, IsNearest k v ∧ ((rounded x).HasValue k ↔ ¬Slips v) ∧
      (Slips v → (rounded x).HasValue (k + 1))) ∧
    ∀ a : ℤ, v = a → ¬Slips v → (rounded x).HasValue v ∧
      ∀ (ctx : Context) (text start : Value), start.toNumber = x →
        apply ctx .substring [text, start] =
          .ok (.string (String.ofList (placed (fun place => a ≤ place) text.toText.toList))) ∧
        ∀ (length : Value) (b : ℤ), length.toNumber.HasValue b → ¬Slips b →
          text.toText.length < 2 ^ 53 →
          apply ctx .substring [text, start, length] =
            .ok (.string (String.ofList
              (placed (fun place => a ≤ place ∧ place < a + b) text.toText.toList))) := by
  constructor
  · obtain ⟨k, hk, hexact, hslips⟩ := hx.rounded
    refine ⟨k, hk, ⟨fun hvalue h => ?_, hexact⟩, hslips⟩
    have := hvalue.eq (hslips h)
    linarith
  · rintro a rfl hslips
    have hstart := hx.rounded_intCast hslips
    refine ⟨hstart, ?_⟩
    rintro ctx text start rfl
    refine ⟨substring_from ctx text start hstart, fun length b hlength hslips' htext => ?_⟩
    exact substring_between ctx text start length hstart (hlength.rounded_intCast hslips') htext

/-- The larger one of two integers is taken, and a text is cut at its second character. -/
theorem rounded_nearest_halves :
    (Double.fiveHalves.HasValue (5 / 2) ∧ (rounded .fiveHalves).HasValue 3) ∧
      Double.two.HasValue 2 ∧ (rounded .two).HasValue 2 ∧
      ∀ ctx, apply ctx .substring [.string "12345", .number .two] = .ok (.string "2345") := by
  have hslips : ¬Slips 2 := by
    rintro (h | ⟨k, hk, -, hlarge, -⟩)
    · norm_num at h
    · have : k = 2 := by exact_mod_cast hk.symm
      subst this
      norm_num at hlarge
  have hslips' : ¬Slips (5 / 2) := by
    rintro (h | ⟨k, hk, -⟩)
    · norm_num at h
    · have : 2 * k = 5 := by
        have : (2 * k : ℚ) = 5 := by linarith
        exact_mod_cast this
      omega
  obtain ⟨k, hk, hvalue, -⟩ := (rounded_nearest Double.fiveHalves_hasValue).1
  have hthree : k = 3 := by
    rw [hk.unique (Double.isNearest_floor _), Int.floor_eq_iff]
    norm_num
  have hrounded := (rounded_nearest Double.two_hasValue).2 2 (by norm_num) hslips
  exact ⟨⟨Double.fiveHalves_hasValue, by simpa [hthree] using hvalue.2 hslips'⟩,
    Double.two_hasValue, hrounded.1,
    fun ctx => (hrounded.2 ctx (.string "12345") (.number .two) rfl).1⟩

/-- The number next below one half is rounded to one. -/
theorem belowHalf_slips :
    Double.belowHalf.HasValue (1 / 2 - 1 / 2 ^ 54) ∧ (rounded .belowHalf).HasValue 1 ∧
      ¬∃ k : ℤ, IsNearest k (1 / 2 - 1 / 2 ^ 54) ∧ (rounded .belowHalf).HasValue k := by
  obtain ⟨k, hk, -, hslips⟩ := Double.belowHalf_hasValue.rounded
  have hrounded := hslips (.inl rfl)
  have hzero : k = 0 := by
    rw [hk.unique (Double.isNearest_floor _), Int.floor_eq_zero_iff]
    norm_num
  refine ⟨Double.belowHalf_hasValue, by simpa [hzero] using hrounded, ?_⟩
  rintro ⟨j, hj, hvalue⟩
  rw [hj.unique hk] at hvalue
  exact absurd (hvalue.eq hrounded) (by norm_num)

end Function

end Restyle
