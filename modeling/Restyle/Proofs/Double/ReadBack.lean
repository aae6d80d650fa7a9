import Mathlib
import Restyle.Proofs.Expr.Tokens

/-!
# Restyle.Proofs.Double.ReadBack

Numbers read back: the text of a number without a sign, read as a numeral, is the number again.

Reading rounds a fraction, and rounding depends on the value of the fraction alone
(`nearestRank_congr`).  Writing takes a decimal that rounds to the number (`rank_shortest`) and only
cuts zeros at its end, which leaves its value as it is (`digitsValue_positional`).

* `Double.nearestRank_magnitude` — the value of a rank is rounded to that rank;
* `Decimal.rank_shortest` — the decimal that is written rounds to the rank it is written for;
* `Grammar.number_text` — a number is read back from its text.
-/

namespace Restyle

namespace Double

/-! ## Rounding -/

theorem divideToEven_mul_right {k : Nat} (hk : 0 < k) (num den : Nat) :
    divideToEven (num * k) (den * k) = divideToEven num den := by
  have hless : den * k < 2 * (num % den * k) ↔ den < 2 * (num % den) := by
    rw [← Nat.mul_assoc]
    exact Nat.mul_lt_mul_right hk
  have hhalf : 2 * (num % den * k) = den * k ↔ 2 * (num % den) = den := by
    rw [← Nat.mul_assoc]
    exact Nat.mul_left_inj hk.ne'
  simp only [divideToEven, Nat.mul_div_mul_right _ _ hk, Nat.mul_mod_mul_right, hless, hhalf]

theorem nearestRank_mul_right {k : Nat} (hk : 0 < k) (num den : Nat) :
    nearestRank (num * k) (den * k) = nearestRank num den := by
  have hshift (shift : Nat) : (den * k) <<< shift = den <<< shift * k := by
    rw [Nat.shiftLeft_eq, Nat.shiftLeft_eq, Nat.mul_right_comm]
  simp only [nearestRank, Nat.mul_div_mul_right _ _ hk, hshift, divideToEven_mul_right hk]

/-- Equal fractions are rounded to the same rank. -/
theorem nearestRank_congr {num den num' den' : Nat} (hden : 0 < den) (hden' : 0 < den')
    (h : num * den' = num' * den) : nearestRank num den = nearestRank num' den' :=
  calc
    nearestRank num den = nearestRank (num * den') (den * den') :=
      (nearestRank_mul_right hden' num den).symm
    _ = nearestRank (num' * den) (den' * den) := by rw [h, Nat.mul_comm den]
    _ = nearestRank num' den' := nearestRank_mul_right hden num' den'

/-- The value of a rank is rounded to that rank. -/
theorem nearestRank_magnitude (rank : Nat) : nearestRank (magnitude rank) 1 = rank := by
  unfold magnitude
  split
  · next h =>
    have hlog : (rank / 1).log2 - 52 = 0 := by
      rw [Nat.div_one]
      rcases Nat.eq_zero_or_pos rank with rfl | hpos
      · rfl
      · have := (Nat.log2_lt hpos.ne').2 h
        omega
    rw [nearestRank, hlog]
    simpa using divideToEven_mul Nat.one_pos rank
  · next h =>
    generalize hm : Nat.pow 2 52 + rank % Nat.pow 2 52 = m
    generalize hk : rank / Nat.pow 2 52 - 1 = k
    have hbounds : m ≠ 0 ∧ m.log2 = 52 := by
      have hm' : m ≠ 0 := by
        rw [← hm]
        exact Nat.ne_of_gt (Nat.add_pos_left (by decide) _)
      refine ⟨hm', (Nat.log2_eq_iff hm').2 ⟨?_, ?_⟩⟩
      · rw [← hm]
        exact Nat.le_add_right _ _
      · have := Nat.mod_lt rank (show 0 < Nat.pow 2 52 by decide)
        rw [← hm]
        simp only [Nat.pow_eq] at this ⊢
        omega
    have hlog : (m <<< k / 1).log2 - 52 = k := by
      rw [Nat.div_one, Nat.shiftLeft_eq, ← Nat.pow_eq, log2_mul_pow hbounds.1, hbounds.2]
      omega
    have hexact : divideToEven (m <<< k) (1 <<< k) = m := by
      rw [Nat.shiftLeft_eq, Nat.shiftLeft_eq, Nat.one_mul]
      exact divideToEven_mul (Nat.two_pow_pos k) m
    rw [nearestRank, hlog, hexact, ← hm, ← hk]
    simp only [Nat.pow_eq] at h ⊢
    omega

end Double

/-! ## Digits -/

theorem ofDigits_pairDigits (base : Nat) (digits : List Nat) :
    Nat.ofDigits (base * base) (pairDigits base digits) = Nat.ofDigits base digits := by
  fun_induction pairDigits base digits with
  | case1 low high digits ih =>
      simp only [Nat.ofDigits_cons, ih]
      ring
  | case2 digits h =>
      cases digits with
      | nil => rfl
      | cons digit digits =>
          cases digits with
          | nil => simp
          | cons high digits => exact absurd rfl (h digit high digits)

theorem ofDigits_eq (base : Nat) (digits : List Nat) :
    ofDigits base digits = Nat.ofDigits base digits := by
  fun_induction ofDigits base digits with
  | case1 => rfl
  | case2 digit => simp
  | case3 base low high digits ih =>
      rw [ih, Nat.ofDigits_cons, ofDigits_pairDigits]
      simp only [Nat.ofDigits_cons]
      ring

theorem digitsValue_eq (cs : List Char) : digitsValue cs = Nat.ofDigitChars 10 cs 0 := by
  rw [digitsValue, ofDigits_eq]
  induction cs with
  | nil => rfl
  | cons c cs ih =>
      rw [Nat.ofDigitChars_cons, Nat.ofDigitChars_eq_ofDigitChars_zero, ← ih]
      simp [Nat.ofDigits_append, digitValue]
      ring

theorem digitsValue_append (as bs : List Char) :
    digitsValue (as ++ bs) = digitsValue as * 10 ^ bs.length + digitsValue bs := by
  simp only [digitsValue_eq, Nat.ofDigitChars_append]
  rw [Nat.ofDigitChars_eq_ofDigitChars_zero, Nat.mul_comm]

theorem digitsValue_replicate_zero (k : Nat) : digitsValue (List.replicate k '0') = 0 := by
  rw [digitsValue_eq, Nat.ofDigitChars_replicate_zero, Nat.mul_zero]

namespace Decimal

theorem digitsValue_digitsOf (n : Nat) : digitsValue (digitsOf n) = n := by
  rw [digitsValue_eq, digitsOf, Nat.ofDigitChars_ten_toDigits]

theorem isDigit_digitsOf {n : Nat} {c : Char} (h : c ∈ digitsOf n) : c.isDigit = true :=
  Nat.isDigit_of_mem_toDigits (by decide) (by decide) h

/-- Only zeros are cut. -/
theorem exists_eq_dropTrailingZeros (cs : List Char) :
    ∃ k, cs = dropTrailingZeros cs ++ List.replicate k '0' := by
  refine ⟨(cs.reverse.takeWhile (· == '0')).length, ?_⟩
  have hzeros : cs.reverse.takeWhile (· == '0') =
      List.replicate (cs.reverse.takeWhile (· == '0')).length '0' := by
    refine List.eq_replicate_of_mem fun c hc => ?_
    simpa using List.mem_takeWhile_imp hc
  calc
    cs = (cs.reverse.takeWhile (· == '0') ++ cs.reverse.dropWhile (· == '0')).reverse := by
      rw [List.takeWhile_append_dropWhile, List.reverse_reverse]
    _ = dropTrailingZeros cs ++ (cs.reverse.takeWhile (· == '0')).reverse :=
      List.reverse_append
    _ = _ := by
      rw [hzeros]
      simp

/-! ## The decimal that is written -/

theorem fraction_neg (digits places : Nat) :
    (Decimal.mk digits (-(places : Int))).fraction = (digits, 10 ^ places) := by
  unfold fraction
  split
  · next h =>
    obtain rfl : places = 0 := by simpa using h
    simp
  · simp

theorem toDouble_eq (negative : Bool) (d : Decimal) :
    toDouble negative d = Double.ofRank negative d.rank := rfl

theorem fraction_den_pos (d : Decimal) : 0 < d.fraction.2 := by
  unfold fraction
  split
  · exact Nat.one_pos
  · exact Nat.pow_pos (by decide)

/-- A decimal rounds to the rank of its value. -/
theorem rank_eq_of_value {d : Decimal} {num den : Nat} (hden : 0 < den)
    (h : d.fraction.1 * den = num * d.fraction.2) :
    d.rank = Double.nearestRank (num * Double.one) den := by
  refine Double.nearestRank_congr d.fraction_den_pos hden ?_
  generalize Double.one = one
  rw [Nat.mul_right_comm, h, Nat.mul_right_comm]

theorem rank_onGrid {rank : Nat} {place : Int} {d : Decimal} (h : onGrid rank place = some d) :
    d.rank = rank := by
  unfold onGrid at h
  extract_lets value num den lower upper lowerHits upperHits at h
  split at h
  · next hlower =>
    obtain rfl := Option.some.inj h
    exact hlower.1
  · split at h
    · next hupper =>
      obtain rfl := Option.some.inj h
      exact hupper
    · simp at h

/-- The exact expansion rounds to the rank whose value it is. -/
theorem rank_exact (rank : Nat) : (exact rank).rank = rank := by
  -- The powers are kept closed, since a proof that unfolds them computes them.
  have hexact : exact rank = Decimal.mk (Double.magnitude rank * Nat.pow 5 Double.places)
      (-(Double.places : Int)) := by
    delta exact Double.places
    generalize Nat.pow 5 = power
    rfl
  have hone : Nat.pow 5 Double.places * Double.one = 10 ^ Double.places := by
    delta Double.one
    generalize Double.places = places
    exact (Nat.mul_pow 5 2 places).symm
  have hpos : 0 < Double.one := by
    delta Double.one
    generalize Double.places = places
    exact Nat.two_pow_pos places
  have hunit := Double.nearestRank_mul_right hpos (Double.magnitude rank) 1
  rw [Nat.one_mul, Double.nearestRank_magnitude] at hunit
  have hvalue : (exact rank).fraction.1 * Double.one =
      Double.magnitude rank * (exact rank).fraction.2 := by
    rw [hexact, fraction_neg, Nat.mul_assoc, hone]
  rw [rank_eq_of_value hpos hvalue]
  exact hunit

/-- What is written for a rank reads back as it. -/
theorem rank_shortest (rank : Nat) : (shortest rank).rank = rank := by
  simp only [shortest]
  cases h : (List.range 17).findSome? fun (n : Nat) =>
      onGrid rank (leadingPlace (Double.magnitude rank) Double.one - n) with
  | none => exact rank_exact rank
  | some d =>
      obtain ⟨n, -, hn⟩ := List.exists_of_findSome?_eq_some h
      exact rank_onGrid hn

/-! ## Digits by position -/

/-- The digits that are written before the point. -/
def beforePoint (d : Decimal) : List Char := digitsOf (d.fraction.1 / d.fraction.2)

/-- The digits of the part below one, as many as there are places. -/
def allPlaces (d : Decimal) : List Char :=
  let part := digitsOf (d.fraction.1 % d.fraction.2)
  List.replicate ((-d.exponent).toNat - part.length) '0' ++ part

/-- The digits that are written after the point. -/
def afterPoint (d : Decimal) : List Char := dropTrailingZeros d.allPlaces

theorem positional_eq (d : Decimal) :
    d.positional = d.beforePoint ++ if d.afterPoint.isEmpty then [] else '.' :: d.afterPoint := rfl

theorem beforePoint_ne_nil (d : Decimal) : d.beforePoint ≠ [] :=
  List.ne_nil_of_length_pos Nat.length_toDigits_pos

theorem isDigit_afterPoint {d : Decimal} {c : Char} (h : c ∈ d.afterPoint) : c.isDigit = true := by
  obtain ⟨k, hk⟩ := exists_eq_dropTrailingZeros d.allPlaces
  have hc : c ∈ d.allPlaces := by
    rw [hk]
    exact List.mem_append_left _ h
  obtain hc | hc := List.mem_append.1 hc
  · rw [List.eq_of_mem_replicate hc]
    decide
  · exact isDigit_digitsOf hc

theorem digitsValue_allPlaces (d : Decimal) :
    digitsValue d.allPlaces = d.fraction.1 % d.fraction.2 := by
  simp [allPlaces, digitsValue_append, digitsValue_replicate_zero, digitsValue_digitsOf]

/-- The digits after the point have the value of the part below one. -/
theorem digitsValue_afterPoint (d : Decimal) :
    digitsValue d.afterPoint * d.fraction.2 =
      d.fraction.1 % d.fraction.2 * 10 ^ d.afterPoint.length := by
  obtain ⟨k, hk⟩ := exists_eq_dropTrailingZeros d.allPlaces
  have hvalue : digitsValue d.afterPoint * 10 ^ k = d.fraction.1 % d.fraction.2 := by
    rw [← digitsValue_allPlaces, hk, digitsValue_append, digitsValue_replicate_zero]
    simp [afterPoint]
  by_cases hexponent : 0 ≤ d.exponent
  · have hden : d.fraction.2 = 1 := by simp [fraction, hexponent]
    rw [hden, Nat.mod_one] at hvalue ⊢
    have hzero : digitsValue d.afterPoint = 0 := by
      simpa using hvalue
    rw [hzero]
    simp
  · have hden : d.fraction.2 = 10 ^ (-d.exponent).toNat := by simp [fraction, hexponent]
    have hlength : d.afterPoint.length + k = (-d.exponent).toNat := by
      have hpart : (digitsOf (d.fraction.1 % d.fraction.2)).length ≤ (-d.exponent).toNat := by
        rw [digitsOf, Nat.length_toDigits_le_iff (by decide) (by omega), ← hden]
        exact Nat.mod_lt _ d.fraction_den_pos
      have hall : d.allPlaces.length = (-d.exponent).toNat := by
        simp [allPlaces, hpart]
      rw [hk] at hall
      simpa [afterPoint] using hall
    rw [← hvalue, hden, ← hlength, Nat.pow_add]
    ring

/-- What is written by position has the value of the decimal. -/
theorem digitsValue_positional (d : Decimal) :
    digitsValue (d.beforePoint ++ d.afterPoint) * d.fraction.2 =
      d.fraction.1 * 10 ^ d.afterPoint.length := by
  rw [digitsValue_append, beforePoint, digitsValue_digitsOf, Nat.add_mul, digitsValue_afterPoint,
    Nat.mul_right_comm, ← Nat.add_mul, Nat.mul_comm _ d.fraction.2, Nat.div_add_mod]

/-- A decimal is read back from its digits by position, as the number nearest to it. -/
theorem numeralValue_positional (negative : Bool) (d : Decimal) :
    numeralValue negative d.beforePoint d.afterPoint = Double.ofRank negative d.rank := by
  have hvalue := rank_eq_of_value (d := ⟨digitsValue (d.beforePoint ++ d.afterPoint),
    -(d.afterPoint.length : Int)⟩) d.fraction_den_pos (by
      rw [fraction_neg]
      exact digitsValue_positional d)
  rw [numeralValue, toDouble_eq, hvalue, Decimal.rank]

end Decimal

/-! ## Numbers in expressions -/

namespace Grammar

/-- Digits with a point, or without one, are read up to where they cannot go on. -/
theorem number_append {whole fraction rest : List Char} (hne : whole ≠ [])
    (hwhole : ∀ c ∈ whole, c.isDigit = true) (hfraction : ∀ c ∈ fraction, c.isDigit = true)
    (hrest : ∀ c ∈ rest.head?, c.isDigit = false ∧ c ≠ '.') :
    number ((whole ++ if fraction.isEmpty then [] else '.' :: fraction) ++ rest) =
      some (numeralValue false whole fraction, rest) := by
  have hempty : whole.isEmpty = false := by simpa using hne
  have hstop : ∀ c ∈ rest.head?, c.isDigit = false := fun c hc => (hrest c hc).1
  cases fraction with
  | nil =>
      obtain ⟨htake, hdrop⟩ := takeWhile_append_stop hwhole hstop
      simp only [List.isEmpty_nil, if_true, List.append_nil]
      cases rest with
      | nil =>
          rw [List.append_nil] at htake hdrop ⊢
          simp [number, htake, hdrop, hempty]
      | cons c rest =>
          have hpoint : c ≠ '.' := (hrest c rfl).2
          rw [number, htake, hdrop]
          simp [hempty]
          split <;> simp_all
  | cons digit digits =>
      obtain ⟨htake, hdrop⟩ := takeWhile_append_stop hfraction hstop
      have hpoint : ∀ c ∈ ('.' :: (digit :: digits ++ rest)).head?, c.isDigit = false := by simp
      obtain ⟨htake', hdrop'⟩ := takeWhile_append_stop hwhole hpoint
      simp only [List.isEmpty_cons, Bool.false_eq_true, if_false, List.append_assoc,
        List.cons_append] at htake hdrop htake' hdrop' ⊢
      simp only [number, htake', hdrop', htake, hdrop, hempty, Bool.false_and, Bool.false_eq_true,
        if_false]

/-- A number without a sign is written by position, with digits that have its value. -/
theorem exists_positional {value : Double} (h : value.isPlain = true) :
    ∃ d : Decimal, value.text.toList = d.positional ∧
      numeralValue false d.beforePoint d.afterPoint = value := by
  obtain ⟨rank, rfl⟩ : ∃ rank, value = .finite false rank := by
    cases value with
    | finite negative rank =>
        cases negative with
        | false => exact ⟨rank, rfl⟩
        | true => simp [Double.isPlain] at h
    | _ => simp [Double.isPlain] at h
  obtain ⟨d, htext, hrank⟩ : ∃ d : Decimal,
      (Double.finite false rank).text.toList = d.positional ∧ d.rank = rank := by
    by_cases hzero : rank.val = 0
    · refine ⟨⟨0, 0⟩, ?_, ?_⟩
      · simp [Double.text, NumberStyle.write, hzero]
        decide
      · rw [hzero, Decimal.rank, show (Decimal.mk 0 0).fraction = (0, 1) from rfl, Nat.zero_mul]
        decide
    · refine ⟨Decimal.shortest rank, ?_, Decimal.rank_shortest rank⟩
      simp [Double.text, NumberStyle.write, hzero]
  refine ⟨d, htext, ?_⟩
  rw [Decimal.numeralValue_positional, hrank, Double.ofRank, dif_pos rank.isLt]

/-- A number without a sign is read back from its text. -/
theorem number_text {value : Double} (h : value.isPlain = true) {rest : List Char}
    (hrest : ∀ c ∈ rest.head?, c.isDigit = false ∧ c ≠ '.') :
    number (value.text.toList ++ rest) = some (value, rest) := by
  obtain ⟨d, htext, hvalue⟩ := exists_positional h
  rw [htext, Decimal.positional_eq, number_append d.beforePoint_ne_nil
    (fun c => Decimal.isDigit_digitsOf) (fun c => Decimal.isDigit_afterPoint) hrest, hvalue]

/-- The text of a number without a sign is digits and points, and starts with a digit. -/
theorem exists_digit_text {value : Double} (h : value.isPlain = true) :
    ∃ c cs, value.text.toList = c :: cs ∧ c.isDigit = true ∧
      ∀ d ∈ cs, d.isDigit = true ∨ d = '.' := by
  obtain ⟨d, htext, -⟩ := exists_positional h
  cases hwhole : d.beforePoint with
  | nil => exact absurd hwhole d.beforePoint_ne_nil
  | cons c cs =>
      have hdigit : ∀ a ∈ c :: cs, a.isDigit = true := fun a ha =>
        Decimal.isDigit_digitsOf (show a ∈ d.beforePoint from hwhole ▸ ha)
      rw [htext, Decimal.positional_eq, hwhole]
      refine ⟨c, _, List.cons_append, hdigit c (by simp), fun a ha => ?_⟩
      obtain ha | ha := List.mem_append.1 ha
      · exact .inl (hdigit a (by simp [ha]))
      · split at ha
        · simp at ha
        · obtain rfl | ha := List.mem_cons.1 ha
          · exact .inr rfl
          · exact .inl (Decimal.isDigit_afterPoint ha)

end Grammar

end Restyle
