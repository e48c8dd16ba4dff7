import SignatureVeil.Proofs.Binary.DecimalScaling
import SignatureVeil.Proofs.Binary.ShortestDecimal
import SignatureVeil.Proofs.Binary.Ties

/-!
# Numbers that are rounded twice

A decimal can be rounded to 32 bits at once, or what it is read as with 64 bits
can be narrowed.  Both lie on the same side of every middle between two
neighbours with 32 bits that is not among the few numbers with 64 bits between
the decimal and what it is read as.  So both give the same magnitude, unless
there is such a middle, and then they give neighbours.
-/

namespace SignatureVeil

namespace BinaryFormat

section

variable {format : BinaryFormat}

theorem rounds_zero : format.Rounds 0 0 :=
  ⟨(format.middle_pos 0).le, nofun⟩

theorem rounds_value (magnitude : Nat) :
    format.Rounds (format.value magnitude) magnitude where
  le_middle :=
    le_add_of_nonneg_right (half_pos (format.gap_pos magnitude)).le
  middle_le := by
    rintro previous rfl
    exact (middle_lt_value_succ format previous).le

theorem lt_middle_of_le_value {number : ℚ} {magnitude : Nat}
    (notAbove : number ≤ format.value magnitude) :
    number < format.middle magnitude :=
  notAbove.trans_lt (lt_add_of_pos_right _ (half_pos (format.gap_pos magnitude)))

end

/-! ## Rounding at once -/

theorem exists_rounds_quotient (format : BinaryFormat) (numerator : Nat)
    {denominator : Nat} (positive : 0 < denominator) :
    ∃ magnitude, format.Rounds (numerator / denominator) magnitude ∧
      format.nearest numerator denominator =
        min format.infinity magnitude := by
  rcases Nat.eq_zero_or_pos numerator with rfl | positive'
  · refine ⟨0, ?_, ?_⟩
    · rw [Nat.cast_zero, zero_div]
      exact rounds_zero
    · rw [nearest, if_pos rfl, Nat.min_zero]
  · exact format.exists_rounds_nearest positive' positive

theorem exists_rounds_multiply (first second : Nat) :
    ∃ magnitude,
      double.Rounds (double.value first * double.value second) magnitude ∧
        double.multiply first second = min double.infinity magnitude := by
  have positive : 0 <
      Nat.pow 2 (-(double.scale first + double.scale second)).toNat :=
    Nat.pow_pos Nat.two_pos
  rw [value_mul_value]
  exact double.exists_rounds_quotient _ positive

theorem cast_mul_zpow (digits : Nat) (power : Int) :
    (digits * 10 ^ power : ℚ) =
      (digits * Nat.pow 10 power.toNat : Nat) /
        (Nat.pow 10 (-power).toNat : Nat) := by
  rw [zpow_eq_div (by norm_num), Nat.cast_mul, cast_natPow, cast_natPow,
    mul_div_assoc]

theorem exists_rounds_decimal (format : BinaryFormat) (digits : Nat)
    (power : Int) :
    ∃ magnitude, format.Rounds (digits * 10 ^ power) magnitude ∧
      format.nearest (digits * Nat.pow 10 power.toNat)
        (Nat.pow 10 (-power).toNat) = min format.infinity magnitude := by
  rw [cast_mul_zpow]
  exact exists_rounds_quotient format _ (Nat.pow_pos (by decide))

/-- A number with many digits before its point is infinite with 32 bits. -/
theorem value_infinity_le : single.value single.infinity ≤
    (Nat.pow 10 decimalBound : Nat) := by
  have parts : single.IsParts single.infinity 254 single.hiddenBit :=
    ⟨by decide, .inr le_rfl, by decide⟩
  have exponent : single.leastScale + ((254 : Nat) : Int) = (105 : Nat) := by
    decide
  rw [parts.value_eq, exponent, zpow_natCast]
  exact_mod_cast (by decide +kernel :
    single.hiddenBit * 2 ^ 105 ≤ Nat.pow 10 decimalBound)

theorem tiny_lt_middle_zero :
    (1 : ℚ) / (Nat.pow 10 decimalBound : Nat) < single.middle 0 := by
  have tiny := div_lt_middle_zero
    (by decide : single.leastScale = -((149 : Nat) : Int))
    (by decide +kernel : 1 * (Nat.pow 2 149 * 2) < Nat.pow 10 decimalBound)
  exact_mod_cast tiny

section

variable {digits less : Nat} {power : Int}

/-- A decimal is far above all numbers with 32 bits if its first digit is. -/
theorem value_infinity_le_decimal (low : 10 ^ less ≤ digits)
    (large : (decimalBound : Int) ≤ less + power) :
    single.value single.infinity ≤ digits * 10 ^ power := by
  refine value_infinity_le.trans ?_
  calc ((Nat.pow 10 decimalBound : Nat) : ℚ)
      = 10 ^ (decimalBound : Int) := by rw [cast_natPow, zpow_natCast]
    _ ≤ 10 ^ (less + power) := zpow_le_zpow_right₀ (by norm_num) large
    _ = (10 ^ less : Nat) * 10 ^ power := by
        rw [zpow_add₀ (by norm_num), zpow_natCast, Nat.cast_pow,
          Nat.cast_ofNat]
    _ ≤ digits * 10 ^ power :=
        mul_le_mul_of_nonneg_right (Nat.cast_le.mpr low) (by positivity)

/-- A decimal is far below them if the digit in front of its first one is. -/
theorem decimal_lt_middle_zero (high : digits < 10 ^ (less + 1))
    (small : less + 1 + power ≤ -(decimalBound : Int)) :
    (digits : ℚ) * 10 ^ power < single.middle 0 := by
  refine lt_of_le_of_lt ?_ tiny_lt_middle_zero
  calc (digits : ℚ) * 10 ^ power
      ≤ (10 ^ (less + 1) : Nat) * 10 ^ power :=
        mul_le_mul_of_nonneg_right (Nat.cast_le.mpr high.le) (by positivity)
    _ = 10 ^ (less + 1 + power) := by
        rw [zpow_add₀ (by norm_num), Nat.cast_pow, Nat.cast_ofNat,
          ← zpow_natCast]
        push_cast
        rfl
    _ ≤ 10 ^ (-(decimalBound : Int)) :=
        zpow_le_zpow_right₀ (by norm_num) small
    _ = 1 / (Nat.pow 10 decimalBound : Nat) := by
        rw [cast_natPow, zpow_neg, zpow_natCast, one_div]

end

/-- What is far above all numbers with 32 bits or far below them is rounded as
if its power of ten were computed. -/
theorem exists_rounds_ofDecimal (digits : Nat) (power : Int) :
    ∃ magnitude, single.Rounds (digits * 10 ^ power) magnitude ∧
      single.ofDecimal digits power = min single.infinity magnitude := by
  rcases Nat.eq_zero_or_pos digits with rfl | positive
  · refine ⟨0, ?_, ?_⟩
    · rw [Nat.cast_zero, zero_mul]
      exact rounds_zero
    · rw [ofDecimal, if_pos rfl, Nat.min_zero]
  obtain ⟨magnitude, rounds, nearest⟩ :=
    single.exists_rounds_decimal digits power
  obtain ⟨less, length, low, high⟩ := exists_toDigits_length positive
  refine ⟨magnitude, rounds, ?_⟩
  rw [ofDecimal, if_neg positive.ne']
  simp only [length]
  split
  case isTrue large =>
    have above : single.value single.infinity ≤ digits * 10 ^ power :=
      value_infinity_le_decimal low (by omega)
    exact (min_eq_left (rounds.le_of_value_le above)).symm
  case isFalse notLarge =>
    split
    case isTrue small =>
      have below : digits * (10 : ℚ) ^ power < single.middle 0 :=
        decimal_lt_middle_zero high (by push_cast at small; omega)
      rw [Nat.le_zero.mp (rounds.le_of_lt_middle below), Nat.min_zero]
    case isFalse => exact nearest

theorem ofDecimal_zero {digits : Nat}
    (fits : digits < Nat.pow 2 64) (format : BinaryFormat) :
    format.ofDecimal digits 0 = format.nearest digits 1 := by
  rcases Nat.eq_zero_or_pos digits with rfl | positive
  · rfl
  obtain ⟨less, length, low, -⟩ := exists_toDigits_length positive
  have few : less < 20 := by
    refine (Nat.pow_lt_pow_iff_right (by decide : 1 < 10)).mp ?_
    exact (low.trans_lt fits).trans (by decide)
  rw [ofDecimal, if_neg positive.ne']
  simp only [length, decimalBound]
  rw [if_neg (by omega), if_neg (by omega)]
  change format.nearest (digits * 1) 1 = _
  rw [Nat.mul_one]

/-- What a finite value is narrowed to. -/
theorem exists_rounds_convert {value : Double}
    (finite : value.magnitude < double.infinity) :
    ∃ magnitude, single.Rounds (double.value value.magnitude) magnitude ∧
      value.convert .single =
        ⟨value.negative, min single.infinity magnitude⟩ := by
  have number : ¬ value.isNaN = true := by
    rw [Binary.isNaN, decide_eq_true_eq]
    exact finite.asymm
  have positive : 0 < Nat.pow 2 (-double.scale value.magnitude).toNat :=
    Nat.pow_pos Nat.two_pos
  obtain ⟨magnitude, rounds, nearest⟩ := single.exists_rounds_quotient
    (double.significand value.magnitude *
      Nat.pow 2 (double.scale value.magnitude).toNat) positive
  rw [← value_eq_div] at rounds
  refine ⟨magnitude, rounds, ?_⟩
  rw [Binary.convert, if_neg number, if_neg finite.ne]
  exact congrArg (Binary.mk value.negative) nearest

/-! ## Sides of middles -/

/-- A magnitude with 64 bits lies on the same side of every middle as one with
32 bits. -/
structure Narrows (wide narrow : Nat) : Prop where
  le_half : ∀ magnitude half, magnitude < single.infinity →
    double.value half = single.middle magnitude → narrow ≤ magnitude →
    wide ≤ half
  half_le : ∀ magnitude half, magnitude < single.infinity →
    double.value half = single.middle magnitude → magnitude < narrow →
    half ≤ wide

theorem narrows_of_rounds {number : ℚ} {wide narrow : Nat}
    (rounds : double.Rounds number wide)
    (rounds' : single.Rounds number narrow) :
    Narrows wide (min single.infinity narrow) where
  le_half := by
    intro magnitude half finite isMiddle notAbove
    have notAbove' : narrow ≤ magnitude := by omega
    refine rounds.le_of_lt_middle (lt_middle_of_le_value ?_)
    rw [isMiddle]
    exact rounds'.le_middle.trans (middle_strictMono.monotone notAbove')
  half_le := by
    intro magnitude half finite isMiddle below
    obtain ⟨previous, rfl⟩ : ∃ previous, narrow = previous + 1 :=
      ⟨narrow - 1, by omega⟩
    apply rounds.le_of_value_le
    rw [isMiddle]
    exact (middle_strictMono.monotone (by omega)).trans
      (rounds'.middle_le previous rfl)

/-- Between two middles there are many numbers with 64 bits. -/
theorem halves_apart {magnitude half half' : Nat}
    (finite : magnitude + 1 < single.infinity)
    (isMiddle : double.value half = single.middle magnitude)
    (isMiddle' : double.value half' = single.middle (magnitude + 1)) :
    half + 16 ≤ half' := by
  have injective : Function.Injective double.value :=
    (value_strictMono : StrictMono double.value).injective
  obtain ⟨wide, found, next, -, apart, -, -, same, isNext⟩ :=
    exists_widened (Nat.lt_of_succ_lt finite)
  obtain ⟨wide', found', next', apart', -, -, isWide, same', -⟩ :=
    exists_widened finite
  obtain rfl : found = half := injective (same.trans isMiddle.symm)
  obtain rfl : found' = half' := injective (same'.trans isMiddle'.symm)
  obtain rfl : wide' = next := injective (isWide.trans isNext.symm)
  omega

section

variable {wide narrow wide' narrow' : Nat} (narrows : Narrows wide narrow)
  (narrows' : Narrows wide' narrow') (bounded : narrow' ≤ single.infinity)

include narrows narrows' bounded

theorem Narrows.exists_between (less : narrow < narrow') :
    ∃ magnitude half, magnitude < single.infinity ∧
      double.value half = single.middle magnitude ∧
      wide ≤ half ∧ half ≤ wide' := by
  have finite : narrow < single.infinity := by omega
  obtain ⟨half, -, -, isMiddle, -⟩ := exists_half finite
  exact ⟨narrow, half, finite, isMiddle,
    narrows.le_half _ _ finite isMiddle le_rfl,
    narrows'.half_le _ _ finite isMiddle less⟩

theorem Narrows.le_add_one (near : wide' ≤ wide + 15) :
    narrow' ≤ narrow + 1 := by
  by_contra more
  have finite : narrow + 1 < single.infinity := by omega
  obtain ⟨half, -, -, isMiddle, -⟩ := exists_half (Nat.lt_of_succ_lt finite)
  obtain ⟨half', -, -, isMiddle', -⟩ := exists_half finite
  have low := narrows.le_half _ _ (Nat.lt_of_succ_lt finite) isMiddle le_rfl
  have high := narrows'.half_le _ _ finite isMiddle' (by omega)
  have := halves_apart finite isMiddle isMiddle'
  omega

end

/-! ## Reading before narrowing -/

theorem significand_zero (format : BinaryFormat) : format.significand 0 = 0 :=
  if_pos format.hiddenBit_pos

theorem zero_divide (format : BinaryFormat) (second : Nat) :
    format.divide 0 second = 0 := by
  rw [divide, significand_zero, Nat.zero_mul, nearest, if_pos rfl]

theorem zero_multiply (format : BinaryFormat) (second : Nat) :
    format.multiply 0 second = 0 := by
  rw [multiply, significand_zero, Nat.zero_mul, Nat.zero_mul, nearest,
    if_pos rfl]

theorem scaleByTen?_zero (power : Int) :
    double.scaleByTen? 0 power = some 0 := by
  have finite : 0 < double.infinity := by decide
  rw [scaleByTen?]
  simp only [zero_divide, zero_multiply, finite, if_true, ite_self]

theorem divide_powerOfTen_le_self {magnitude power : Nat}
    (finite : magnitude ≤ lastDouble) (fits : power ≤ largestPower) :
    double.divide magnitude (double.powerOfTen power) ≤ magnitude := by
  rcases Nat.eq_zero_or_pos magnitude with rfl | positive
  · rw [zero_divide]
  · have whole := roundedWhole_powerOfTen fits
    obtain ⟨-, rounds, -⟩ := rounds_divide_power positive finite (.refl _)
      (double.value_nonneg magnitude) fits
    refine rounds.le_of_lt_middle (lt_middle_of_le_value ?_)
    exact div_le_self (double.value_nonneg magnitude) whole.one_le

/-- Scaling by a negative power of ten always succeeds. -/
theorem exists_scaled_le {magnitude : Nat} {power : Int}
    (finite : magnitude ≤ lastDouble) (lowers : power < 0) :
    ∃ scaled, double.scaleByTen? magnitude power = some scaled ∧
      scaled ≤ magnitude := by
  induction magnitude, power using scaleByTen?.induct double with
  | case1 power far =>
      rw [scaleByTen?, if_pos far, if_pos rfl]
      exact ⟨0, rfl, le_rfl⟩
  | case2 magnitude power far nonzero step =>
      rw [scaleByTen?, if_pos far, if_neg nonzero]
      have divided := divide_powerOfTen_le_self finite le_rfl
      obtain ⟨scaled, same, less⟩ := step (divided.trans finite) (by omega)
      exact ⟨scaled, same, less.trans divided⟩
  | case3 magnitude power near lowers' =>
      rw [scaleByTen?, if_neg near, if_pos lowers']
      exact ⟨_, rfl, divide_powerOfTen_le_self finite (by omega)⟩
  | case4 _ _ _ raises | case5 _ _ _ raises | case6 _ _ raises
  | case7 _ _ _ raises => exact absurd lowers raises

section

variable {digits rounded scaled : Nat} {power : Int} {number : ℚ}
  (positive : 0 < digits) (fits : digits < Nat.pow 2 64)
  (read : double.scaleByTen? (double.nearest digits 1) power = some scaled)

include positive fits read

omit read in
theorem roundedWhole_digits :
    RoundedWhole digits (double.nearest digits 1) :=
  roundedWhole_nearest positive (fits.le.trans (by decide +kernel))

theorem scaled_near (notBelow : -(largestPower : Int) ≤ power)
    (rounds : double.Rounds (digits * 10 ^ power) rounded) :
    rounded ≤ scaled + 2 ∧ scaled ≤ rounded + 2 := by
  have whole := roundedWhole_digits positive fits
  rcases lt_or_ge power 0 with lowers | raises
  · obtain ⟨found, same, -, near⟩ := exists_scaled_down positive
      (fits.le.trans (by decide +kernel)) lowers notBelow rounds
    obtain rfl := Option.some.inj (same.symm.trans read)
    exact near
  · rw [scaleByTen?, if_neg (by omega), if_neg (by omega)] at read
    split at read
    case isTrue inside =>
      simp only [] at read
      split at read
      case isTrue finite =>
        obtain rfl := Option.some.inj read
        have whole' := roundedWhole_powerOfTen (by omega :
          power.toNat ≤ largestPower)
        obtain ⟨magnitude, rounds', same⟩ := exists_rounds_multiply
          (double.nearest digits 1) (double.powerOfTen power.toNat)
        have inner : double.multiply (double.nearest digits 1)
            (double.powerOfTen power.toNat) = magnitude := by
          omega
        have within := whole.within.mul whole'.within whole.value_pos.le
          whole'.value_pos.le (Nat.cast_nonneg digits) (by positivity)
        rw [← zpow_natCast, Int.toNat_of_nonneg raises] at within
        rw [inner]
        exact ⟨rounds.le_add rounds' within.symm, rounds'.le_add rounds within⟩
      case isFalse => contradiction
    case isFalse =>
      rw [if_neg whole.pos.ne'] at read
      contradiction

omit positive read in
/-- Few digits, far behind the point, are far below all positive numbers with
32 bits. -/
theorem far_lt_middle_zero {factors weight : Nat} (few : factors ≤ 6)
    (large : Nat.pow 2 64 * 2 * (Nat.pow 2 149 * 2) < weight)
    (within : number ≤
      digits / weight * (1 + double.unitRoundoff) ^ factors) :
    number < single.middle 0 := by
  have one : (1 : ℚ) ≤ 1 + double.unitRoundoff := one_lt_factor.le
  have factor : (1 + double.unitRoundoff) ^ factors ≤ 2 := by
    calc (1 + double.unitRoundoff) ^ factors
        ≤ (1 + double.unitRoundoff) ^ 6 := pow_le_pow_right₀ one few
      _ ≤ 2 := by norm_num [unitRoundoff, hiddenBit, double]
  have fits' : (digits : ℚ) ≤ (Nat.pow 2 64 : Nat) := Nat.cast_le.mpr fits.le
  calc number
      ≤ digits / weight * (1 + double.unitRoundoff) ^ factors := within
    _ ≤ (Nat.pow 2 64 : Nat) / weight * 2 := by
        have : 0 ≤ (1 + double.unitRoundoff) ^ factors :=
          pow_nonneg (one_pos.le.trans one) factors
        gcongr
    _ = (Nat.pow 2 64 * 2 : Nat) / weight := by
        rw [Nat.cast_mul, Nat.cast_two, div_mul_eq_mul_div]
    _ < single.middle 0 := div_lt_middle_zero
        (by decide : single.leastScale = -((149 : Nat) : Int)) large

omit positive fits read in
theorem digits_mul_zpow_le (below : power ≤ -(largestPower : Int)) :
    (digits * 10 ^ power : ℚ) ≤ digits / (Nat.pow 10 largestPower : Nat) :=
  mul_zpow_le le_rfl below

theorem scaled_far (below : power < -(largestPower : Int)) :
    double.value scaled < single.middle 0 := by
  have whole := roundedWhole_digits positive fits
  obtain ⟨-, finite, within⟩ := divide_largestPower positive
    (fits.le.trans (by decide +kernel))
  rw [scaleByTen?, if_pos below, if_neg whole.pos.ne'] at read
  obtain ⟨found, same, less⟩ :=
    exists_scaled_le finite (by omega : power + largestPower < 0)
  obtain rfl := Option.some.inj (same.symm.trans read)
  have grows : StrictMono double.value := value_strictMono
  have small := within.left
  rw [← cast_natPow] at small
  exact far_lt_middle_zero fits le_rfl (by decide +kernel)
    ((grows.monotone less).trans small)

/-- What a decimal is read as is few magnitudes away from what it is rounded
to, or both are far below all positive numbers with 32 bits. -/
theorem scaled_near_or_tiny
    (within : double.Within 1 number (digits * 10 ^ power))
    (rounds : double.Rounds number rounded) :
    (rounded ≤ scaled + 3 ∧ scaled ≤ rounded + 3) ∨
      (double.value scaled < single.middle 0 ∧ number < single.middle 0) := by
  rcases lt_or_ge power (-(largestPower : Int)) with below | notBelow
  · refine .inr ⟨scaled_far positive fits read below, ?_⟩
    have factor : (0 : ℚ) < 1 + double.unitRoundoff := factor_pos
    exact far_lt_middle_zero fits (by decide : 1 ≤ 6) (by decide +kernel)
      (within.left.trans (mul_le_mul_of_nonneg_right
        (digits_mul_zpow_le below.le) (pow_nonneg factor.le 1)))
  · left
    obtain ⟨rounded', rounds', -⟩ := double.exists_rounds_decimal digits power
    obtain ⟨near, near'⟩ :=
      scaled_near positive fits read notBelow rounds'
    have := rounds.le_add rounds' within
    have := rounds'.le_add rounds within.symm
    omega

omit read in
/-- Reading a decimal succeeds unless it is one of the very last numbers. -/
theorem exists_read (within : double.Within 1 number (digits * 10 ^ power))
    (rounds : double.Rounds number rounded)
    (inside : number ≤ double.value (lastDouble - 3)) :
    ∃ scaled, double.scaleByTen? (double.nearest digits 1) power =
      some scaled := by
  have whole := roundedWhole_digits positive fits
  rcases lt_or_ge power 0 with lowers | raises
  · obtain ⟨scaled, same, -⟩ := exists_scaled_le whole.finite lowers
    exact ⟨scaled, same⟩
  · obtain ⟨rounded', rounds', -⟩ := double.exists_rounds_decimal digits power
    have notAbove := rounds.le_of_lt_middle (lt_middle_of_le_value inside)
    have near := rounds'.le_add rounds within.symm
    have last : 3 < lastDouble := by decide
    obtain ⟨scaled, same, -⟩ := exists_scaled_up positive
      (fits.le.trans (by decide +kernel)) raises
      (rounds'.power_le positive (by omega)) rounds' (by omega)
    exact ⟨scaled, same⟩

end

/-- Whether a number, rounded to 64 bits, is at most three magnitudes away from
a middle between two neighbours with 32 bits. -/
def NearMiddle (number : ℚ) : Prop :=
  ∃ rounded magnitude half, double.Rounds number rounded ∧
    magnitude < single.infinity ∧
    double.value half = single.middle magnitude ∧
    rounded ≤ half + 3 ∧ half ≤ rounded + 3

theorem not_nearMiddle_zero : ¬ NearMiddle 0 := by
  rintro ⟨rounded, magnitude, half, rounds, finite, isMiddle, -, near⟩
  have injective : Function.Injective double.value :=
    (value_strictMono : StrictMono double.value).injective
  obtain ⟨wide, found, next, apart, -, -, -, same, -⟩ := exists_widened finite
  obtain rfl : found = half := injective (same.trans isMiddle.symm)
  have := rounds.le_of_lt_middle (double.middle_pos 0)
  omega

/-- Narrowing what a number was read as gives the magnitude that the number is
rounded to at once, or one of its neighbours; and those only next to a
middle. -/
theorem narrowed_near {number : ℚ} {rounded scaled narrow narrow' : Nat}
    (rounds : double.Rounds number rounded)
    (direct : single.Rounds number narrow)
    (twice : single.Rounds (double.value scaled) narrow')
    (near : (rounded ≤ scaled + 3 ∧ scaled ≤ rounded + 3) ∨
      (double.value scaled < single.middle 0 ∧ number < single.middle 0)) :
    min single.infinity narrow' ≤ min single.infinity narrow + 1 ∧
      min single.infinity narrow ≤ min single.infinity narrow' + 1 ∧
      (min single.infinity narrow' ≠ min single.infinity narrow →
        NearMiddle number) := by
  rcases near with ⟨near, near'⟩ | ⟨tiny, tiny'⟩
  · have narrows := narrows_of_rounds rounds direct
    have narrows' := narrows_of_rounds (rounds_value scaled) twice
    have bounded := Nat.min_le_left single.infinity narrow
    have bounded' := Nat.min_le_left single.infinity narrow'
    refine ⟨narrows.le_add_one narrows' bounded' (by omega),
      narrows'.le_add_one narrows bounded (by omega), fun different => ?_⟩
    rcases lt_or_gt_of_ne different with less | more
    · obtain ⟨magnitude, half, finite, isMiddle, low, high⟩ :=
        narrows'.exists_between narrows bounded less
      exact ⟨rounded, magnitude, half, rounds, finite, isMiddle, by omega,
        by omega⟩
    · obtain ⟨magnitude, half, finite, isMiddle, low, high⟩ :=
        narrows.exists_between narrows' bounded' more
      exact ⟨rounded, magnitude, half, rounds, finite, isMiddle, by omega,
        by omega⟩
  · have zero := direct.le_of_lt_middle tiny'
    have zero' := twice.le_of_lt_middle tiny
    exact ⟨by omega, by omega, fun different => by omega⟩

end BinaryFormat

end SignatureVeil
