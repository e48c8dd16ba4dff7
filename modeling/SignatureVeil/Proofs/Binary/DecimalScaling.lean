import SignatureVeil.Proofs.Binary.Nearest

/-!
# Decimals that are read by scaling

A decimal is read with 64 bits by rounding its digits, rounding a power of ten
and rounding their product or quotient; a very small one takes another power
and another quotient.  The result need not be what the decimal is rounded to,
but it is at most seven magnitudes away.
-/

namespace SignatureVeil

namespace BinaryFormat

/-- The largest finite magnitude with 64 bits. -/
def lastDouble : Nat :=
  double.infinity - 1

theorem lastDouble_lt : lastDouble < double.infinity := by
  decide

theorem value_lastDouble {exponent : Nat}
    (same : double.leastScale + 2045 = exponent) :
    double.value lastDouble =
      ((2 * double.hiddenBit - 1) * Nat.pow 2 exponent : Nat) := by
  have parts : double.IsParts lastDouble 2045 (2 * double.hiddenBit - 1) :=
    ⟨by decide, .inr (by decide), by decide⟩
  have exponent' : double.leastScale + ((2045 : Nat) : Int) = exponent := same
  rw [parts.value_eq, exponent', zpow_natCast, Nat.cast_mul, cast_natPow]

theorem lt_middle_lastDouble {number exponent : Nat}
    (same : double.leastScale + 2045 = exponent)
    (small : number ≤ (2 * double.hiddenBit - 1) * Nat.pow 2 exponent) :
    (number : ℚ) < double.middle lastDouble := by
  have below : (number : ℚ) ≤ double.value lastDouble := by
    rw [value_lastDouble same]
    exact Nat.cast_le.mpr small
  exact below.trans_lt
    (lt_add_of_pos_right _ (half_pos (double.gap_pos lastDouble)))

theorem largestPower_le : Nat.pow 10 largestPower ≤
    (2 * double.hiddenBit - 1) * Nat.pow 2 971 := by
  decide +kernel

theorem value_one : double.value (1023 * double.hiddenBit) = 1 := by
  have parts : double.IsParts (1023 * double.hiddenBit) 1022
      double.hiddenBit :=
    ⟨by decide, .inr le_rfl, by decide⟩
  rw [parts.value_eq, cast_hiddenBit, ← zpow_add₀ two_ne_zero]
  rfl

theorem value_hiddenBit_le_one : double.value double.hiddenBit ≤ 1 := by
  rw [← value_one]
  exact value_strictMono.monotone (by decide)

/-- A positive whole number is rounded to a finite magnitude. -/
structure RoundedWhole (number : ℚ) (magnitude : Nat) : Prop where
  within : double.Within 1 (double.value magnitude) number
  one_le : 1 ≤ double.value magnitude
  finite : magnitude ≤ lastDouble

variable {number number' : ℚ} {magnitude magnitude' : Nat}

theorem RoundedWhole.value_pos (whole : RoundedWhole number magnitude) :
    0 < double.value magnitude :=
  one_pos.trans_le whole.one_le

theorem RoundedWhole.pos (whole : RoundedWhole number magnitude) :
    0 < magnitude := by
  refine Nat.pos_of_ne_zero ?_
  rintro rfl
  exact whole.value_pos.ne' value_zero

theorem roundedWhole_nearest {number : Nat} (positive : 0 < number)
    (fits : number ≤ Nat.pow 10 largestPower) :
    RoundedWhole number (double.nearest number 1) := by
  have least : (1 : ℚ) ≤ number := by
    exact_mod_cast positive
  have small : ((number : ℚ) / (1 : Nat)) < double.middle lastDouble := by
    rw [Nat.cast_one, div_one]
    exact lt_middle_lastDouble (by decide) (fits.trans largestPower_le)
  obtain ⟨rounds, finite⟩ :=
    rounds_nearest lastDouble_lt positive Nat.one_pos small
  rw [Nat.cast_one, div_one] at rounds
  refine ⟨rounds.within le_rfl (Nat.one_mul _).ge
    (value_hiddenBit_le_one.trans least), ?_, finite⟩
  rw [← value_one]
  apply value_strictMono.monotone
  apply rounds.le_of_value_le
  rw [value_one]
  exact least

theorem roundedWhole_powerOfTen {power : Nat} (fits : power ≤ largestPower) :
    RoundedWhole (10 ^ power) (double.powerOfTen power) := by
  have grows (bound : Nat) (fits : power ≤ bound) :
      Nat.pow 10 power ≤ Nat.pow 10 bound :=
    Nat.pow_le_pow_right (by decide) fits
  rw [← cast_natPow]
  exact roundedWhole_nearest (Nat.pow_pos (by decide)) (grows _ fits)

/-- A product of rounded numbers is rounded to about what the product of the
numbers is rounded to, if that is not among the very last magnitudes. -/
theorem rounds_multiply_whole {first second : Nat}
    (whole : RoundedWhole number first) (whole' : RoundedWhole number' second)
    (rounds : double.Rounds (number * number') magnitude) (nonneg : 0 ≤ number)
    (nonneg' : 0 ≤ number') (far : magnitude + 2 ≤ lastDouble) :
    double.multiply first second ≤ lastDouble ∧
      magnitude ≤ double.multiply first second + 2 ∧
      double.multiply first second ≤ magnitude + 2 := by
  have within := whole.within.mul whole'.within whole.value_pos.le
    whole'.value_pos.le nonneg nonneg'
  have fits : double.value first * double.value second <
      double.middle lastDouble := by
    calc double.value first * double.value second
        ≤ number * number' * (1 + double.unitRoundoff) ^ 2 := within.left
      _ ≤ double.middle magnitude * (1 + double.unitRoundoff) ^ 2 :=
          mul_le_mul_of_nonneg_right rounds.le_middle
            (pow_nonneg factor_pos.le 2)
      _ < double.middle (magnitude + 2) := middle_mul_pow_lt magnitude 1
      _ ≤ double.middle lastDouble := middle_strictMono.monotone far
  obtain ⟨rounds', finite⟩ :=
    rounds_multiply lastDouble_lt whole.pos whole'.pos fits
  exact ⟨finite, rounds.le_add rounds' within.symm, rounds'.le_add rounds within⟩

section

variable {first power factors : Nat} (positive : 0 < first)
  (finite : first ≤ lastDouble)
  (within : double.Within factors (double.value first) number)
  (nonneg : 0 ≤ number) (fits : power ≤ largestPower)

include positive finite within nonneg fits

/-- A quotient of a number and of a rounded power of ten. -/
theorem rounds_divide_power :
    double.divide first (double.powerOfTen power) ≤ lastDouble ∧
      double.Rounds
        (double.value first / double.value (double.powerOfTen power))
        (double.divide first (double.powerOfTen power)) ∧
      double.Within (factors + 1)
        (double.value first / double.value (double.powerOfTen power))
        (number / 10 ^ power) := by
  have whole := roundedWhole_powerOfTen fits
  have small : double.value first / double.value (double.powerOfTen power) <
      double.middle lastDouble := by
    calc double.value first / double.value (double.powerOfTen power)
        ≤ double.value first :=
          div_le_self (double.value_nonneg first) whole.one_le
      _ ≤ double.value lastDouble := value_strictMono.monotone finite
      _ < double.middle lastDouble :=
          lt_add_of_pos_right _ (half_pos (double.gap_pos lastDouble))
  obtain ⟨rounds, finite'⟩ :=
    rounds_divide lastDouble_lt positive whole.pos small
  exact ⟨finite', rounds, within.div whole.within (double.value_nonneg first)
    nonneg whole.value_pos (by positivity)⟩

theorem divide_power_near
    (rounds : double.Rounds (number / 10 ^ power) magnitude) :
    double.divide first (double.powerOfTen power) ≤ lastDouble ∧
      magnitude ≤
        double.divide first (double.powerOfTen power) + (factors + 1) ∧
      double.divide first (double.powerOfTen power) ≤
        magnitude + (factors + 1) := by
  obtain ⟨finite', rounds', within'⟩ :=
    rounds_divide_power positive finite within nonneg fits
  exact ⟨finite', rounds.le_add rounds' within'.symm,
    rounds'.le_add rounds within'⟩

end

/-- One divided by the largest number is not far below the normal range. -/
theorem value_mul_lastDouble_le :
    double.value (Nat.pow 2 50) * double.value lastDouble ≤ 1 := by
  have parts : double.IsParts (Nat.pow 2 50) 0 (Nat.pow 2 50) :=
    ⟨by decide, .inl rfl, by decide⟩
  have parts' : double.IsParts lastDouble 2045 (2 * double.hiddenBit - 1) :=
    ⟨by decide, .inr (by decide), by decide⟩
  rw [parts.value_eq, parts'.value_eq, mul_mul_mul_comm,
    ← zpow_add₀ two_ne_zero]
  have exponent : double.leastScale + ((0 : Nat) : Int) +
      (double.leastScale + ((2045 : Nat) : Int)) = -103 := by
    decide
  rw [exponent]
  norm_num [hiddenBit, double]

/-- The largest power of ten divides a whole number without leaving much of
the normal range. -/
theorem divide_largestPower {digits : Nat} (positive : 0 < digits)
    (fits : digits ≤ Nat.pow 10 largestPower) :
    0 < double.divide (double.nearest digits 1)
        (double.powerOfTen largestPower) ∧
      double.divide (double.nearest digits 1)
        (double.powerOfTen largestPower) ≤ lastDouble ∧
      double.Within 6 (double.value (double.divide (double.nearest digits 1)
        (double.powerOfTen largestPower))) (digits / 10 ^ largestPower) := by
  have whole := roundedWhole_nearest positive fits
  have whole' := roundedWhole_powerOfTen le_rfl
  obtain ⟨finite, rounds, within⟩ := rounds_divide_power whole.pos whole.finite
    whole.within (Nat.cast_nonneg digits) le_rfl
  have least : double.value (Nat.pow 2 50) ≤
      double.value (double.nearest digits 1) /
        double.value (double.powerOfTen largestPower) := by
    rw [le_div_iff₀ whole'.value_pos]
    calc double.value (Nat.pow 2 50) *
          double.value (double.powerOfTen largestPower)
        ≤ double.value (Nat.pow 2 50) * double.value lastDouble :=
          mul_le_mul_of_nonneg_left
            (value_strictMono.monotone whole'.finite)
            (double.value_nonneg _)
      _ ≤ 1 := value_mul_lastDouble_le
      _ ≤ double.value (double.nearest digits 1) := whole.one_le
  refine ⟨(Nat.pow_pos Nat.two_pos).trans_le (rounds.le_of_value_le least),
    finite, ?_⟩
  exact (rounds.within (by decide) (by decide)
    least : double.Within 4 _ _).trans within

/-! ## Scaling -/

section

variable {digits : Nat} {power : Int} (positive : 0 < digits)
  (fits : digits ≤ Nat.pow 10 largestPower)

include positive fits

omit positive fits in
theorem scaleByTen?_of_neg (magnitude : Nat) (lowers : power < 0)
    (notBeyond : -(largestPower : Int) ≤ power) :
    double.scaleByTen? magnitude power =
      some (double.divide magnitude (double.powerOfTen (-power).toNat)) := by
  rw [scaleByTen?, if_neg (by omega), if_pos lowers]

omit positive fits in
theorem scaleByTen?_of_nonneg {magnitude : Nat} (raises : 0 ≤ power)
    (notBeyond : power ≤ largestPower)
    (room : double.multiply magnitude (double.powerOfTen power.toNat) <
      double.infinity) :
    double.scaleByTen? magnitude power =
      some (double.multiply magnitude (double.powerOfTen power.toNat)) := by
  rw [scaleByTen?, if_neg (by omega), if_neg (by omega), if_pos notBeyond]
  exact if_pos room

theorem exists_scaled_up (raises : 0 ≤ power)
    (notBeyond : power ≤ largestPower)
    (rounds : double.Rounds (digits * 10 ^ power) magnitude)
    (far : magnitude + 2 ≤ lastDouble) :
    ∃ scaled, double.scaleByTen? (double.nearest digits 1) power =
        some scaled ∧ scaled ≤ lastDouble ∧
      magnitude ≤ scaled + 2 ∧ scaled ≤ magnitude + 2 := by
  obtain ⟨power, rfl⟩ := Int.eq_ofNat_of_zero_le raises
  rw [zpow_natCast] at rounds
  obtain ⟨finite, near, near'⟩ := rounds_multiply_whole
    (roundedWhole_nearest positive fits)
    (roundedWhole_powerOfTen (by omega)) rounds (Nat.cast_nonneg digits)
    (by positivity) far
  exact ⟨_, scaleByTen?_of_nonneg (Int.natCast_nonneg power) notBeyond
    (finite.trans_lt lastDouble_lt), finite, near, near'⟩

theorem exists_scaled_down (lowers : power < 0)
    (notBeyond : -(largestPower : Int) ≤ power)
    (rounds : double.Rounds (digits * 10 ^ power) magnitude) :
    ∃ scaled, double.scaleByTen? (double.nearest digits 1) power =
        some scaled ∧ scaled ≤ lastDouble ∧
      magnitude ≤ scaled + 2 ∧ scaled ≤ magnitude + 2 := by
  have whole := roundedWhole_nearest positive fits
  obtain ⟨power', same⟩ := Int.exists_eq_neg_ofNat lowers.le
  subst same
  rw [zpow_neg, zpow_natCast, ← div_eq_mul_inv] at rounds
  have near := divide_power_near whole.pos whole.finite whole.within
    (Nat.cast_nonneg digits) (by omega) rounds
  refine ⟨_, ?_, near⟩
  rw [scaleByTen?_of_neg _ lowers notBeyond, neg_neg, Int.toNat_natCast]

theorem exists_scaled_far_down (lowers : power < -(largestPower : Int))
    (notBeyond : -(2 * largestPower : Int) ≤ power)
    (rounds : double.Rounds (digits * 10 ^ power) magnitude) :
    ∃ scaled, double.scaleByTen? (double.nearest digits 1) power =
        some scaled ∧ scaled ≤ lastDouble ∧
      magnitude ≤ scaled + 7 ∧ scaled ≤ magnitude + 7 := by
  obtain ⟨divided, finite, within⟩ := divide_largestPower positive fits
  obtain ⟨power', same⟩ := Int.exists_eq_neg_ofNat
    (by omega : power + largestPower ≤ 0)
  have split : power = -(largestPower : Int) + -(power' : Int) := by omega
  have rounds' : double.Rounds (digits / 10 ^ largestPower / 10 ^ power')
      magnitude := by
    rw [split, zpow_add₀ (by norm_num), zpow_neg, zpow_neg, zpow_natCast,
      zpow_natCast, ← mul_assoc, ← div_eq_mul_inv, ← div_eq_mul_inv] at rounds
    exact rounds
  have near := divide_power_near divided finite within (by positivity)
    (by omega) rounds'
  have started : double.nearest digits 1 ≠ 0 :=
    (roundedWhole_nearest positive fits).pos.ne'
  refine ⟨_, ?_, near⟩
  rw [scaleByTen?, if_pos lowers, if_neg started, scaleByTen?,
    if_neg (by omega), if_pos (by omega), same, neg_neg, Int.toNat_natCast]

/-- Scaling moves a decimal by at most seven magnitudes, unless it is among
the very last ones. -/
theorem exists_scaled (notBelow : -(2 * largestPower : Int) ≤ power)
    (notBeyond : power ≤ largestPower)
    (rounds : double.Rounds (digits * 10 ^ power) magnitude)
    (far : magnitude + 2 ≤ lastDouble) :
    ∃ scaled, double.scaleByTen? (double.nearest digits 1) power =
        some scaled ∧ scaled ≤ lastDouble ∧
      magnitude ≤ scaled + 7 ∧ scaled ≤ magnitude + 7 := by
  rcases lt_or_ge power (-(largestPower : Int)) with below | inside
  · exact exists_scaled_far_down positive fits below notBelow rounds
  · obtain ⟨scaled, result, finite, near, near'⟩ : ∃ scaled,
        double.scaleByTen? (double.nearest digits 1) power = some scaled ∧
          scaled ≤ lastDouble ∧ magnitude ≤ scaled + 2 ∧
          scaled ≤ magnitude + 2 := by
      rcases lt_or_ge power 0 with lowers | raises
      · exact exists_scaled_down positive fits lowers inside rounds
      · exact exists_scaled_up positive fits raises notBeyond rounds far
    exact ⟨scaled, result, finite, by omega, by omega⟩

end

/-! ## Powers that are not beyond the scale -/

theorem value_lastDouble_lt :
    double.value lastDouble < (Nat.pow 10 (largestPower + 1) : Nat) := by
  obtain ⟨exponent, same, less⟩ : ∃ exponent : Nat,
      double.leastScale + 2045 = exponent ∧
        (2 * double.hiddenBit - 1) * Nat.pow 2 exponent <
          Nat.pow 10 (largestPower + 1) :=
    ⟨971, by decide, by decide +kernel⟩
  rw [value_lastDouble same]
  exact Nat.cast_lt.mpr less

theorem div_lt_middle_zero {format : BinaryFormat}
    {exponent numerator denominator : Nat}
    (same : format.leastScale = -(exponent : Int))
    (less : numerator * (Nat.pow 2 exponent * 2) < denominator) :
    (numerator : ℚ) / denominator < format.middle 0 := by
  have scale : format.scale 0 = format.leastScale :=
    if_pos format.hiddenBit_pos
  have positive : (0 : ℚ) < denominator := by
    exact_mod_cast (Nat.zero_le _).trans_lt less
  rw [middle, value_zero, zero_add, gap, scale, same, zpow_neg, zpow_natCast,
    ← cast_natPow, inv_eq_one_div, div_div, div_lt_div_iff₀ positive
      (by rw [cast_natPow]; positivity), one_mul]
  exact_mod_cast less

section

variable {digits magnitude bound : Nat} {power : Int}

theorem pow_le_mul_zpow (positive : 0 < digits)
    (reaches : (bound : Int) ≤ power) :
    ((Nat.pow 10 bound : Nat) : ℚ) ≤ digits * 10 ^ power := by
  have least : (1 : ℚ) ≤ digits := by exact_mod_cast positive
  rw [cast_natPow, ← zpow_natCast]
  exact (zpow_le_zpow_right₀ (by norm_num) reaches).trans
    (le_mul_of_one_le_left (by positivity) least)

theorem mul_zpow_le {most : Nat} (small : digits ≤ most)
    (reaches : power ≤ -(bound : Int)) :
    (digits : ℚ) * 10 ^ power ≤ most / (Nat.pow 10 bound : Nat) := by
  rw [cast_natPow, div_eq_mul_inv, ← zpow_natCast, ← zpow_neg]
  exact mul_le_mul (Nat.cast_le.mpr small)
    (zpow_le_zpow_right₀ (by norm_num) reaches) (by positivity)
    (Nat.cast_nonneg _)

variable (rounds : double.Rounds (digits * 10 ^ power) magnitude)

include rounds

theorem Rounds.power_le (positive : 0 < digits)
    (inside : magnitude < lastDouble) : power ≤ largestPower := by
  by_contra beyond
  have := calc ((Nat.pow 10 (largestPower + 1) : Nat) : ℚ)
      ≤ digits * 10 ^ power := pow_le_mul_zpow positive (by omega)
    _ ≤ double.middle magnitude := rounds.le_middle
    _ < double.value (magnitude + 1) := middle_lt_value_succ double magnitude
    _ ≤ double.value lastDouble := value_strictMono.monotone inside
    _ < (Nat.pow 10 (largestPower + 1) : Nat) := value_lastDouble_lt
  exact lt_irrefl _ this

theorem Rounds.le_power (small : digits ≤ Nat.pow 10 19)
    (positive : 0 < magnitude) : -(2 * largestPower : Int) ≤ power := by
  by_contra below
  obtain ⟨previous, rfl⟩ := Nat.exists_eq_add_one_of_ne_zero positive.ne'
  obtain ⟨exponent, same, less⟩ : ∃ exponent : Nat,
      double.leastScale = -(exponent : Int) ∧
        Nat.pow 10 19 * (Nat.pow 2 exponent * 2) <
          Nat.pow 10 (2 * largestPower) :=
    ⟨1074, by decide, by decide +kernel⟩
  have := calc (digits : ℚ) * 10 ^ power
      ≤ (Nat.pow 10 19 : Nat) / (Nat.pow 10 (2 * largestPower) : Nat) :=
        mul_zpow_le small (by omega)
    _ < double.middle 0 := div_lt_middle_zero same less
    _ ≤ double.middle previous := middle_strictMono.monotone previous.zero_le
    _ ≤ digits * 10 ^ power := rounds.middle_le previous rfl
  exact lt_irrefl _ this

/-- Few digits that are rounded to a magnitude can be scaled by their power of
ten. -/
theorem exists_scaled_of_rounds (positive : 0 < digits)
    (small : digits ≤ Nat.pow 10 19) (nonzero : 0 < magnitude)
    (far : magnitude + 2 ≤ lastDouble) :
    ∃ scaled, double.scaleByTen? (double.nearest digits 1) power =
        some scaled ∧ scaled ≤ lastDouble ∧
      magnitude ≤ scaled + 7 ∧ scaled ≤ magnitude + 7 := by
  have grows {fewer more : Nat} (le : fewer ≤ more) :
      Nat.pow 10 fewer ≤ Nat.pow 10 more :=
    Nat.pow_le_pow_right (by decide) le
  exact exists_scaled positive (small.trans (grows (by decide)))
    (rounds.le_power small nonzero) (rounds.power_le positive (by omega))
    rounds far

end

/-! ## Scaled magnitudes are finite -/

theorem divide_powerOfTen_le {first power : Nat} (finite : first ≤ lastDouble)
    (fits : power ≤ largestPower) :
    double.divide first (double.powerOfTen power) ≤ lastDouble := by
  rcases Nat.eq_zero_or_pos first with rfl | positive
  · have nothing : double.significand 0 = 0 := if_pos double.hiddenBit_pos
    rw [divide, nothing, Nat.zero_mul, nearest, if_pos rfl]
    exact Nat.zero_le _
  · exact (rounds_divide_power positive finite (.refl _)
      (double.value_nonneg first) fits).1

theorem scaleByTen?_le {magnitude scaled : Nat} {power : Int}
    (finite : magnitude ≤ lastDouble)
    (same : double.scaleByTen? magnitude power = some scaled) :
    scaled ≤ lastDouble := by
  induction magnitude, power using scaleByTen?.induct double with
  | case1 power far =>
      rw [scaleByTen?, if_pos far, if_pos rfl] at same
      exact Option.some.inj same ▸ finite
  | case2 magnitude power far nonzero step =>
      rw [scaleByTen?, if_pos far, if_neg nonzero] at same
      exact step (divide_powerOfTen_le finite le_rfl) same
  | case3 magnitude power near lowers =>
      rw [scaleByTen?, if_neg near, if_pos lowers] at same
      exact Option.some.inj same ▸ divide_powerOfTen_le finite (by omega)
  | case4 magnitude power near raises bounded product fits =>
      rw [scaleByTen?, if_neg near, if_neg raises, if_pos bounded] at same
      have fits' := (if_pos fits).symm.trans same
      exact Option.some.inj fits' ▸ Nat.le_sub_one_of_lt fits
  | case5 magnitude power near raises bounded product exceeds =>
      rw [scaleByTen?, if_neg near, if_neg raises, if_pos bounded] at same
      exact absurd ((if_neg exceeds).symm.trans same) nofun
  | case6 power near raises beyond =>
      rw [scaleByTen?, if_neg near, if_neg raises, if_neg beyond, if_pos rfl]
        at same
      exact Option.some.inj same ▸ finite
  | case7 magnitude power near raises beyond nonzero =>
      rw [scaleByTen?, if_neg near, if_neg raises, if_neg beyond,
        if_neg nonzero] at same
      exact absurd same nofun

end BinaryFormat

end SignatureVeil
