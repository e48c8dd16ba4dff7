import SignatureVeil.Proofs.Binary.DecimalScaling
import SignatureVeil.Proofs.Binary.Widening

/-!
# Decimals that are read exactly

Whole numbers below `2 ^ 53` and the first powers of ten are numbers with 64
bits.  A product or a quotient of the two is one too only if the power of five
divides a number below `2 ^ 53`; then nothing is rounded when it is read.
-/

namespace SignatureVeil

namespace BinaryFormat

section

variable {format : BinaryFormat} {magnitude found : Nat}

theorem Rounds.eq_of_value
    (rounds : format.Rounds (format.value magnitude) found) :
    found = magnitude := by
  refine rounds.eq_of_between ?_
    (lt_add_of_pos_right _ (half_pos (format.gap_pos magnitude)))
  rintro previous rfl
  exact middle_lt_value_succ format previous

theorem nearest_of_value_eq {numerator denominator : Nat}
    (finite : magnitude < format.infinity) (positive : 0 < denominator)
    (same : (numerator / denominator : ℚ) = format.value magnitude) :
    format.nearest numerator denominator = magnitude := by
  apply nearest_eq_of_between finite positive <;> rw [same]
  · rintro previous rfl
    exact middle_lt_value_succ format previous
  · exact lt_add_of_pos_right _ (half_pos (format.gap_pos magnitude))

end

/-- A whole number that a magnitude stands for exactly. -/
structure ExactWhole (number magnitude : Nat) : Prop where
  positive : 0 < magnitude
  value_eq : double.value magnitude = number
  nearest_eq : double.nearest number 1 = magnitude

theorem exists_exactWhole {multiple : Nat} (scale : Nat)
    (positive : 0 < multiple) (bounded : multiple < 2 ^ 53) (high : scale ≤ 900) :
    ∃ magnitude, ExactWhole (multiple * 2 ^ scale) magnitude := by
  obtain ⟨magnitude, shift, -, enough, fits, values⟩ :=
    exists_double multiple scale positive bounded (by omega) (by omega)
  have value := values 0 (Nat.zero_le _)
  rw [Nat.add_zero, Nat.cast_zero, zero_div, add_zero, zpow_natCast] at value
  have value' : double.value magnitude = (multiple * 2 ^ scale : Nat) := by
    rw [value]
    push_cast
    rfl
  have finite : magnitude < double.infinity :=
    (Nat.le_add_right _ _).trans_lt fits
  refine ⟨magnitude, by omega, value',
    nearest_of_value_eq finite Nat.one_pos ?_⟩
  rw [value', Nat.cast_one, div_one]

/-- Few digits are read exactly. -/
theorem exists_exactWhole_digits {digits : Nat} (positive : 0 < digits)
    (bounded : digits < 2 ^ 53) : ∃ magnitude, ExactWhole digits magnitude := by
  simpa using exists_exactWhole 0 positive bounded (by decide)

theorem exactWhole_powerOfTen {power : Nat} (small : power ≤ 22) :
    ExactWhole (10 ^ power) (double.powerOfTen power) := by
  have split : 10 ^ power = 5 ^ power * 2 ^ power := by
    rw [← Nat.mul_pow]
  have bounded : 5 ^ power < 2 ^ 53 :=
    (Nat.pow_le_pow_right (by decide) small).trans_lt (by decide)
  obtain ⟨magnitude, isWhole⟩ := exists_exactWhole power
    (Nat.pow_pos (by decide)) bounded (by omega)
  rw [← split] at isWhole
  have same : double.powerOfTen power = magnitude := isWhole.nearest_eq
  rwa [same]

/-! ## Powers of five -/

/-- The power of five in a power of ten can only be made up by the other
factor. -/
theorem power_le_of_mul_eq {first second power weight weight' : Nat}
    (positive : 0 < second) (bounded : second < 2 ^ 53)
    (same : first * 10 ^ power * 2 ^ weight = second * 2 ^ weight') :
    power ≤ 22 := by
  have divides : 5 ^ power ∣ second := by
    refine Nat.Coprime.dvd_of_dvd_mul_right (k := 5 ^ power) (n := 2 ^ weight')
      (Nat.Coprime.pow _ _ (by decide)) ⟨first * 2 ^ power * 2 ^ weight, ?_⟩
    rw [← same, (by rfl : 10 = 5 * 2), Nat.mul_pow]
    ring
  by_contra large
  have := calc 2 ^ 53
      ≤ 5 ^ 23 := by decide
    _ ≤ 5 ^ power := Nat.pow_le_pow_right (by decide) (not_le.mp large)
    _ ≤ second := Nat.le_of_dvd positive divides
  omega

theorem power_bounds {digits multiple : Nat} {power scale : Int}
    (positive : 0 < digits) (bounded : digits < 2 ^ 53)
    (bounded' : multiple < 2 ^ 53)
    (same : (digits * 10 ^ power : ℚ) = multiple * 2 ^ scale) :
    -22 ≤ power ∧ power ≤ 22 := by
  have positive' : 0 < multiple := by
    refine Nat.pos_of_ne_zero ?_
    rintro rfl
    have : (0 : ℚ) < digits * 10 ^ power := by positivity
    rw [same, Nat.cast_zero, zero_mul] at this
    exact lt_irrefl _ this
  rw [zpow_eq_div (by norm_num), zpow_eq_div two_ne_zero, mul_div_assoc',
    mul_div_assoc', div_eq_div_iff (by positivity) (by positivity)] at same
  have same' : digits * 10 ^ power.toNat * 2 ^ (-scale).toNat =
      multiple * 2 ^ scale.toNat * 10 ^ (-power).toNat := by
    exact_mod_cast same
  rcases le_total 0 power with raises | lowers
  · have none : (-power).toNat = 0 := by omega
    rw [none, Nat.pow_zero, Nat.mul_one] at same'
    have := power_le_of_mul_eq positive' bounded' same'
    omega
  · have none : power.toNat = 0 := by omega
    rw [none, Nat.pow_zero, Nat.mul_one, Nat.mul_right_comm] at same'
    have := power_le_of_mul_eq positive bounded same'.symm
    omega

theorem significand_double_lt {magnitude : Nat} :
    double.significand magnitude < 2 ^ 53 := by
  have hidden : double.hiddenBit = 2 ^ 52 := by decide
  unfold significand
  rw [hidden]
  split <;> omega

/-- A decimal of few digits is read exactly if it is a number with 64 bits. -/
theorem scaleByTen?_of_value_eq {digits magnitude : Nat} {power : Int}
    (positive : 0 < digits) (bounded : digits < 2 ^ 53)
    (finite : magnitude < double.infinity)
    (same : digits * 10 ^ power = double.value magnitude) :
    double.scaleByTen? (double.nearest digits 1) power = some magnitude := by
  obtain ⟨low, high⟩ :=
    power_bounds positive bounded significand_double_lt same
  obtain ⟨first, isWhole⟩ := exists_exactWhole_digits positive bounded
  rw [isWhole.nearest_eq]
  have fits : double.value magnitude < double.middle magnitude :=
    lt_add_of_pos_right _ (half_pos (double.gap_pos magnitude))
  rcases lt_or_ge power 0 with lowers | raises
  · obtain ⟨power', rfl⟩ := Int.exists_eq_neg_ofNat lowers.le
    have isPower := exactWhole_powerOfTen (by omega : power' ≤ 22)
    have quotient : double.value first /
        double.value (double.powerOfTen power') = double.value magnitude := by
      rw [isWhole.value_eq, isPower.value_eq, ← same, zpow_neg, zpow_natCast,
        ← div_eq_mul_inv, Nat.cast_pow, Nat.cast_ofNat]
    obtain ⟨rounds, -⟩ := rounds_divide finite isWhole.positive isPower.positive
      (quotient.trans_lt fits)
    rw [quotient] at rounds
    rw [scaleByTen?_of_neg _ lowers (by unfold largestPower; omega), neg_neg,
      Int.toNat_natCast, rounds.eq_of_value]
  · obtain ⟨power', rfl⟩ := Int.eq_ofNat_of_zero_le raises
    have isPower := exactWhole_powerOfTen (by omega : power' ≤ 22)
    have product : double.value first *
        double.value (double.powerOfTen power') = double.value magnitude := by
      rw [isWhole.value_eq, isPower.value_eq, ← same, zpow_natCast, Nat.cast_pow,
        Nat.cast_ofNat]
    obtain ⟨rounds, -⟩ := rounds_multiply finite isWhole.positive
      isPower.positive (product.trans_lt fits)
    rw [product] at rounds
    have result := rounds.eq_of_value
    rw [scaleByTen?_of_nonneg raises (by unfold largestPower; omega)] <;>
      rw [Int.toNat_natCast, result]
    exact finite

end BinaryFormat

end SignatureVeil
