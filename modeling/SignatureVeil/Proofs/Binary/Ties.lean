import SignatureVeil.Proofs.Binary.Widening

/-!
# Ties

The middle between two neighbouring numbers is rounded to the one whose
magnitude is even.  The middle between two numbers with 32 bits is a number
with 64 bits, and it is narrowed to the even one of the two; what is on one
side of it is narrowed to the number on that side.
-/

namespace SignatureVeil

/-- A quotient half way between two whole numbers is rounded to the even
one. -/
theorem roundQuotient_half {numerator denominator whole : Nat}
    (positive : 0 < denominator)
    (half : 2 * numerator = (2 * whole + 1) * denominator) :
    roundQuotient numerator denominator = whole + whole % 2 := by
  have quotient : numerator / denominator = whole := by
    rw [Nat.div_eq_iff positive]
    rw [Nat.add_mul, Nat.mul_assoc, Nat.one_mul] at half
    omega
  have parts := Nat.div_add_mod' numerator denominator
  rw [quotient] at parts
  have rest : 2 * (numerator % denominator) = denominator := by
    linarith
  rw [roundQuotient, quotient]
  simp only [rest, lt_irrefl, if_false]

namespace BinaryFormat

section

variable {format : BinaryFormat} {magnitude exponent rest : Nat}

theorem IsParts.middle_eq (parts : format.IsParts magnitude exponent rest) :
    format.middle magnitude =
      (2 * rest + 1 : Nat) / 2 * 2 ^ (format.leastScale + exponent) := by
  rw [middle, parts.value_eq, parts.gap_eq]
  push_cast
  ring

/-- The scale that a middle is rounded on is that of the two numbers. -/
theorem IsParts.scale_of_middle
    (parts : format.IsParts magnitude exponent rest) {log : Int}
    (low : (2 : ℚ) ^ log ≤ format.middle magnitude)
    (high : format.middle magnitude < 2 ^ (log + 1)) :
    max format.leastScale (log - format.fractionBits) =
      format.leastScale + exponent := by
  have unit : (0 : ℚ) < 2 ^ (format.leastScale + (exponent : Int)) := by
    positivity
  have hidden := cast_hiddenBit format
  have below : log < format.leastScale + exponent + format.fractionBits + 1 := by
    rw [← zpow_lt_zpow_iff_right₀ (one_lt_two : (1 : ℚ) < 2)]
    refine low.trans_lt ?_
    have bounded : ((2 * rest + 1 : Nat) : ℚ) < 4 * format.hiddenBit := by
      have := parts.bounded
      exact_mod_cast (by omega : 2 * rest + 1 < 4 * format.hiddenBit)
    rw [parts.middle_eq, zpow_add_one₀ two_ne_zero,
      zpow_add₀ two_ne_zero (format.leastScale + exponent), ← hidden]
    nlinarith
  rcases parts.normal with rfl | normal
  · omega
  · have above : format.leastScale + exponent + format.fractionBits < log + 1 := by
      rw [← zpow_lt_zpow_iff_right₀ (one_lt_two : (1 : ℚ) < 2)]
      refine lt_of_le_of_lt ?_ high
      have normal' : (format.hiddenBit : ℚ) ≤ rest := by exact_mod_cast normal
      rw [parts.middle_eq,
        zpow_add₀ two_ne_zero (format.leastScale + exponent), ← hidden]
      push_cast
      nlinarith
    omega

/-- Of the two numbers around a middle, the one whose magnitude is even is the
nearest. -/
theorem nearest_middle {numerator denominator : Nat}
    (positive : 0 < denominator) (even : format.hiddenBit % 2 = 0)
    (finite : magnitude < format.infinity)
    (same : (numerator / denominator : ℚ) = format.middle magnitude) :
    format.nearest numerator denominator = magnitude + magnitude % 2 := by
  have denominatorPos : (0 : ℚ) < denominator := by exact_mod_cast positive
  have nonzero : numerator ≠ 0 := by
    rintro rfl
    have := format.middle_pos magnitude
    rw [Nat.cast_zero, zero_div] at same
    linarith
  obtain ⟨exponent, rest, parts⟩ := format.exists_isParts magnitude
  obtain ⟨low, high⟩ :=
    quotientLog2_bounds (Nat.pos_of_ne_zero nonzero) positive
  rw [same] at low high
  have scale := parts.scale_of_middle low high
  rw [nearest, if_neg nonzero]
  simp only [scale, add_sub_cancel_left, Int.toNat_natCast]
  -- on that scale, the quotient is half way between two whole numbers
  have split := zpow_eq_div (two_ne_zero (α := ℚ))
    (format.leastScale + (exponent : Int))
  have half : 2 * (numerator * Nat.pow 2
        (-(format.leastScale + (exponent : Int))).toNat) =
      (2 * rest + 1) * (denominator * Nat.pow 2
        (format.leastScale + (exponent : Int)).toNat) := by
    rw [parts.middle_eq, split, div_eq_iff denominatorPos.ne'] at same
    have : (2 * (numerator * 2 ^
          (-(format.leastScale + (exponent : Int))).toNat) : ℚ) =
        (2 * rest + 1 : Nat) * (denominator * 2 ^
          (format.leastScale + (exponent : Int)).toNat) := by
      rw [same]
      field_simp
    exact_mod_cast this
  have weighed : 0 < denominator * Nat.pow 2
      (format.leastScale + (exponent : Int)).toNat :=
    Nat.mul_pos positive (Nat.pow_pos Nat.two_pos)
  rw [roundQuotient_half weighed half, parts.sum, min_eq_right]
  · rw [← Nat.add_assoc, Nat.add_mod, Nat.mul_mod, even, Nat.mul_zero,
      Nat.zero_mod, Nat.zero_add, Nat.mod_mod]
  · have wide : format.infinity % 2 = 0 := by
      rw [infinity, Nat.mul_mod, even, Nat.mul_zero, Nat.zero_mod]
    have := parts.sum
    have parity := Nat.mul_mod exponent format.hiddenBit 2
    rw [even, Nat.mul_zero, Nat.zero_mod] at parity
    omega

end

/-! ## Both sides of a middle with 64 bits -/

section

variable {magnitude found scaled : Nat} {number : ℚ}
  (finite : magnitude < single.infinity)

include finite

/-- The middle between two numbers with 32 bits is a number with 64 bits, and
the numbers with 64 bits are close around it. -/
theorem exists_half :
    ∃ half : Nat, 3 ≤ half ∧ half + 3 < double.infinity ∧
      double.value half = single.middle magnitude ∧
      single.middle magnitude - 3 / 2 ^ 28 * (single.gap magnitude / 2) ≤
        double.value (half - 3) ∧
      double.value (half + 3) ≤
        single.middle magnitude +
          3 / 2 ^ 28 * (single.gap magnitude / 2) := by
  obtain ⟨bounded, low, high⟩ := single_bounds finite
  obtain ⟨half, shift, shifted, enough, fits, values⟩ :=
    exists_double (2 * single.significand magnitude + 1)
      (single.scale magnitude - 1) (by omega)
      (by
        have : 2 * single.significand magnitude + 1 < 2 ^ 25 := by omega
        exact this.trans (by decide)) (by omega) (by omega)
  have log : (2 * single.significand magnitude + 1).log2 < 25 :=
    (Nat.log2_lt (by omega)).mpr (by omega)
  have room : 2 ^ 28 ≤ 2 ^ shift :=
    Nat.pow_le_pow_right Nat.two_pos (by omega)
  have unit : (0 : ℚ) < 2 ^ (single.scale magnitude - 1) := by positivity
  have steps (more : Nat) (few : more ≤ 3) : double.value (half + more) =
      single.middle magnitude +
        more / 2 ^ shift * 2 ^ (single.scale magnitude - 1) := by
    rw [values more (by omega), middle_eq_odd_mul]
    ring
  have here := steps 0 (by omega)
  have next := steps 1 (by omega)
  rw [Nat.add_zero, Nat.cast_zero, zero_div, zero_mul, add_zero] at here
  rw [value_succ, here, add_right_inj, Nat.cast_one] at next
  have small : (3 : ℚ) / 2 ^ shift ≤ 3 / 2 ^ 28 := by
    have : (2 ^ 28 : ℚ) ≤ 2 ^ shift := by exact_mod_cast room
    gcongr
  have small' := mul_le_mul_of_nonneg_right small unit.le
  rw [half_gap_eq]
  refine ⟨half, by omega, by omega, here, ?_, ?_⟩
  · -- the gaps below are no wider than that above
    obtain ⟨less, rfl⟩ := Nat.exists_eq_add_of_le' (show 3 ≤ half by omega)
    have narrow := double.gap_le_gap_succ less
    have narrow' := double.gap_le_gap_succ (less + 1)
    have narrow'' := double.gap_le_gap_succ (less + 2)
    rw [← here, value_succ, value_succ, value_succ, Nat.add_sub_cancel]
    have : 3 / 2 ^ shift * (2 : ℚ) ^ (single.scale magnitude - 1) =
        3 * (1 / 2 ^ shift * 2 ^ (single.scale magnitude - 1)) := by
      ring
    linarith
  · rw [steps 3 le_rfl]
    exact add_le_add_right small' _

variable (rounds : double.Rounds number found)

include rounds

theorem value_lt_middle (near : scaled ≤ found + 2)
    (below : number ≤ single.middle magnitude -
      3 / 2 ^ 28 * (single.gap magnitude / 2)) :
    double.value scaled < single.middle magnitude := by
  have grows : StrictMono double.value := value_strictMono
  obtain ⟨half, enough, -, here, low, -⟩ := exists_half finite
  have notAbove : found ≤ half - 3 := by
    refine rounds.le_of_lt_middle ((below.trans low).trans_lt ?_)
    have := double.gap_pos (half - 3)
    rw [middle]
    linarith
  rw [← here]
  exact grows (by omega)

theorem middle_lt_value (near : found ≤ scaled + 2)
    (above : single.middle magnitude +
      3 / 2 ^ 28 * (single.gap magnitude / 2) ≤ number) :
    single.middle magnitude < double.value scaled := by
  have grows : StrictMono double.value := value_strictMono
  obtain ⟨half, -, -, here, -, high⟩ := exists_half finite
  have notBelow : half + 3 ≤ found :=
    rounds.le_of_value_le (high.trans above)
  rw [← here]
  exact grows (by omega)

end

end BinaryFormat

namespace Binary

open BinaryFormat

/-- A middle is converted to the even one of the magnitudes around it. -/
theorem convert_eq_of_middle {format target : BinaryFormat}
    {value : Binary format} {magnitude : Nat}
    (finite : value.magnitude < format.infinity)
    (even : target.hiddenBit % 2 = 0) (fits : magnitude < target.infinity)
    (same : format.value value.magnitude = target.middle magnitude) :
    value.convert target = ⟨value.negative, magnitude + magnitude % 2⟩ := by
  have number : ¬ value.isNaN = true := by
    rw [isNaN, decide_eq_true_eq]
    exact finite.asymm
  rw [value_eq_div] at same
  rw [convert, if_neg number, if_neg finite.ne]
  exact congrArg (Binary.mk value.negative)
    (nearest_middle (Nat.pow_pos Nat.two_pos) even fits same)

end Binary

end SignatureVeil
