import Mathlib.Data.Nat.Log
import SignatureVeil.Binary.Scaling
import SignatureVeil.Proofs.Binary.Rounding

/-!
# Quotients, products and powers, rounded

The nearest magnitude to a quotient is what the quotient is rounded to, but
for those that are too large.
-/

namespace SignatureVeil

/-! ## Whole numbers -/

theorem roundQuotient_bounds (numerator : Nat) {denominator : Nat}
    (positive : 0 < denominator) :
    2 * (roundQuotient numerator denominator * denominator) ≤
        2 * numerator + denominator ∧
      2 * numerator ≤
        2 * (roundQuotient numerator denominator * denominator) +
          denominator := by
  have parts := Nat.div_add_mod' numerator denominator
  have small := Nat.mod_lt numerator positive
  have even := Nat.mod_lt (numerator / denominator) Nat.two_pos
  unfold roundQuotient
  simp only []
  generalize numerator / denominator = whole at *
  generalize numerator % denominator = rest at *
  split
  · omega
  · split
    · rw [Nat.add_mul, Nat.one_mul]
      omega
    · rcases Nat.mod_two_eq_zero_or_one whole with even | odd
      · rw [even, Nat.add_zero]
        omega
      · rw [odd, Nat.add_mul, Nat.one_mul]
        omega

/-- A power whose exponent may be negative, as a quotient of powers. -/
theorem zpow_eq_div {base : ℚ} (nonzero : base ≠ 0) (exponent : Int) :
    base ^ exponent = base ^ exponent.toNat / base ^ (-exponent).toNat := by
  rw [← zpow_natCast, ← zpow_natCast, ← zpow_sub₀ nonzero]
  congr 1
  omega

theorem cast_natPow (base power : Nat) [base.AtLeastTwo] :
    ((Nat.pow (OfNat.ofNat base) power : Nat) : ℚ) = OfNat.ofNat base ^ power :=
  Nat.cast_pow base power

theorem zpow_le_div_iff {base : Nat} (positive : 0 < base) (exponent : Int)
    (numerator : Nat) {denominator : Nat} (positive' : 0 < denominator) :
    (base : ℚ) ^ exponent ≤ numerator / denominator ↔
      denominator * Nat.pow base exponent.toNat ≤
        numerator * Nat.pow base (-exponent).toNat := by
  have nonzero : (base : ℚ) ≠ 0 := by exact_mod_cast positive.ne'
  rw [zpow_eq_div nonzero, div_le_div_iff₀ (by positivity)
    (by exact_mod_cast positive'), mul_comm]
  exact_mod_cast Iff.rfl

theorem quotientLog2_bounds {numerator denominator : Nat}
    (positive : 0 < numerator) (positive' : 0 < denominator) :
    (2 : ℚ) ^ quotientLog2 numerator denominator ≤ numerator / denominator ∧
      (numerator / denominator : ℚ) <
        2 ^ (quotientLog2 numerator denominator + 1) := by
  have low : (2 : ℚ) ^ (numerator.log2 : Int) ≤ numerator := by
    exact_mod_cast Nat.log2_self_le positive.ne'
  have high : (numerator : ℚ) < 2 ^ (numerator.log2 + 1 : Int) := by
    exact_mod_cast Nat.lt_log2_self
  have low' : (2 : ℚ) ^ (denominator.log2 : Int) ≤ denominator := by
    exact_mod_cast Nat.log2_self_le positive'.ne'
  have high' : (denominator : ℚ) < 2 ^ (denominator.log2 + 1 : Int) := by
    exact_mod_cast Nat.lt_log2_self
  have guessed := zpow_le_div_iff Nat.two_pos
    ((numerator.log2 : Int) - denominator.log2) numerator positive'
  push_cast at guessed
  unfold quotientLog2
  simp only []
  split
  case isTrue fits =>
    refine ⟨guessed.mpr fits, ?_⟩
    calc (numerator / denominator : ℚ)
        < 2 ^ (numerator.log2 + 1 : Int) / 2 ^ (denominator.log2 : Int) :=
          div_lt_div₀ high low' (by positivity) (by positivity)
      _ = 2 ^ ((numerator.log2 : Int) - denominator.log2 + 1) := by
          rw [← zpow_sub₀ two_ne_zero]
          ring_nf
  case isFalse fails =>
    refine ⟨?_, ?_⟩
    · calc (2 : ℚ) ^ ((numerator.log2 : Int) - denominator.log2 - 1)
          = 2 ^ (numerator.log2 : Int) / 2 ^ (denominator.log2 + 1 : Int) := by
            rw [← zpow_sub₀ two_ne_zero]
            ring_nf
        _ ≤ numerator / denominator :=
            div_le_div₀ (by positivity) low (by exact_mod_cast positive')
              high'.le
    · rw [sub_add_cancel]
      exact not_le.mp (mt guessed.mp fails)

namespace BinaryFormat

variable {format : BinaryFormat}

/-- What a scaled quotient is rounded to is near the quotient. -/
theorem significand_near {numerator denominator significand : Nat}
    {scale : Int} (positive : 0 < denominator)
    (closeness : 2 * (significand * (denominator * Nat.pow 2 scale.toNat)) ≤
        2 * (numerator * Nat.pow 2 (-scale).toNat) +
          denominator * Nat.pow 2 scale.toNat ∧
      2 * (numerator * Nat.pow 2 (-scale).toNat) ≤
        2 * (significand * (denominator * Nat.pow 2 scale.toNat)) +
          denominator * Nat.pow 2 scale.toNat) :
    significand * (2 : ℚ) ^ scale ≤ numerator / denominator + 2 ^ scale / 2 ∧
      (numerator / denominator : ℚ) ≤
        significand * 2 ^ scale + 2 ^ scale / 2 := by
  obtain ⟨low, high⟩ := closeness
  have denominatorPos : (0 : ℚ) < denominator := by exact_mod_cast positive
  have weight : (0 : ℚ) < 2 * denominator * 2 ^ (-scale).toNat := by
    positivity
  rw [zpow_eq_div two_ne_zero]
  constructor <;> refine le_of_mul_le_mul_right ?_ weight
  · calc significand * ((2 : ℚ) ^ scale.toNat / 2 ^ (-scale).toNat) *
          (2 * denominator * 2 ^ (-scale).toNat)
        = 2 * (significand * (denominator * 2 ^ scale.toNat)) := by field_simp
      _ ≤ 2 * (numerator * 2 ^ (-scale).toNat) +
          denominator * 2 ^ scale.toNat := by exact_mod_cast low
      _ = (numerator / denominator +
          2 ^ scale.toNat / 2 ^ (-scale).toNat / 2) *
          (2 * denominator * 2 ^ (-scale).toNat) := by field_simp
  · calc numerator / denominator * (2 * denominator * 2 ^ (-scale).toNat)
        = 2 * (numerator * (2 : ℚ) ^ (-scale).toNat) := by field_simp
      _ ≤ 2 * (significand * (denominator * 2 ^ scale.toNat)) +
          denominator * 2 ^ scale.toNat := by exact_mod_cast high
      _ = (significand * (2 ^ scale.toNat / 2 ^ (-scale).toNat) +
          2 ^ scale.toNat / 2 ^ (-scale).toNat / 2) *
          (2 * denominator * 2 ^ (-scale).toNat) := by field_simp

section

variable {number : ℚ} {exponent significand : Nat} {scale : Int}
  (near : significand * (2 : ℚ) ^ scale ≤ number + 2 ^ scale / 2)
  (near' : number ≤ significand * 2 ^ scale + 2 ^ scale / 2)
  (normal : 0 < exponent → format.hiddenBit * (2 : ℚ) ^ scale ≤ number)
  (bounded : number < 2 * format.hiddenBit * (2 : ℚ) ^ scale)

include near near' normal bounded

/-- A number of a binade is near a significand of the binade, or near the
first one of the next binade. -/
theorem significand_bounds : (exponent = 0 ∨ format.hiddenBit ≤ significand) ∧
    significand ≤ 2 * format.hiddenBit := by
  have unit : (0 : ℚ) < 2 ^ scale := zpow_pos two_pos _
  constructor
  · by_contra less
    obtain ⟨raised, less⟩ := not_or.mp less
    have less' : (significand + 1 : ℚ) ≤ format.hiddenBit := by
      exact_mod_cast not_le.mp less
    have := normal (Nat.pos_of_ne_zero raised)
    have := mul_le_mul_of_nonneg_right less' unit.le
    linarith
  · by_contra more
    have more' : (2 * format.hiddenBit + 1 : ℚ) ≤ significand := by
      exact_mod_cast not_le.mp more
    have := mul_le_mul_of_nonneg_right more' unit.le
    linarith

/-- A quotient that is near a significand, taken so many times as to fill a
binade if it can. -/
theorem rounds_of_near (scaled : scale = format.leastScale + exponent) :
    format.Rounds number (exponent * format.hiddenBit + significand) := by
  have unit : (0 : ℚ) < 2 ^ scale := zpow_pos two_pos _
  obtain ⟨atLeast, atMost⟩ := significand_bounds near near' normal bounded
  have value := value_of_le atLeast atMost
  rw [← scaled] at value
  constructor
  · rcases Nat.lt_or_eq_of_le atMost with inside | last
    · have parts : format.IsParts (exponent * format.hiddenBit + significand)
          exponent significand := ⟨rfl, atLeast, inside⟩
      rw [middle, value, parts.gap_eq, ← scaled]
      exact near'
    · have last' : (significand : ℚ) = 2 * format.hiddenBit := by
        exact_mod_cast last
      have gap := format.gap_pos (exponent * format.hiddenBit + significand)
      rw [middle, value, last']
      linarith
  · intro previous next
    by_cases first : 0 < exponent ∧ significand = format.hiddenBit
    · -- the first of a binade is only rounded to from above
      have below := format.middle_lt_value_succ previous
      rw [← next, value, first.2] at below
      exact below.le.trans (normal first.1)
    · have hidden := format.hiddenBit_pos
      have filled : 0 < significand := by
        rcases atLeast with rfl | large
        · rw [Nat.zero_mul] at next
          omega
        · omega
      have parts : format.IsParts previous exponent (significand - 1) :=
        ⟨by omega, by omega, by omega⟩
      have successor := format.value_succ previous
      rw [← next, value, parts.gap_eq, ← scaled] at successor
      rw [middle, parts.gap_eq, ← scaled]
      linarith

end

/-- The nearest magnitude is what a quotient is rounded to, unless that is
too large. -/
theorem exists_rounds_nearest (format : BinaryFormat)
    {numerator denominator : Nat} (positive : 0 < numerator)
    (positive' : 0 < denominator) :
    ∃ magnitude, format.Rounds (numerator / denominator) magnitude ∧
      format.nearest numerator denominator =
        min format.infinity magnitude := by
  obtain ⟨low, high⟩ := quotientLog2_bounds positive positive'
  rw [nearest, if_neg positive.ne']
  simp only []
  generalize quotientLog2 numerator denominator = log at low high
  generalize chosen : max format.leastScale (log - format.fractionBits) = scale
  obtain ⟨exponent, scaled⟩ : ∃ exponent : Nat,
      scale = format.leastScale + exponent :=
    ⟨(scale - format.leastScale).toNat, by omega⟩
  have closeness := roundQuotient_bounds
    (numerator * Nat.pow 2 (-scale).toNat)
    (Nat.mul_pos positive' (Nat.pow_pos Nat.two_pos) :
      0 < denominator * Nat.pow 2 scale.toNat)
  generalize roundQuotient (numerator * Nat.pow 2 (-scale).toNat)
    (denominator * Nat.pow 2 scale.toNat) = significand at closeness
  have unscaled : (scale - format.leastScale).toNat = exponent := by omega
  rw [unscaled]
  obtain ⟨near, near'⟩ := significand_near positive' closeness
  refine ⟨_, rounds_of_near near near' ?_ ?_ scaled, rfl⟩
  · intro raised
    have filled : scale + format.fractionBits = log := by omega
    refine le_of_eq_of_le ?_ low
    rw [← filled, zpow_add₀ two_ne_zero, cast_hiddenBit, mul_comm]
  · have filled : log + 1 ≤ scale + format.fractionBits + 1 := by omega
    refine high.trans_le ((zpow_le_zpow_right₀ one_le_two filled).trans_eq ?_)
    rw [zpow_add_one₀ two_ne_zero, zpow_add₀ two_ne_zero, cast_hiddenBit]
    ring

theorem significand_pos {magnitude : Nat} (positive : 0 < magnitude) :
    0 < format.significand magnitude := by
  have := format.hiddenBit_pos
  unfold significand
  split <;> omega

theorem value_pos {magnitude : Nat} (positive : 0 < magnitude) :
    0 < format.value magnitude := by
  rw [← (value_zero : format.value 0 = 0)]
  exact value_strictMono positive

/-- A product of two numbers, as a quotient of whole numbers. -/
theorem value_mul_value (first second : Nat) :
    format.value first * format.value second =
      ((format.significand first * format.significand second *
        Nat.pow 2 (format.scale first + format.scale second).toNat : Nat) : ℚ) /
        (Nat.pow 2 (-(format.scale first + format.scale second)).toNat :
          Nat) := by
  rw [value, value, mul_mul_mul_comm, ← zpow_add₀ two_ne_zero,
    zpow_eq_div two_ne_zero, Nat.cast_mul, Nat.cast_mul, cast_natPow,
    cast_natPow, mul_div_assoc]

section

variable {last : Nat} (finite : last < format.infinity)

include finite

theorem rounds_nearest {numerator denominator : Nat}
    (positive : 0 < numerator) (positive' : 0 < denominator)
    (fits : (numerator / denominator : ℚ) < format.middle last) :
    format.Rounds (numerator / denominator)
        (format.nearest numerator denominator) ∧
      format.nearest numerator denominator ≤ last := by
  obtain ⟨magnitude, rounds, same⟩ :=
    format.exists_rounds_nearest positive positive'
  have small := rounds.le_of_lt_middle fits
  rw [same, min_eq_right (small.trans finite.le)]
  exact ⟨rounds, small⟩

theorem rounds_multiply {first second : Nat} (positive : 0 < first)
    (positive' : 0 < second)
    (fits : format.value first * format.value second < format.middle last) :
    format.Rounds (format.value first * format.value second)
        (format.multiply first second) ∧
      format.multiply first second ≤ last := by
  rw [value_mul_value] at fits ⊢
  exact rounds_nearest finite
    (Nat.mul_pos (Nat.mul_pos (significand_pos positive)
      (significand_pos positive')) (Nat.pow_pos Nat.two_pos))
    (Nat.pow_pos Nat.two_pos) fits

theorem rounds_divide {first second : Nat} (positive : 0 < first)
    (positive' : 0 < second)
    (fits : format.value first / format.value second < format.middle last) :
    format.Rounds (format.value first / format.value second)
        (format.divide first second) ∧
      format.divide first second ≤ last := by
  have quotient : format.value first / format.value second =
      ((format.significand first *
        Nat.pow 2 (format.scale first - format.scale second).toNat : Nat) : ℚ) /
        (format.significand second *
          Nat.pow 2 (-(format.scale first - format.scale second)).toNat :
          Nat) := by
    rw [value, value, mul_div_mul_comm, ← zpow_sub₀ two_ne_zero,
      zpow_eq_div two_ne_zero, Nat.cast_mul, Nat.cast_mul, cast_natPow,
      cast_natPow, div_mul_div_comm]
  rw [quotient] at fits ⊢
  exact rounds_nearest finite
    (Nat.mul_pos (significand_pos positive) (Nat.pow_pos Nat.two_pos))
    (Nat.mul_pos (significand_pos positive') (Nat.pow_pos Nat.two_pos)) fits

end

end BinaryFormat

end SignatureVeil
