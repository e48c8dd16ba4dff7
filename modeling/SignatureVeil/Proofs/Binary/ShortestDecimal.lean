import Mathlib.Data.Nat.Cast.Order.Field
import SignatureVeil.Binary.Shortest
import SignatureVeil.Proofs.Binary.Nearest

/-!
# The decimal that names a magnitude

Whatever grid it is found on, the decimal that names a magnitude is rounded to
it, and it has at most nineteen digits.
-/

namespace SignatureVeil

/-- The number that a decimal stands for. -/
def Decimal.value (decimal : Decimal) : ℚ :=
  decimal.digits * 10 ^ decimal.exponent

/-! ## Powers of ten -/

theorem exists_toDigits_length {number : Nat} (positive : 0 < number) :
    ∃ less, (Nat.toDigits 10 number).length = less + 1 ∧
      10 ^ less ≤ number ∧ number < 10 ^ (less + 1) := by
  obtain ⟨less, length⟩ := Nat.exists_eq_add_one_of_ne_zero
    (Nat.length_toDigits_pos (b := 10) (n := number)).ne'
  refine ⟨less, length, ?_, ?_⟩
  · cases less with
    | zero => exact positive
    | succ less =>
        refine not_lt.mp fun small => ?_
        have := (Nat.length_toDigits_le_iff (by decide) less.succ_pos).mpr small
        omega
  · exact (Nat.length_toDigits_le_iff (by decide) less.succ_pos).mp length.le

/-- How many times a number fits into a larger one, but for a last time that
may fill it up. -/
theorem fits_ceil_sub_one {numerator denominator : Nat}
    (positive : 0 < numerator) (small : numerator < denominator) :
    0 < (denominator + numerator - 1) / numerator - 1 ∧
      ((denominator + numerator - 1) / numerator - 1) * numerator <
        denominator ∧
      denominator ≤
        ((denominator + numerator - 1) / numerator - 1 + 1) * numerator := by
  have rounded := Nat.div_add_mod' (denominator + numerator - 1) numerator
  have rest := Nat.mod_lt (denominator + numerator - 1) positive
  have twice : 2 ≤ (denominator + numerator - 1) / numerator := by
    rw [Nat.le_div_iff_mul_le positive]
    omega
  obtain ⟨times, fits⟩ := Nat.exists_eq_add_one_of_ne_zero
    (by omega : (denominator + numerator - 1) / numerator ≠ 0)
  rw [fits, Nat.succ_mul] at rounded
  rw [fits, Nat.add_sub_cancel, Nat.succ_mul]
  omega

theorem quotientLog10_bounds {numerator denominator : Nat}
    (positive : 0 < numerator) (positive' : 0 < denominator) :
    (10 : ℚ) ^ quotientLog10 numerator denominator ≤ numerator / denominator ∧
      (numerator / denominator : ℚ) <
        10 ^ (quotientLog10 numerator denominator + 1) := by
  have numeratorPos : (0 : ℚ) < numerator := by exact_mod_cast positive
  have denominatorPos : (0 : ℚ) < denominator := by exact_mod_cast positive'
  unfold quotientLog10
  split
  case isTrue large =>
    obtain ⟨less, length, low, high⟩ := exists_toDigits_length
      (Nat.div_pos large positive')
    rw [Nat.le_div_iff_mul_le positive'] at low
    rw [Nat.div_lt_iff_lt_mul positive'] at high
    rw [length, Nat.cast_succ, add_sub_cancel_right, le_div_iff₀ denominatorPos,
      div_lt_iff₀ denominatorPos]
    exact ⟨by exact_mod_cast low, by exact_mod_cast high⟩
  case isFalse small =>
    obtain ⟨some, below, above⟩ := fits_ceil_sub_one positive (not_le.mp small)
    generalize (denominator + numerator - 1) / numerator - 1 = times
      at some below above ⊢
    obtain ⟨less, length, low, high⟩ := exists_toDigits_length some
    have below : 10 ^ less * numerator < denominator :=
      (Nat.mul_le_mul_right numerator low).trans_lt below
    have above : denominator ≤ 10 ^ (less + 1) * numerator :=
      above.trans (Nat.mul_le_mul_right numerator high)
    rw [length, le_div_iff₀ denominatorPos,
      div_lt_iff₀ denominatorPos, zpow_neg, ← div_eq_inv_mul,
      div_le_iff₀ (by positivity)]
    constructor
    · rw [mul_comm]
      exact_mod_cast above
    · have exponent : (-((less + 1 : Nat) : Int)) + 1 = -(less : Int) := by
        omega
      rw [exponent, zpow_neg, ← div_eq_inv_mul, lt_div_iff₀ (by positivity),
        mul_comm]
      exact_mod_cast below

/-! ## Rounding intervals -/

namespace RoundingInterval

theorem holds_iff {interval : RoundingInterval} {candidate : Nat}
    {exponent : Int} (positive : 0 < interval.denominator)
    (holds : interval.holds candidate exponent = true) :
    (interval.low / interval.denominator : ℚ) ≤ candidate * 10 ^ exponent ∧
      candidate * (10 : ℚ) ^ exponent ≤
        interval.high / interval.denominator := by
  have inside : interval.low * Nat.pow 10 (-exponent).toNat ≤
        candidate * Nat.pow 10 exponent.toNat * interval.denominator ∧
      candidate * Nat.pow 10 exponent.toNat * interval.denominator ≤
        interval.high * Nat.pow 10 (-exponent).toNat := by
    simp only [RoundingInterval.holds] at holds
    split at holds <;>
      simp only [Bool.and_eq_true, decide_eq_true_eq] at holds <;> omega
  have denominatorPos : (0 : ℚ) < interval.denominator := by
    exact_mod_cast positive
  rw [zpow_eq_div (by norm_num), mul_div_assoc', div_le_div_iff₀
    denominatorPos (by positivity), div_le_div_iff₀ (by positivity)
    denominatorPos]
  exact_mod_cast inside

section

variable (format : BinaryFormat) (magnitude : Nat)

theorem denominator_pos : 0 < (ofMagnitude format magnitude).denominator :=
  Nat.pow_pos Nat.two_pos

/-- The bounds of an interval are given in quarters of a gap. -/
theorem quarters_div (quarters : Nat) :
    ((quarters * Nat.pow 2 (format.scale magnitude - 2).toNat : Nat) : ℚ) /
        (ofMagnitude format magnitude).denominator =
      quarters * format.gap magnitude / 4 := by
  have split := zpow_eq_div (two_ne_zero (α := ℚ)) (format.scale magnitude - 2)
  rw [zpow_sub₀ two_ne_zero] at split
  have unit : (Nat.pow 2 (format.scale magnitude - 2).toNat : ℚ) /
      (ofMagnitude format magnitude).denominator =
        format.gap magnitude / 4 := by
    rw [BinaryFormat.gap, ofMagnitude]
    push_cast
    norm_num at split ⊢
    exact split.symm
  rw [Nat.cast_mul, mul_div_assoc, unit, mul_div_assoc]

theorem value_div :
    ((ofMagnitude format magnitude).value /
        (ofMagnitude format magnitude).denominator : ℚ) =
      format.value magnitude := by
  have quarters := quarters_div format magnitude
    (4 * format.significand magnitude)
  rw [ofMagnitude] at quarters ⊢
  rw [quarters, BinaryFormat.value, BinaryFormat.gap]
  push_cast
  ring

theorem high_div :
    ((ofMagnitude format magnitude).high /
        (ofMagnitude format magnitude).denominator : ℚ) =
      format.middle magnitude := by
  have quarters := quarters_div format magnitude
    (4 * format.significand magnitude + 2)
  rw [ofMagnitude] at quarters ⊢
  rw [quarters, BinaryFormat.middle, BinaryFormat.value, BinaryFormat.gap]
  push_cast
  ring

/-- The first number of a binade but the first two has a narrow gap below. -/
theorem narrow_iff {magnitude exponent rest : Nat}
    (parts : format.IsParts magnitude exponent rest) :
    (magnitude % format.hiddenBit = 0 ∧ 2 * format.hiddenBit ≤ magnitude) ↔
      0 < exponent ∧ rest = format.hiddenBit := by
  have hidden := format.hiddenBit_pos
  obtain ⟨rfl, normal, bounded⟩ := parts
  constructor
  · rintro ⟨divisible, large⟩
    have raised : exponent ≠ 0 := by
      rintro rfl
      omega
    rw [Nat.mul_add_mod', Nat.mod_eq_sub_mod (by omega),
      Nat.mod_eq_of_lt (by omega)] at divisible
    omega
  · rintro ⟨raised, rfl⟩
    have := Nat.le_mul_of_pos_left format.hiddenBit raised
    exact ⟨by rw [Nat.add_mod_right, Nat.mul_mod_left], by omega⟩

/-- The gap is narrow below the first number of a binade. -/
theorem low_div (previous : Nat) :
    ((ofMagnitude format (previous + 1)).low /
        (ofMagnitude format (previous + 1)).denominator : ℚ) =
      format.middle previous := by
  have hidden := format.hiddenBit_pos
  obtain ⟨exponent, rest, parts⟩ := format.exists_isParts previous
  rcases parts.next with next | ⟨last, next⟩
  · have wide := (narrow_iff format next).not.mpr (by
      rcases parts.normal with zero | normal <;> omega)
    have quarters := quarters_div format (previous + 1)
      (4 * format.significand (previous + 1) - 2)
    have same : format.gap (previous + 1) = format.gap previous := by
      rw [next.gap_eq, parts.gap_eq]
    rw [ofMagnitude] at quarters ⊢
    simp only [if_neg wide]
    rw [quarters, next.significand_scale.1, same, BinaryFormat.middle,
      parts.value_eq, ← parts.gap_eq]
    have cast : ((4 * (rest + 1) - 2 : Nat) : ℚ) = 4 * rest + 2 := by
      rw [Nat.mul_add, Nat.add_sub_assoc (by decide)]
      push_cast
      ring
    rw [cast]
    ring
  · have narrow := (narrow_iff format next).mpr ⟨exponent.succ_pos, rfl⟩
    have quarters := quarters_div format (previous + 1)
      (4 * format.significand (previous + 1) - 1)
    have double : format.gap (previous + 1) = 2 * format.gap previous := by
      rw [next.gap_eq, parts.gap_eq, Nat.cast_succ, ← add_assoc,
        zpow_add_one₀ two_ne_zero, mul_comm]
    rw [ofMagnitude] at quarters ⊢
    simp only [if_pos narrow]
    rw [quarters, next.significand_scale.1, double, BinaryFormat.middle,
      parts.value_eq, ← parts.gap_eq]
    have last' : (rest : ℚ) + 1 = 2 * format.hiddenBit := by
      exact_mod_cast last
    rw [Nat.cast_sub (by omega)]
    push_cast
    linear_combination -format.gap previous * last'

end

/-! ## The search -/

theorem holds_of_gridPoint? {interval : RoundingInterval} {exponent : Int}
    {found : Decimal} (hit : interval.gridPoint? exponent = some found) :
    interval.holds found.digits found.exponent = true ∧
      found.exponent = exponent := by
  simp only [gridPoint?] at hit
  split at hit
  · obtain rfl := Option.some.inj hit
    exact ⟨‹_›, rfl⟩
  · split at hit
    · obtain rfl := Option.some.inj hit
      exact ⟨‹_›, rfl⟩
    · split at hit
      · obtain rfl := Option.some.inj hit
        exact ⟨‹_›, rfl⟩
      · contradiction

/-- The search ends on a grid that is no finer than the last one, either with
a point that lies in the interval or with the last point below its value. -/
theorem searchGrid_inv (interval : RoundingInterval) (tries : Nat)
    (exponent : Int) :
    exponent - tries ≤ (interval.searchGrid tries exponent).exponent ∧
      (interval.holds (interval.searchGrid tries exponent).digits
          (interval.searchGrid tries exponent).exponent = true ∨
        interval.searchGrid tries exponent =
          ⟨interval.value * Nat.pow 10 (-(exponent - tries)).toNat /
            (interval.denominator * Nat.pow 10 (exponent - tries).toNat),
            exponent - tries⟩) := by
  induction tries generalizing exponent with
  | zero => simp [searchGrid]
  | succ tries ih =>
      rw [searchGrid]
      cases hit : interval.gridPoint? exponent with
      | some found =>
          obtain ⟨holds, same⟩ := holds_of_gridPoint? hit
          exact ⟨by rw [same]; omega, .inl holds⟩
      | none =>
          have later := ih (exponent - 1)
          have last : exponent - 1 - (tries : Int) = exponent - (tries + 1 : Nat) := by
            omega
          rw [last] at later
          exact later

/-- The last point of a grid that is not above a quotient. -/
theorem floor_bounds (value : Nat) {denominator : Nat}
    (positive : 0 < denominator) (exponent : Int) :
    ((value * Nat.pow 10 (-exponent).toNat /
        (denominator * Nat.pow 10 exponent.toNat) : Nat) : ℚ) * 10 ^ exponent ≤
        value / denominator ∧
      (value / denominator : ℚ) ≤
        ((value * Nat.pow 10 (-exponent).toNat /
          (denominator * Nat.pow 10 exponent.toNat) : Nat) : ℚ) *
          10 ^ exponent + 10 ^ exponent := by
  have unit : (0 : ℚ) < 10 ^ exponent := by positivity
  have denominatorPos : (0 : ℚ) < denominator := by exact_mod_cast positive
  have divisor : 0 < denominator * Nat.pow 10 exponent.toNat :=
    Nat.mul_pos positive (Nat.pow_pos (by decide))
  have scaled : (value / denominator : ℚ) =
      ((value * Nat.pow 10 (-exponent).toNat : Nat) : ℚ) /
        ((denominator * Nat.pow 10 exponent.toNat : Nat) : ℚ) *
          10 ^ exponent := by
    rw [zpow_eq_div (by norm_num)]
    rw [Nat.cast_mul, Nat.cast_mul, cast_natPow, cast_natPow]
    field_simp
  generalize value * Nat.pow 10 (-exponent).toNat = top at scaled ⊢
  generalize denominator * Nat.pow 10 exponent.toNat = bottom at scaled divisor ⊢
  have bottomPos : (0 : ℚ) < bottom := by exact_mod_cast divisor
  have low : ((top / bottom : Nat) : ℚ) ≤ top / bottom := Nat.cast_div_le
  have high : (top / bottom : ℚ) ≤ ((top / bottom : Nat) : ℚ) + 1 := by
    rw [div_le_iff₀ bottomPos]
    exact_mod_cast (Nat.lt_div_mul_add divisor).le.trans_eq (by ring)
  rw [scaled]
  constructor
  · exact mul_le_mul_of_nonneg_right low unit.le
  · rw [← add_one_mul]
    exact mul_le_mul_of_nonneg_right high unit.le

end RoundingInterval

namespace BinaryFormat

variable {format : BinaryFormat}

section

variable {magnitude : Nat} (positive : 0 < magnitude)

include positive

/-- The exponent of the first digit of a number. -/
theorem leadingExponent_bounds :
    (10 : ℚ) ^ quotientLog10 (RoundingInterval.ofMagnitude format magnitude).value
        (RoundingInterval.ofMagnitude format magnitude).denominator ≤
        format.value magnitude ∧
      format.value magnitude <
        10 ^ (quotientLog10
          (RoundingInterval.ofMagnitude format magnitude).value
          (RoundingInterval.ofMagnitude format magnitude).denominator + 1) := by
  have denominatorPos := RoundingInterval.denominator_pos format magnitude
  have whole := RoundingInterval.value_div format magnitude
  have valuePos : 0 < format.value magnitude := value_pos positive
  have numeratorPos :
      0 < (RoundingInterval.ofMagnitude format magnitude).value := by
    refine Nat.pos_of_ne_zero fun zero => ?_
    rw [zero, Nat.cast_zero, zero_div] at whole
    exact valuePos.ne whole
  rw [← whole]
  exact quotientLog10_bounds numeratorPos denominatorPos

omit positive in
/-- Seventeen digits behind the leading one are much finer than a gap. -/
theorem pow_sub_mul_le_gap (parts : Nat)
    (narrow : 2 * format.hiddenBit * parts ≤ Nat.pow 10 17)
    {leading : Int} (low : (10 : ℚ) ^ leading ≤ format.value (magnitude + 1)) :
    (10 : ℚ) ^ (leading - 17) * parts ≤ format.gap magnitude := by
  have narrow' : (2 * format.hiddenBit * parts : ℚ) ≤ 10 ^ 17 := by
    exact_mod_cast narrow
  have gap := format.gap_pos magnitude
  rw [zpow_sub₀ (by norm_num), div_mul_eq_mul_div, div_le_iff₀ (by positivity)]
  calc (10 : ℚ) ^ leading * parts
      ≤ 2 * format.hiddenBit * format.gap magnitude * parts := by
        have := low.trans (format.value_succ_le magnitude)
        gcongr
    _ = 2 * format.hiddenBit * parts * format.gap magnitude := by ring
    _ ≤ 10 ^ 17 * format.gap magnitude := by gcongr
    _ = format.gap magnitude * 10 ^ (17 : Int) := by
        rw [mul_comm]
        norm_num

/-- The shortest decimal is rounded to the magnitude that it names. -/
theorem rounds_shortest (narrow : 4 * format.hiddenBit ≤ Nat.pow 10 17) :
    format.Rounds (format.shortest magnitude).value magnitude := by
  obtain ⟨previous, rfl⟩ := Nat.exists_eq_add_one_of_ne_zero positive.ne'
  obtain ⟨low, -⟩ := @leadingExponent_bounds format _ positive
  have denominatorPos := RoundingInterval.denominator_pos format (previous + 1)
  rw [shortest]
  generalize quotientLog10
    (RoundingInterval.ofMagnitude format (previous + 1)).value
    (RoundingInterval.ofMagnitude format (previous + 1)).denominator =
      leading at low ⊢
  rcases (RoundingInterval.searchGrid_inv
    (.ofMagnitude format (previous + 1)) 17 leading).2 with holds | last
  · have inside := RoundingInterval.holds_iff denominatorPos holds
    rw [RoundingInterval.low_div, RoundingInterval.high_div] at inside
    exact ⟨inside.2, fun other same => by
      obtain rfl := Nat.succ_injective same
      exact inside.1⟩
  · have floor := RoundingInterval.floor_bounds
      (RoundingInterval.ofMagnitude format (previous + 1)).value
      denominatorPos (leading - 17)
    rw [RoundingInterval.value_div] at floor
    have finest := pow_sub_mul_le_gap 2 (by linarith) low
    rw [Nat.cast_ofNat] at finest
    have next := format.value_succ previous
    rw [last]
    refine ⟨?_, fun other same => ?_⟩
    · have := format.gap_pos (previous + 1)
      rw [middle]
      exact floor.1.trans (by linarith)
    · obtain rfl := Nat.succ_injective same
      rw [middle, Decimal.value]
      linarith [floor.2]

theorem digits_shortest_pos (narrow : 4 * format.hiddenBit ≤ Nat.pow 10 17) :
    0 < (format.shortest magnitude).digits := by
  obtain ⟨previous, rfl⟩ := Nat.exists_eq_add_one_of_ne_zero positive.ne'
  have := (format.middle_pos previous).trans_le
    ((rounds_shortest positive narrow).middle_le previous rfl)
  refine Nat.pos_of_ne_zero fun zero => this.ne' ?_
  rw [Decimal.value, zero, Nat.cast_zero, zero_mul]

/-- The shortest decimal has at most nineteen digits. -/
theorem digits_shortest_lt (narrow : 4 * format.hiddenBit ≤ Nat.pow 10 17) :
    (format.shortest magnitude).digits < Nat.pow 10 19 := by
  have rounds := rounds_shortest positive narrow
  obtain ⟨-, high⟩ := @leadingExponent_bounds format _ positive
  obtain ⟨grid, -⟩ := RoundingInterval.searchGrid_inv
    (.ofMagnitude format magnitude) 17 (quotientLog10
      (RoundingInterval.ofMagnitude format magnitude).value
      (RoundingInterval.ofMagnitude format magnitude).denominator)
  rw [← shortest] at grid
  generalize quotientLog10
    (RoundingInterval.ofMagnitude format magnitude).value
    (RoundingInterval.ofMagnitude format magnitude).denominator =
      leading at high grid
  have gap : format.gap magnitude ≤ format.value magnitude := by
    simpa using mul_gap_le_value format.hiddenBit_pos positive
  have upper : (format.shortest magnitude).value <
      2 * 10 ^ 18 * 10 ^ (leading - 17) := by
    calc (format.shortest magnitude).value
        ≤ format.middle magnitude := rounds.le_middle
      _ < 2 * 10 ^ (leading + 1) := by
          have := format.gap_pos magnitude
          rw [middle]
          linarith
      _ = 2 * 10 ^ 18 * 10 ^ (leading - 17) := by
          have split : leading + 1 = 18 + (leading - 17) := by omega
          rw [split, zpow_add₀ (by norm_num), mul_assoc]
          norm_num
  have scaled : (10 : ℚ) ^ (leading - 17) ≤
      10 ^ (format.shortest magnitude).exponent :=
    zpow_le_zpow_right₀ (by norm_num) grid
  have unit : (0 : ℚ) < 10 ^ (leading - 17) := by positivity
  have digits : ((format.shortest magnitude).digits : ℚ) < 2 * 10 ^ 18 := by
    refine lt_of_mul_lt_mul_right ?_ unit.le
    exact (mul_le_mul_of_nonneg_left scaled (Nat.cast_nonneg _)).trans_lt
      upper
  have small : (2 * 10 ^ 18 : ℚ) ≤ ((Nat.pow 10 19 : Nat) : ℚ) := by
    norm_num
  exact_mod_cast digits.trans_le small

end

end BinaryFormat

end SignatureVeil
