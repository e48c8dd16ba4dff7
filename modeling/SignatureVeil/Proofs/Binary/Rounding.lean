import Mathlib.Algebra.Order.Ring.Pow
import Mathlib.Tactic.GCongr
import SignatureVeil.Proofs.Binary.Values

/-!
# Rounding

A number is rounded to a magnitude if it lies between the middles around the
number of that magnitude.  To round a number of the normal range changes it by
no more than the factor `1 + unitRoundoff`, and a change by some such factors
before a number is rounded moves the result by no more magnitudes than there
are factors.
-/

namespace SignatureVeil

namespace BinaryFormat

/-! ## Factors -/

section

variable (format : BinaryFormat)

/-- Two positive numbers differ by some factors `1 + unitRoundoff`, at the
most. -/
structure Within (factors : Nat) (first second : ℚ) : Prop where
  left : first ≤ second * (1 + format.unitRoundoff) ^ factors
  right : second ≤ first * (1 + format.unitRoundoff) ^ factors

variable {format} {factors factors' : Nat} {first second third : ℚ}
  {first' second' : ℚ}

theorem one_lt_factor : 1 < 1 + format.unitRoundoff :=
  lt_add_of_pos_right 1 format.unitRoundoff_pos

theorem factor_pos : 0 < 1 + format.unitRoundoff :=
  one_pos.trans one_lt_factor

theorem Within.refl (number : ℚ) : format.Within 0 number number :=
  ⟨by simp, by simp⟩

theorem Within.symm (within : format.Within factors first second) :
    format.Within factors second first :=
  ⟨within.right, within.left⟩

theorem Within.trans (within : format.Within factors first second)
    (within' : format.Within factors' second third) :
    format.Within (factors + factors') first third := by
  have positive : 0 ≤ 1 + format.unitRoundoff := factor_pos.le
  rw [add_comm]
  constructor <;> rw [pow_add, ← mul_assoc]
  · exact within.left.trans
      (mul_le_mul_of_nonneg_right within'.left (pow_nonneg positive _))
  · rw [mul_right_comm]
    exact within'.right.trans
      (mul_le_mul_of_nonneg_right within.right (pow_nonneg positive _))

theorem Within.mul (within : format.Within factors first second)
    (within' : format.Within factors' first' second') (positive : 0 ≤ first)
    (positive' : 0 ≤ first') (nonneg : 0 ≤ second) (nonneg' : 0 ≤ second') :
    format.Within (factors + factors') (first * first') (second * second') := by
  have factor : 0 ≤ 1 + format.unitRoundoff := factor_pos.le
  constructor <;> rw [pow_add, mul_mul_mul_comm]
  · exact mul_le_mul within.left within'.left positive'
      (mul_nonneg nonneg (pow_nonneg factor _))
  · exact mul_le_mul within.right within'.right nonneg'
      (mul_nonneg positive (pow_nonneg factor _))

theorem Within.inv (within : format.Within factors first second)
    (positive : 0 < first) (positive' : 0 < second) :
    format.Within factors first⁻¹ second⁻¹ := by
  constructor
  · rw [← one_div, inv_mul_eq_div, div_le_div_iff₀ positive positive',
      one_mul, mul_comm]
    exact within.right
  · rw [← one_div, inv_mul_eq_div, div_le_div_iff₀ positive' positive,
      one_mul, mul_comm]
    exact within.left

theorem Within.div (within : format.Within factors first second)
    (within' : format.Within factors' first' second') (nonneg : 0 ≤ first)
    (nonneg' : 0 ≤ second) (positive : 0 < first') (positive' : 0 < second') :
    format.Within (factors + factors') (first / first') (second / second') := by
  rw [div_eq_mul_inv, div_eq_mul_inv]
  exact within.mul (within'.inv positive positive') nonneg
    (inv_nonneg.mpr positive.le) nonneg' (inv_nonneg.mpr positive'.le)

end

/-! ## Rounded magnitudes -/

section

variable (format : BinaryFormat)

/-- No number of a magnitude is nearer to the one that is rounded. -/
structure Rounds (number : ℚ) (magnitude : Nat) : Prop where
  le_middle : number ≤ format.middle magnitude
  middle_le : ∀ previous, magnitude = previous + 1 →
    format.middle previous ≤ number

variable {format} {number number' : ℚ} {magnitude magnitude' factors : Nat}

theorem Rounds.le_of_lt_middle (rounds : format.Rounds number magnitude)
    (below : number < format.middle magnitude') :
    magnitude ≤ magnitude' := by
  cases magnitude with
  | zero => exact Nat.zero_le _
  | succ previous =>
      have := (rounds.middle_le previous rfl).trans_lt below
      exact middle_strictMono.lt_iff_lt.mp this

theorem Rounds.le_of_value_le (rounds : format.Rounds number magnitude)
    (above : format.value magnitude' ≤ number) : magnitude' ≤ magnitude := by
  by_contra less
  have grows : StrictMono format.value := value_strictMono
  have next := grows.monotone (not_le.mp less)
  have upper := rounds.le_middle
  have positive := format.gap_pos magnitude
  rw [Nat.succ_eq_add_one, value_succ] at next
  rw [middle] at upper
  linarith

theorem middle_mul_pow_lt (magnitude : Nat) (factors : Nat) :
    format.middle magnitude * (1 + format.unitRoundoff) ^ (factors + 1) <
      format.middle (magnitude + (factors + 1)) := by
  induction factors with
  | zero => simpa using middle_mul_lt magnitude
  | succ factors ih =>
      rw [pow_succ, ← mul_assoc]
      exact (mul_lt_mul_of_pos_right ih factor_pos).trans
        (middle_mul_lt _)

/-- A change by some factors moves the rounded magnitude at most by as many
magnitudes. -/
theorem Rounds.le_add (rounds : format.Rounds number magnitude)
    (rounds' : format.Rounds number' magnitude')
    (within : format.Within (factors + 1) number number') :
    magnitude ≤ magnitude' + (factors + 1) := by
  apply rounds.le_of_lt_middle
  calc number
      ≤ number' * (1 + format.unitRoundoff) ^ (factors + 1) := within.left
    _ ≤ format.middle magnitude' *
        (1 + format.unitRoundoff) ^ (factors + 1) :=
        mul_le_mul_of_nonneg_right rounds'.le_middle
          (pow_nonneg factor_pos.le _)
    _ < format.middle (magnitude' + (factors + 1)) :=
        middle_mul_pow_lt magnitude' factors

/-- A number that is not below that of some magnitude has a gap that is small
beside it. -/
theorem mul_gap_le_value {least : Nat} (notAbove : least ≤ format.hiddenBit)
    (above : least ≤ magnitude) :
    least * format.gap magnitude ≤ format.value magnitude := by
  obtain ⟨exponent, rest, parts⟩ := format.exists_isParts magnitude
  have enough : least ≤ rest := by
    have := parts.sum
    rcases parts.normal with rfl | normal <;> omega
  rw [parts.value_eq, ← parts.gap_eq]
  exact mul_le_mul_of_nonneg_right (by exact_mod_cast enough)
    (format.gap_pos magnitude).le

/-- Half a gap is a small part of a number that is not too small. -/
theorem half_gap_le {least : Nat} (notAbove : least ≤ format.hiddenBit)
    (enough : format.hiddenBit ≤ factors * least) (above : least ≤ magnitude) :
    format.gap magnitude / 2 ≤
      format.value magnitude * (factors * format.unitRoundoff) := by
  have hidden : (0 : ℚ) < format.hiddenBit := by
    exact_mod_cast format.hiddenBit_pos
  have large := mul_gap_le_value notAbove above
  have enough' : (format.hiddenBit : ℚ) ≤ factors * least := by
    exact_mod_cast enough
  rw [unitRoundoff, mul_one_div, mul_div_assoc', div_le_div_iff₀ two_pos
    (by positivity)]
  calc format.gap magnitude * (2 * format.hiddenBit)
      ≤ format.gap magnitude * (2 * (factors * least)) := by
        have := (format.gap_pos magnitude).le
        gcongr
    _ = factors * (least * format.gap magnitude) * 2 := by ring
    _ ≤ factors * format.value magnitude * 2 := by gcongr
    _ = format.value magnitude * factors * 2 := by ring

/-- Rounding a number that is not too small changes it by some factors. -/
theorem Rounds.within {least : Nat} (rounds : format.Rounds number magnitude)
    (notAbove : least ≤ format.hiddenBit)
    (enough : format.hiddenBit ≤ factors * least)
    (above : format.value least ≤ number) :
    format.Within factors (format.value magnitude) number := by
  have factor : 1 + factors * format.unitRoundoff ≤
      (1 + format.unitRoundoff) ^ factors :=
    one_add_mul_le_pow (by linarith [format.unitRoundoff_pos]) factors
  have nonneg : 0 ≤ number := (format.value_nonneg least).trans above
  constructor
  · rcases le_or_gt (format.value magnitude) number with low | high
    · exact low.trans (le_mul_of_one_le_right nonneg
        (one_le_pow₀ one_lt_factor.le))
    · -- the number lies below that of the magnitude it is rounded to
      have notLess := rounds.le_of_value_le above
      have different : least ≠ magnitude := by
        rintro rfl
        exact high.not_ge above
      obtain ⟨previous, rfl⟩ : ∃ previous, magnitude = previous + 1 :=
        ⟨magnitude - 1, by omega⟩
      have lower := rounds.middle_le previous rfl
      have notBelow : least ≤ previous := by omega
      have small := half_gap_le notAbove enough notBelow
      have gapPos := format.gap_pos previous
      rw [middle] at lower
      have inside : format.value previous ≤ number := by linarith
      calc format.value (previous + 1)
          ≤ number + format.gap previous / 2 := by
            rw [value_succ]
            linarith
        _ ≤ number + number * (factors * format.unitRoundoff) := by
            have := format.unitRoundoff_pos.le
            exact add_le_add_right (small.trans (by gcongr)) _
        _ = number * (1 + factors * format.unitRoundoff) := by ring
        _ ≤ number * (1 + format.unitRoundoff) ^ factors :=
            mul_le_mul_of_nonneg_left factor nonneg
  · have upper := rounds.le_middle
    have small := half_gap_le notAbove enough (rounds.le_of_value_le above)
    rw [middle] at upper
    calc number
        ≤ format.value magnitude * (1 + factors * format.unitRoundoff) := by
          linarith
      _ ≤ format.value magnitude * (1 + format.unitRoundoff) ^ factors :=
          mul_le_mul_of_nonneg_left factor (format.value_nonneg magnitude)

end

end BinaryFormat

end SignatureVeil
