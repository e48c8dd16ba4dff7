import Mathlib.Algebra.Order.Field.Power
import Mathlib.Order.Monotone.Basic
import Mathlib.Tactic.FieldSimp
import Mathlib.Tactic.Linarith
import Mathlib.Tactic.LinearCombination
import Mathlib.Tactic.Positivity
import Mathlib.Tactic.Ring
import SignatureVeil.Binary.Format

/-!
# The numbers that magnitudes stand for

Finite magnitudes stand for ever larger numbers, and the gap from one number
to the next never gets smaller.  Half way between two neighbours is the number
that neither of them is nearer to; these middles grow by more than the factor
`1 + 2 ^ (-fractionBits - 1)` from each to the next.
-/

namespace SignatureVeil

namespace BinaryFormat

variable (format : BinaryFormat)

/-- The number that a finite magnitude stands for. -/
def value (magnitude : Nat) : ℚ :=
  format.significand magnitude * 2 ^ format.scale magnitude

/-- The distance from the number of a magnitude to that of the next one. -/
def gap (magnitude : Nat) : ℚ :=
  2 ^ format.scale magnitude

/-- The number half way between those of a magnitude and of the next one. -/
def middle (magnitude : Nat) : ℚ :=
  format.value magnitude + format.gap magnitude / 2

/-- Rounding changes a number of the normal range by this part of it, at the
most. -/
def unitRoundoff : ℚ :=
  1 / (2 * format.hiddenBit)

theorem hiddenBit_pos : 0 < format.hiddenBit :=
  Nat.pow_pos Nat.two_pos

theorem cast_hiddenBit :
    (format.hiddenBit : ℚ) = 2 ^ (format.fractionBits : Int) := by
  rw [zpow_natCast]
  exact Nat.cast_pow 2 format.fractionBits

theorem unitRoundoff_pos : 0 < format.unitRoundoff := by
  have := format.hiddenBit_pos
  unfold unitRoundoff
  positivity

theorem gap_pos (magnitude : Nat) : 0 < format.gap magnitude :=
  zpow_pos two_pos _

theorem half_gap_eq (magnitude : Nat) :
    format.gap magnitude / 2 = 2 ^ (format.scale magnitude - 1) := by
  rw [gap, zpow_sub_one₀ two_ne_zero, div_eq_mul_inv]

/-- A middle is an odd multiple of half a gap. -/
theorem middle_eq_odd_mul (magnitude : Nat) :
    format.middle magnitude = (2 * format.significand magnitude + 1 : Nat) *
      2 ^ (format.scale magnitude - 1) := by
  rw [middle, value, ← gap, ← half_gap_eq]
  push_cast
  ring

/-! ## Binades -/

/-- A magnitude taken apart: its significand is `rest`, scaled `exponent`
times. -/
structure IsParts (magnitude exponent rest : Nat) : Prop where
  sum : magnitude = exponent * format.hiddenBit + rest
  normal : exponent = 0 ∨ format.hiddenBit ≤ rest
  bounded : rest < 2 * format.hiddenBit

theorem exists_isParts (magnitude : Nat) :
    ∃ exponent rest, format.IsParts magnitude exponent rest := by
  have positive := format.hiddenBit_pos
  have parts := Nat.div_add_mod' magnitude format.hiddenBit
  have small := Nat.mod_lt magnitude positive
  generalize magnitude / format.hiddenBit = quotient at parts
  cases quotient with
  | zero => exact ⟨0, magnitude, by omega, .inl rfl, by omega⟩
  | succ quotient =>
      rw [Nat.succ_mul] at parts
      exact ⟨quotient, format.hiddenBit + magnitude % format.hiddenBit,
        by omega, by omega, by omega⟩

variable {format} {magnitude exponent rest : Nat}

theorem IsParts.significand_scale
    (parts : format.IsParts magnitude exponent rest) :
    format.significand magnitude = rest ∧
      format.scale magnitude = format.leastScale + exponent := by
  obtain ⟨rfl, normal, bounded⟩ := parts
  have positive := format.hiddenBit_pos
  by_cases subnormal : rest < format.hiddenBit
  · obtain rfl : exponent = 0 := by omega
    simp [significand, scale, subnormal]
  · obtain ⟨more, rfl⟩ := Nat.exists_eq_add_of_le (not_lt.mp subnormal)
    have large : ¬ exponent * format.hiddenBit + (format.hiddenBit + more) <
        format.hiddenBit := by
      omega
    have divided : (exponent * format.hiddenBit + (format.hiddenBit + more)) /
          format.hiddenBit = exponent + 1 ∧
        (exponent * format.hiddenBit + (format.hiddenBit + more)) %
          format.hiddenBit = more := by
      rw [Nat.div_mod_unique positive]
      exact ⟨by ring, by omega⟩
    simp only [significand, scale, if_neg large, divided]
    exact ⟨trivial, by omega⟩

theorem IsParts.value_eq (parts : format.IsParts magnitude exponent rest) :
    format.value magnitude = rest * 2 ^ (format.leastScale + exponent) := by
  rw [value, parts.significand_scale.1, parts.significand_scale.2]

theorem IsParts.gap_eq (parts : format.IsParts magnitude exponent rest) :
    format.gap magnitude = 2 ^ (format.leastScale + exponent) := by
  rw [gap, parts.significand_scale.2]

/-- The magnitude behind the last one of a binade is the first one of the
next binade. -/
theorem IsParts.next (parts : format.IsParts magnitude exponent rest) :
    format.IsParts (magnitude + 1) exponent (rest + 1) ∨
      rest + 1 = 2 * format.hiddenBit ∧
        format.IsParts (magnitude + 1) (exponent + 1) format.hiddenBit := by
  obtain ⟨rfl, normal, bounded⟩ := parts
  have positive := format.hiddenBit_pos
  by_cases last : rest + 1 = 2 * format.hiddenBit
  · exact .inr ⟨last, by rw [Nat.succ_mul]; omega, .inr le_rfl, by omega⟩
  · exact .inl ⟨by omega, by omega, by omega⟩

/-! ## From each magnitude to the next -/

theorem value_succ (format : BinaryFormat) (magnitude : Nat) :
    format.value (magnitude + 1) =
      format.value magnitude + format.gap magnitude := by
  obtain ⟨exponent, rest, parts⟩ := format.exists_isParts magnitude
  rw [parts.value_eq, parts.gap_eq]
  rcases parts.next with next | ⟨last, next⟩
  · rw [next.value_eq]
    push_cast
    ring
  · have last' : (rest : ℚ) + 1 = 2 * format.hiddenBit := by
      exact_mod_cast last
    rw [next.value_eq, Nat.cast_succ, ← add_assoc,
      zpow_add_one₀ two_ne_zero]
    linear_combination -2 ^ (format.leastScale + exponent) * last'

/-- The end of a binade is the beginning of the next one. -/
theorem value_of_le (normal : exponent = 0 ∨ format.hiddenBit ≤ rest)
    (bounded : rest ≤ 2 * format.hiddenBit) :
    format.value (exponent * format.hiddenBit + rest) =
      rest * 2 ^ (format.leastScale + exponent) := by
  have positive := format.hiddenBit_pos
  rcases Nat.lt_or_eq_of_le bounded with inside | rfl
  · exact IsParts.value_eq ⟨rfl, normal, inside⟩
  · have parts : format.IsParts
        (exponent * format.hiddenBit + 2 * format.hiddenBit) (exponent + 1)
        format.hiddenBit :=
      ⟨by ring, .inr le_rfl, by omega⟩
    rw [parts.value_eq, Nat.cast_succ, ← add_assoc, zpow_add_one₀ two_ne_zero]
    push_cast
    ring

theorem gap_le_gap_succ (magnitude : Nat) :
    format.gap magnitude ≤ format.gap (magnitude + 1) := by
  obtain ⟨exponent, rest, parts⟩ := format.exists_isParts magnitude
  rw [parts.gap_eq]
  rcases parts.next with next | ⟨-, next⟩ <;> rw [next.gap_eq]
  exact zpow_le_zpow_right₀ one_le_two (by omega)

theorem value_strictMono : StrictMono format.value :=
  strictMono_nat_of_lt_succ fun magnitude => by
    rw [value_succ]
    exact lt_add_of_pos_right _ (format.gap_pos magnitude)

theorem middle_lt_value_succ (format : BinaryFormat) (magnitude : Nat) :
    format.middle magnitude < format.value (magnitude + 1) := by
  have := format.gap_pos magnitude
  rw [middle, value_succ]
  linarith

theorem value_zero : format.value 0 = 0 := by
  have := format.hiddenBit_pos
  simp [value, significand, this]

theorem value_nonneg (magnitude : Nat) : 0 ≤ format.value magnitude := by
  unfold value
  positivity

theorem middle_pos (magnitude : Nat) : 0 < format.middle magnitude := by
  have := format.gap_pos magnitude
  have := format.value_nonneg magnitude
  unfold middle
  linarith

theorem middle_strictMono : StrictMono format.middle :=
  strictMono_nat_of_lt_succ fun magnitude => by
    have := format.gap_pos magnitude
    have := format.gap_pos (magnitude + 1)
    rw [middle, middle, value_succ]
    linarith

/-- A number is at most as many gaps as its significand can be. -/
theorem value_succ_le (magnitude : Nat) :
    format.value (magnitude + 1) ≤
      2 * format.hiddenBit * format.gap magnitude := by
  obtain ⟨exponent, rest, parts⟩ := format.exists_isParts magnitude
  have bounded : (rest : ℚ) + 1 ≤ 2 * format.hiddenBit := by
    exact_mod_cast parts.bounded
  have positive := format.gap_pos magnitude
  rw [value_succ]
  calc format.value magnitude + format.gap magnitude
      = (rest + 1) * format.gap magnitude := by
        rw [parts.value_eq, parts.gap_eq]
        ring
    _ ≤ 2 * format.hiddenBit * format.gap magnitude :=
        mul_le_mul_of_nonneg_right bounded positive.le

theorem middle_mul_lt (magnitude : Nat) :
    format.middle magnitude * (1 + format.unitRoundoff) <
      format.middle (magnitude + 1) := by
  have largest := format.value_succ_le magnitude
  have positive := format.gap_pos magnitude
  have grows := format.gap_le_gap_succ magnitude
  have hidden : (0 : ℚ) < format.hiddenBit := by
    exact_mod_cast format.hiddenBit_pos
  have below : format.middle magnitude <
      2 * format.hiddenBit * format.gap magnitude := by
    rw [value_succ] at largest
    rw [middle]
    linarith
  have relative : format.middle magnitude * format.unitRoundoff <
      format.gap magnitude := by
    rw [unitRoundoff, mul_one_div, div_lt_iff₀ (by positivity)]
    linarith
  have next : format.middle magnitude + format.gap magnitude ≤
      format.middle (magnitude + 1) := by
    rw [middle, middle, value_succ]
    linarith
  linarith

end BinaryFormat

end SignatureVeil
