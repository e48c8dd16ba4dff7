import Mathlib.Algebra.Order.Ring.Int
import Mathlib.Tactic.Linarith
import Mathlib.Tactic.LinearCombination
import Mathlib.Tactic.Ring

/-!
# Multiples that come near whole numbers

Two fractions bracket a quotient if it lies between them and their numerators
and denominators form a basis of all pairs of whole numbers.  A small multiple
of the quotient that comes near a whole number is then a multiple of one of
the two denominators, and the whole number is the same multiple of the
numerator.  How near it comes is known from the two fractions.
-/

namespace SignatureVeil

/-- Two fractions. -/
structure Bracket where
  low : Nat
  lowOver : Nat
  high : Nat
  highOver : Nat
  deriving DecidableEq

namespace Bracket

/-- How far so many times the quotient as the lower denominator says are above
the lower numerator, in parts of the denominator of the quotient. -/
def lowError (bracket : Bracket) (numerator denominator : Nat) : Nat :=
  bracket.lowOver * numerator - bracket.low * denominator

/-- The same for the upper fraction, which is not below the quotient. -/
def highError (bracket : Bracket) (numerator denominator : Nat) : Nat :=
  bracket.high * denominator - bracket.highOver * numerator

/-- The fractions are neighbours, and a quotient lies between them. -/
@[mk_iff]
structure Encloses (bracket : Bracket) (numerator denominator : Nat) :
    Prop where
  neighbours : bracket.high * bracket.lowOver =
    bracket.low * bracket.highOver + 1
  low_le : bracket.low * denominator ≤ bracket.lowOver * numerator
  le_high : bracket.highOver * numerator ≤ bracket.high * denominator

instance (bracket : Bracket) (numerator denominator : Nat) :
    Decidable (bracket.Encloses numerator denominator) :=
  decidable_of_iff _ (encloses_iff bracket numerator denominator).symm

/-- A factor and a whole number are the same multiple of the two parts of a
fraction, and their distance is that multiple of its error. -/
structure IsMultiple (base part error factor whole : Nat) (distance : Int)
    (times : Nat) : Prop where
  positive : 0 < times
  factor_eq : factor = times * base
  whole_eq : whole = times * part
  distance_eq : |distance| = times * error

variable {bracket : Bracket} {numerator denominator factor whole : Nat}

/-- The pairs of which one coordinate is zero are those of one fraction; all
others are too large or too far away. -/
theorem coordinates_of_near {first second lowOver highOver lowError highError :
      Int} (lowOver_nonneg : 0 ≤ lowOver) (highOver_nonneg : 0 ≤ highOver)
    (lowError_nonneg : 0 ≤ lowError) (highError_nonneg : 0 ≤ highError)
    (positive : 0 < first * lowOver + second * highOver)
    (small : first * lowOver + second * highOver < lowOver + highOver)
    (near : |first * lowError - second * highError| < lowError + highError) :
    0 < first ∧ second = 0 ∨ first = 0 ∧ 0 < second := by
  obtain ⟨near, near'⟩ := abs_lt.mp near
  rcases lt_trichotomy first 0 with negative | rfl | raised
  · rcases lt_or_ge 0 second with raised' | notAbove
    · -- the distances add up
      nlinarith
    · nlinarith
  · refine .inr ⟨rfl, ?_⟩
    by_contra notAbove
    nlinarith
  · rcases lt_trichotomy second 0 with negative' | rfl | raised'
    · -- the distances add up
      nlinarith
    · exact .inl ⟨raised, rfl⟩
    · nlinarith

/-- A small multiple of the quotient that comes nearer to a whole number than
the errors of both fractions together belongs to one of the fractions. -/
theorem Encloses.exists_isMultiple
    (encloses : bracket.Encloses numerator denominator)
    (positive : 0 < factor)
    (small : factor < bracket.lowOver + bracket.highOver)
    (near : |(factor * numerator - whole * denominator : Int)| <
      bracket.lowError numerator denominator +
        bracket.highError numerator denominator) :
    ∃ times,
      IsMultiple bracket.lowOver bracket.low
          (bracket.lowError numerator denominator) factor whole
          (factor * numerator - whole * denominator) times ∨
        IsMultiple bracket.highOver bracket.high
          (bracket.highError numerator denominator) factor whole
          (factor * numerator - whole * denominator) times := by
  obtain ⟨neighbours, low_le, le_high⟩ := encloses
  have lowSum := Nat.add_sub_of_le low_le
  have highSum := Nat.add_sub_of_le le_high
  rw [← lowError] at lowSum
  rw [← highError] at highSum
  generalize bracket.lowError numerator denominator = lowError at *
  generalize bracket.highError numerator denominator = highError at *
  zify at neighbours lowSum highSum positive small
  -- the coordinates of the pair in the basis
  obtain ⟨first, first_eq⟩ : ∃ first : Int,
      first = factor * bracket.high - whole * bracket.highOver := ⟨_, rfl⟩
  obtain ⟨second, second_eq⟩ : ∃ second : Int,
      second = whole * bracket.lowOver - factor * bracket.low := ⟨_, rfl⟩
  have factor_eq : (factor : Int) =
      first * bracket.lowOver + second * bracket.highOver := by
    rw [first_eq, second_eq]
    linear_combination -(factor : Int) * neighbours
  have whole_eq : (whole : Int) =
      first * bracket.low + second * bracket.high := by
    rw [first_eq, second_eq]
    linear_combination -(whole : Int) * neighbours
  have distance_eq : (factor * numerator - whole * denominator : Int) =
      first * lowError - second * highError := by
    rw [factor_eq, whole_eq]
    linear_combination -first * lowSum + second * highSum
  rw [distance_eq] at near ⊢
  rw [factor_eq] at positive small
  rcases coordinates_of_near (Int.natCast_nonneg _) (Int.natCast_nonneg _)
    (Int.natCast_nonneg _) (Int.natCast_nonneg _) positive small near with
    ⟨raised, rfl⟩ | ⟨rfl, raised⟩
  · obtain ⟨times, rfl⟩ := Int.eq_ofNat_of_zero_le raised.le
    refine ⟨times, .inl ⟨by omega, ?_, ?_, ?_⟩⟩
    · rw [zero_mul, add_zero] at factor_eq
      exact_mod_cast factor_eq
    · rw [zero_mul, add_zero] at whole_eq
      exact_mod_cast whole_eq
    · rw [zero_mul, sub_zero, abs_of_nonneg (by positivity)]
  · obtain ⟨times, rfl⟩ := Int.eq_ofNat_of_zero_le raised.le
    refine ⟨times, .inr ⟨by omega, ?_, ?_, ?_⟩⟩
    · rw [zero_mul, zero_add] at factor_eq
      exact_mod_cast factor_eq
    · rw [zero_mul, zero_add] at whole_eq
      exact_mod_cast whole_eq
    · rw [zero_mul, zero_sub, abs_neg, abs_of_nonneg (by positivity)]

end Bracket

end SignatureVeil
