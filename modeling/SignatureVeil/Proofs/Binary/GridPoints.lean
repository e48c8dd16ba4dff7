import Mathlib.Algebra.Order.AbsoluteValue.Basic
import SignatureVeil.Proofs.Binary.ShortestDecimal

/-!
# How far the shortest decimal is from its number

The shortest decimal is a neighbour of its number on some decimal grid.  If it
comes near the middle between two numbers, the grid is hardly finer than half
their gap; and it is a middle only if the significand of its number is even.
-/

namespace SignatureVeil

theorem roundQuotient_eq_or (numerator denominator : Nat) :
    roundQuotient numerator denominator = numerator / denominator ∨
      roundQuotient numerator denominator = numerator / denominator + 1 := by
  have even := Nat.mod_two_eq_zero_or_one (numerator / denominator)
  unfold roundQuotient
  simp only []
  split
  · exact .inl rfl
  · split
    · exact .inr rfl
    · omega

namespace RoundingInterval

/-- The last point of a grid that is not above the value of an interval. -/
def floorPoint (interval : RoundingInterval) (exponent : Int) : Nat :=
  interval.value * Nat.pow 10 (-exponent).toNat /
    (interval.denominator * Nat.pow 10 exponent.toNat)

variable {interval : RoundingInterval}

theorem digits_of_gridPoint? {exponent : Int} {found : Decimal}
    (hit : interval.gridPoint? exponent = some found) :
    found.digits = interval.floorPoint found.exponent ∨
      found.digits = interval.floorPoint found.exponent + 1 := by
  simp only [gridPoint?] at hit
  split at hit
  · obtain rfl := Option.some.inj hit
    exact roundQuotient_eq_or _ _
  · split at hit
    · obtain rfl := Option.some.inj hit
      exact .inl rfl
    · split at hit
      · obtain rfl := Option.some.inj hit
        exact .inr rfl
      · contradiction

/-- The search ends next to the value, on whatever grid. -/
theorem digits_searchGrid (interval : RoundingInterval) (tries : Nat)
    (exponent : Int) :
    (interval.searchGrid tries exponent).digits =
        interval.floorPoint (interval.searchGrid tries exponent).exponent ∨
      (interval.searchGrid tries exponent).digits =
        interval.floorPoint (interval.searchGrid tries exponent).exponent +
          1 := by
  induction tries generalizing exponent with
  | zero => exact .inl rfl
  | succ tries ih =>
      rw [searchGrid]
      cases hit : interval.gridPoint? exponent with
      | some found => exact digits_of_gridPoint? hit
      | none => exact ih (exponent - 1)

/-- The ends of an interval that is not closed do not belong to it. -/
theorem lt_of_holds {candidate : Nat} {exponent : Int}
    (positive : 0 < interval.denominator) (isOpen : interval.closed = false)
    (holds : interval.holds candidate exponent = true) :
    (interval.low / interval.denominator : ℚ) < candidate * 10 ^ exponent ∧
      candidate * (10 : ℚ) ^ exponent <
        interval.high / interval.denominator := by
  rw [RoundingInterval.holds, isOpen, if_neg Bool.false_ne_true,
    Bool.and_eq_true, decide_eq_true_eq, decide_eq_true_eq] at holds
  have denominatorPos : (0 : ℚ) < interval.denominator := by
    exact_mod_cast positive
  rw [zpow_eq_div (by norm_num), mul_div_assoc', div_lt_div_iff₀
    denominatorPos (by positivity), div_lt_div_iff₀ (by positivity)
    denominatorPos]
  exact_mod_cast holds

end RoundingInterval

namespace BinaryFormat

variable {format : BinaryFormat} {magnitude : Nat}

/-- The shortest decimal is less than one step of its grid away. -/
theorem abs_shortest_sub_le (format : BinaryFormat) (magnitude : Nat) :
    |(format.shortest magnitude).value - format.value magnitude| ≤
      10 ^ (format.shortest magnitude).exponent := by
  have floor := RoundingInterval.floor_bounds
    (RoundingInterval.ofMagnitude format magnitude).value
    (RoundingInterval.denominator_pos format magnitude)
    (format.shortest magnitude).exponent
  have neighbour := RoundingInterval.digits_searchGrid
    (.ofMagnitude format magnitude) 17 (quotientLog10
      (RoundingInterval.ofMagnitude format magnitude).value
      (RoundingInterval.ofMagnitude format magnitude).denominator)
  rw [RoundingInterval.value_div] at floor
  have unit : (0 : ℚ) < 10 ^ (format.shortest magnitude).exponent := by
    positivity
  rw [abs_le, Decimal.value]
  rcases neighbour with same | same
  · rw [← shortest, RoundingInterval.floorPoint] at same
    rw [same]
    constructor <;> linarith
  · rw [← shortest, RoundingInterval.floorPoint] at same
    rw [same]
    push_cast at floor ⊢
    constructor <;> linarith

/-- A shortest decimal that comes near some point has a grid that is not much
finer than the distance of the point. -/
theorem lt_pow_of_near {point half part : ℚ}
    (distance : |point - format.value magnitude| = half)
    (near : |(format.shortest magnitude).value - point| < part * half) :
    (1 - part) * half < 10 ^ (format.shortest magnitude).exponent := by
  have := abs_sub_le point (format.shortest magnitude).value
    (format.value magnitude)
  have := format.abs_shortest_sub_le magnitude
  rw [abs_sub_comm] at near
  linarith

theorem abs_middle_sub (format : BinaryFormat) (magnitude : Nat) :
    |format.middle magnitude - format.value magnitude| =
      format.gap magnitude / 2 := by
  rw [middle, add_sub_cancel_left,
    abs_of_pos (half_pos (format.gap_pos magnitude))]

theorem abs_middle_sub_succ (format : BinaryFormat) (previous : Nat) :
    |format.middle previous - format.value (previous + 1)| =
      format.gap previous / 2 := by
  rw [value_succ, middle, abs_sub_comm, add_sub_add_left_eq_sub, sub_half,
    abs_of_pos (half_pos (format.gap_pos previous))]

theorem closed_ofMagnitude (even : format.hiddenBit % 2 = 0) :
    (RoundingInterval.ofMagnitude format magnitude).closed =
      decide (magnitude % 2 = 0) := by
  have same : format.significand magnitude % 2 = magnitude % 2 := by
    unfold significand
    split
    · rfl
    · rw [Nat.add_mod, even, Nat.zero_add, Nat.mod_mod,
        Nat.mod_mod_of_dvd _ (Nat.dvd_of_mod_eq_zero even)]
  rw [RoundingInterval.ofMagnitude, same]

/-- The shortest decimal of an odd magnitude lies strictly between the middles
around it. -/
theorem shortest_between_of_odd {previous : Nat}
    (narrow : 8 * format.hiddenBit ≤ Nat.pow 10 17)
    (even : format.hiddenBit % 2 = 0) (odd : (previous + 1) % 2 = 1) :
    format.middle previous < (format.shortest (previous + 1)).value ∧
      (format.shortest (previous + 1)).value <
        format.middle (previous + 1) := by
  obtain ⟨low, -⟩ := @leadingExponent_bounds format _ previous.succ_pos
  have denominatorPos := RoundingInterval.denominator_pos format (previous + 1)
  have isOpen : (RoundingInterval.ofMagnitude format (previous + 1)).closed =
      false := by
    rw [closed_ofMagnitude even, odd]
    rfl
  rw [shortest]
  generalize quotientLog10
    (RoundingInterval.ofMagnitude format (previous + 1)).value
    (RoundingInterval.ofMagnitude format (previous + 1)).denominator =
      leading at low ⊢
  rcases (RoundingInterval.searchGrid_inv
    (.ofMagnitude format (previous + 1)) 17 leading).2 with holds | last
  · have inside := RoundingInterval.lt_of_holds denominatorPos isOpen holds
    rwa [RoundingInterval.low_div, RoundingInterval.high_div] at inside
  · -- the last grid is so fine that its point cannot be a middle
    have floor := RoundingInterval.floor_bounds
      (RoundingInterval.ofMagnitude format (previous + 1)).value
      denominatorPos (leading - 17)
    rw [RoundingInterval.value_div] at floor
    have finest := pow_sub_mul_le_gap 4 (by linarith) low
    have gap := format.gap_pos previous
    have gap' := format.gap_pos (previous + 1)
    have next := format.value_succ previous
    rw [Nat.cast_ofNat] at finest
    rw [last, Decimal.value, middle, middle]
    constructor <;> linarith

end BinaryFormat

end SignatureVeil
