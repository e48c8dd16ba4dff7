import SignatureVeil.Proofs.Binary.Bracketing
import SignatureVeil.Proofs.Binary.Nearest

/-!
# Middles that decimals keep away from

The middle between two neighbouring numbers with 32 bits is an odd multiple of
half their gap.  A decimal on a grid that is no finer than half the gap is
either such a middle or it keeps away from it, by so much that the numbers
with 64 bits can tell the two apart; there are nine exceptions.  For each
exponent of two, this is checked of two fractions around the quotient of the
grid and half the gap.  How the fractions are found does not matter.
-/

namespace SignatureVeil

namespace Bracket

/-- How many times one fraction is added to the other: as often as there is
room for its error, but no more often than is needed. -/
def stretch (room error missing base : Nat) : Nat :=
  let needed := (missing + (base - 1)) / base
  if error = 0 then needed else min needed (room / error)

/-- Move two fractions towards a quotient, the upper one and the lower one by
turns, until their denominators add up to `target`. -/
def search (numerator denominator target : Nat) :
    (steps : Nat) → Bracket → Bracket
  | 0, bracket => bracket
  | steps + 1, bracket =>
      if target ≤ bracket.lowOver + bracket.highOver then
        bracket
      else
        let times := stretch (bracket.highError numerator denominator)
          (bracket.lowError numerator denominator)
          (target - (bracket.lowOver + bracket.highOver)) bracket.lowOver
        let bracket := { bracket with
          high := bracket.high + times * bracket.low
          highOver := bracket.highOver + times * bracket.lowOver }
        let times := stretch (bracket.lowError numerator denominator)
          (bracket.highError numerator denominator)
          (target - (bracket.lowOver + bracket.highOver)) bracket.highOver
        search numerator denominator target steps { bracket with
          low := bracket.low + times * bracket.high
          lowOver := bracket.lowOver + times * bracket.highOver }

end Bracket

/-! ## The check for one exponent of two -/

/-- The exponent of ten of the finest grid that is not finer than half a gap,
for the numbers whose unit has been doubled `exponent` times. -/
def gridExponent (exponent : Nat) : Int :=
  -((150 - exponent) * 30103 / 100000)

/-- The unit of the grid in units of half a gap is a quotient with this
numerator. -/
def gridNumerator (exponent : Nat) : Nat :=
  10 ^ (gridExponent exponent).toNat * 2 ^ (150 - exponent)

def gridDenominator (exponent : Nat) : Nat :=
  10 ^ (-gridExponent exponent).toNat * 2 ^ (exponent - 150)

/-- Two fractions around the unit of the grid. -/
def gridBracket (exponent : Nat) : Bracket :=
  let numerator := gridNumerator exponent
  let denominator := gridDenominator exponent
  let target := (2 ^ 25 * denominator + numerator - 1) / numerator
  .search numerator denominator target 20 ⟨numerator / denominator, 1, 1, 0⟩

/-- The magnitudes with a short decimal close behind their middle, or close
before it. -/
def delicateMagnitudes : List Nat :=
  [120321464, 143231827, 151620435, 239248210, 363742205, 372130813, 853298129,
    901062220, 1740160716]

/-- No odd multiple of a fraction comes too near to an odd multiple of half a
gap, but for the middles of delicate magnitudes. -/
def KeepsAway (exponent part error : Nat) : Prop :=
  error = 0 ∨ part % 2 = 0 ∨
    3 * gridDenominator exponent ≤ 2 ^ 28 * error ∨
    0 < exponent ∧
      3 * gridDenominator exponent * part ≤ 2 ^ 52 * error ∨
    2 ^ 25 ≤ 3 * part ∧
      (0 < exponent ∧ part < 2 ^ 24 ∨
        exponent * 2 ^ 23 + part / 2 ∈ delicateMagnitudes)

instance (exponent part error : Nat) :
    Decidable (KeepsAway exponent part error) :=
  inferInstanceAs (Decidable (_ ∨ _))

/-- The errors of two fractions around the unit of the grid. -/
def lowGridError (exponent : Nat) : Nat :=
  (gridBracket exponent).lowError (gridNumerator exponent)
    (gridDenominator exponent)

def highGridError (exponent : Nat) : Nat :=
  (gridBracket exponent).highError (gridNumerator exponent)
    (gridDenominator exponent)

/-- What is checked of the fractions for one exponent of two. -/
@[mk_iff]
structure Clear (exponent : Nat) : Prop where
  encloses : (gridBracket exponent).Encloses (gridNumerator exponent)
    (gridDenominator exponent)
  finest : 2 ^ 28 * gridNumerator exponent ≤
    10 * (2 ^ 28 - 3) * gridDenominator exponent
  reaches : 2 ^ 25 * gridDenominator exponent ≤
    ((gridBracket exponent).lowOver + (gridBracket exponent).highOver) *
      gridNumerator exponent
  apart : 3 * gridDenominator exponent ≤
    2 ^ 28 * (lowGridError exponent + highGridError exponent)
  low : KeepsAway exponent (gridBracket exponent).low (lowGridError exponent)
  high : KeepsAway exponent (gridBracket exponent).high
    (highGridError exponent)

instance (exponent : Nat) : Decidable (Clear exponent) :=
  decidable_of_iff _ (clear_iff exponent).symm

theorem clear_of_lt : ∀ exponent < 254, Clear exponent := by
  decide +kernel

/-! ## Middles of one exponent of two -/

/-- An odd multiple of a fraction that comes near half a gap belongs to a
delicate magnitude. -/
theorem KeepsAway.mem_delicate {exponent part error times rest : Nat}
    (keepsAway : KeepsAway exponent part error)
    (normal : exponent = 0 ∨ 2 ^ 23 ≤ rest) (bounded : rest < 2 ^ 24)
    (odd : 2 * rest + 1 = times * part) (different : 0 < times * error)
    (near : 2 ^ 28 * (times * error) < 3 * gridDenominator exponent) :
    exponent * 2 ^ 23 + rest ∈ delicateMagnitudes := by
  have positive : 0 < times := Nat.pos_of_mul_pos_right different
  have positive' : 0 < error := Nat.pos_of_mul_pos_left different
  have parity := Nat.mul_mod times part 2
  rw [← odd] at parity
  rcases keepsAway with exact | even | far | ⟨raised, small⟩ | ⟨large, listed⟩
  · omega
  · rw [even, Nat.mul_zero] at parity
    omega
  · have := Nat.le_mul_of_pos_left error positive
    omega
  · -- the multiple is too small for a number whose unit has been doubled
    have weighed := calc 2 ^ 28 * error * (times * part)
        = 2 ^ 28 * (times * error) * part := by ring
      _ ≤ 3 * gridDenominator exponent * part :=
          Nat.mul_le_mul_right part near.le
      _ ≤ 2 ^ 28 * error * 2 ^ 24 := small.trans_eq (by ring)
    have := Nat.le_of_mul_le_mul_left weighed
      (Nat.mul_pos (Nat.pow_pos Nat.two_pos) positive')
    omega
  · -- three times the fraction are beyond all middles, and twice it is even
    have fewer : times * part < 3 * part := by omega
    have fewer := Nat.lt_of_mul_lt_mul_right fewer
    have notTwo : times ≠ 2 := by
      rintro rfl
      omega
    obtain rfl : times = 1 := by omega
    rw [Nat.one_mul] at odd
    have half : part / 2 = rest := by omega
    rcases listed with ⟨raised, subnormal⟩ | listed
    · omega
    · rwa [half] at listed

theorem gridDenominator_pos (exponent : Nat) : 0 < gridDenominator exponent :=
  Nat.mul_pos (Nat.pow_pos (by decide)) (Nat.pow_pos Nat.two_pos)

/-- The unit of the grid, in units of half a gap. -/
theorem pow_gridExponent (exponent : Nat) :
    (10 : ℚ) ^ gridExponent exponent =
      gridNumerator exponent / gridDenominator exponent *
        2 ^ ((exponent : Int) - 150) := by
  have up : ((exponent : Int) - 150).toNat = exponent - 150 := by omega
  have down : (-((exponent : Int) - 150)).toNat = 150 - exponent := by omega
  rw [zpow_eq_div (by norm_num), zpow_eq_div two_ne_zero, up, down,
    gridNumerator, gridDenominator]
  push_cast
  field_simp

/-- On the grid of an exponent of two, nothing but the middles of delicate
magnitudes has a multiple of the unit close by. -/
theorem Clear.mem_delicate {exponent rest factor : Nat} (clear : Clear exponent)
    (normal : exponent = 0 ∨ 2 ^ 23 ≤ rest) (bounded : rest < 2 ^ 24)
    (different : (factor * gridNumerator exponent : Int) ≠
      (2 * rest + 1 : Nat) * gridDenominator exponent)
    (near : 2 ^ 28 * |(factor * gridNumerator exponent -
        (2 * rest + 1 : Nat) * gridDenominator exponent : Int)| <
      3 * gridDenominator exponent) :
    exponent * 2 ^ 23 + rest ∈ delicateMagnitudes := by
  have denominatorPos := gridDenominator_pos exponent
  have apart := clear.apart
  have reaches := clear.reaches
  zify at apart reaches denominatorPos
  have lower := neg_abs_le (factor * gridNumerator exponent -
    (2 * rest + 1 : Nat) * gridDenominator exponent : Int)
  have upper := le_abs_self (factor * gridNumerator exponent -
    (2 * rest + 1 : Nat) * gridDenominator exponent : Int)
  have odd : ((2 * rest + 1 : Nat) : Int) * gridDenominator exponent +
      gridDenominator exponent ≤ 2 ^ 25 * gridDenominator exponent := by
    rw [← add_one_mul]
    exact mul_le_mul_of_nonneg_right (by push_cast; omega) denominatorPos.le
  have least : (gridDenominator exponent : Int) ≤
      (2 * rest + 1 : Nat) * gridDenominator exponent :=
    le_mul_of_one_le_left denominatorPos.le (by push_cast; omega)
  have positive : 0 < factor := by
    refine Nat.pos_of_ne_zero fun zero => ?_
    have nothing : (factor * gridNumerator exponent : Int) = 0 := by
      rw [zero, Nat.cast_zero, zero_mul]
    omega
  have small : factor <
      (gridBracket exponent).lowOver + (gridBracket exponent).highOver := by
    have : (factor * gridNumerator exponent : Int) <
        ((gridBracket exponent).lowOver + (gridBracket exponent).highOver) *
          gridNumerator exponent := by
      omega
    exact_mod_cast lt_of_mul_lt_mul_right this (Int.natCast_nonneg _)
  have close : |(factor * gridNumerator exponent -
      (2 * rest + 1 : Nat) * gridDenominator exponent : Int)| <
        lowGridError exponent + highGridError exponent := by
    omega
  have apart' := abs_pos.mpr (sub_ne_zero.mpr different)
  obtain ⟨times, multiple | multiple⟩ :=
    clear.encloses.exists_isMultiple positive small close
  · rw [multiple.distance_eq] at near apart'
    exact clear.low.mem_delicate normal bounded multiple.whole_eq
      (by exact_mod_cast apart') (by exact_mod_cast near)
  · rw [multiple.distance_eq] at near apart'
    exact clear.high.mem_delicate normal bounded multiple.whole_eq
      (by exact_mod_cast apart') (by exact_mod_cast near)

/-- The grid of a power of ten that is not much smaller than half a gap is not
finer than that of the check. -/
theorem Clear.gridExponent_le {exponent : Nat} {power : Int}
    (clear : Clear exponent)
    (coarse : (1 - 3 / 2 ^ 28 : ℚ) * 2 ^ ((exponent : Int) - 150) <
      10 ^ power) : gridExponent exponent ≤ power := by
  have denominatorPos : (0 : ℚ) < gridDenominator exponent := by
    exact_mod_cast gridDenominator_pos exponent
  have half : (0 : ℚ) < 2 ^ ((exponent : Int) - 150) := by positivity
  have finest := (Nat.cast_le (α := ℚ)).mpr clear.finest
  norm_num only [Nat.cast_mul] at finest
  have quotient : (gridNumerator exponent / gridDenominator exponent : ℚ) ≤
      10 * (1 - 3 / 2 ^ 28) := by
    rw [div_le_iff₀ denominatorPos]
    linarith
  have : (10 : ℚ) ^ gridExponent exponent < 10 ^ (power + 1) := by
    rw [pow_gridExponent, zpow_add_one₀ (by norm_num)]
    calc _ ≤ 10 * (1 - 3 / 2 ^ 28) * (2 : ℚ) ^ ((exponent : Int) - 150) :=
          mul_le_mul_of_nonneg_right quotient half.le
      _ < _ := by linarith
  have := (zpow_lt_zpow_iff_right₀ (by norm_num)).mp this
  omega

namespace BinaryFormat

section

variable {magnitude exponent rest : Nat}
  (parts : single.IsParts magnitude exponent rest)

include parts

theorem IsParts.half_gap_eq :
    single.gap magnitude / 2 = 2 ^ ((exponent : Int) - 150) := by
  have least : single.leastScale = -149 := rfl
  rw [BinaryFormat.half_gap_eq, parts.significand_scale.2, least]
  congr 1
  omega

theorem IsParts.middle_eq_odd_mul : single.middle magnitude =
    (2 * rest + 1 : Nat) * 2 ^ ((exponent : Int) - 150) := by
  rw [BinaryFormat.middle_eq_odd_mul, ← BinaryFormat.half_gap_eq,
    parts.half_gap_eq, parts.significand_scale.1]

theorem IsParts.exponent_lt (finite : magnitude < single.infinity) :
    exponent < 254 := by
  have hidden : single.hiddenBit = 2 ^ 23 := rfl
  have most : single.infinity = 255 * 2 ^ 23 := rfl
  have sum := parts.sum
  have normal := parts.normal
  rw [hidden] at sum normal
  rw [most] at finite
  omega

end

/-- A multiple of a power of ten that is not much smaller than half a gap is
the middle of a magnitude or is not near it. -/
theorem eq_middle_or_far {magnitude digits : Nat} {power : Int}
    (finite : magnitude < single.infinity)
    (ordinary : magnitude ∉ delicateMagnitudes)
    (coarse : (1 - 3 / 2 ^ 28) * (single.gap magnitude / 2) < 10 ^ power) :
    digits * 10 ^ power = single.middle magnitude ∨
      3 / 2 ^ 28 * (single.gap magnitude / 2) ≤
        |digits * 10 ^ power - single.middle magnitude| := by
  obtain ⟨exponent, rest, parts⟩ := single.exists_isParts magnitude
  have clear := clear_of_lt exponent (parts.exponent_lt finite)
  have half : (0 : ℚ) < 2 ^ ((exponent : Int) - 150) := by positivity
  have denominatorPos : (0 : ℚ) < gridDenominator exponent := by
    exact_mod_cast gridDenominator_pos exponent
  rw [parts.half_gap_eq] at coarse
  obtain ⟨more, rfl⟩ := Int.le.dest (clear.gridExponent_le coarse)
  have point : (digits * 10 ^ (gridExponent exponent + more) : ℚ) =
      ((digits * 10 ^ more : Nat) * gridNumerator exponent) /
        gridDenominator exponent * 2 ^ ((exponent : Int) - 150) := by
    rw [zpow_add₀ (by norm_num), pow_gridExponent, zpow_natCast]
    push_cast
    ring
  by_contra neither
  obtain ⟨different, near⟩ := not_or.mp neither
  rw [point, parts.middle_eq_odd_mul] at different
  rw [not_le, parts.half_gap_eq, point, parts.middle_eq_odd_mul, ← sub_mul,
    abs_mul, abs_of_pos half, mul_lt_mul_iff_left₀ half,
    div_sub' denominatorPos.ne', abs_div, abs_of_pos denominatorPos,
    div_lt_iff₀ denominatorPos, mul_comm (gridDenominator exponent : ℚ)]
    at near
  have different' : ((digits * 10 ^ more : Nat) * gridNumerator exponent :
      Int) ≠ (2 * rest + 1 : Nat) * gridDenominator exponent := by
    intro same
    refine different ?_
    have same' : ((digits * 10 ^ more : Nat) * gridNumerator exponent : ℚ) =
        (2 * rest + 1 : Nat) * gridDenominator exponent := by
      exact_mod_cast same
    rw [same', mul_div_cancel_right₀ _ denominatorPos.ne']
  have near' : 2 ^ 28 * |((digits * 10 ^ more : Nat) * gridNumerator exponent -
      (2 * rest + 1 : Nat) * gridDenominator exponent : ℚ)| <
        3 * gridDenominator exponent := by
    linarith
  exact ordinary (parts.sum ▸ clear.mem_delicate parts.normal parts.bounded
    different' (by exact_mod_cast near'))

end BinaryFormat

end SignatureVeil
