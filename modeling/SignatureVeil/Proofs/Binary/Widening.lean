import SignatureVeil.Proofs.Binary.Nearest

/-!
# Widening and narrowing

A finite number with 32 bits is widened to 64 bits without being rounded, and
so is the number half way to the next one.  Many numbers with 64 bits lie
between the two, so that what is a few magnitudes away from a widened number
is still narrowed to the number that was widened.
-/

namespace SignatureVeil

namespace BinaryFormat

/-! ## Numbers that are rounded to a given magnitude -/

section

variable {format : BinaryFormat} {number : ℚ} {found magnitude : Nat}

/-- A number strictly between two middles is rounded to the magnitude between
them. -/
theorem Rounds.eq_of_between (rounds : format.Rounds number found)
    (above : ∀ previous, magnitude = previous + 1 →
      format.middle previous < number)
    (below : number < format.middle magnitude) : found = magnitude := by
  apply Nat.le_antisymm (rounds.le_of_lt_middle below)
  by_contra less
  obtain ⟨more, rfl⟩ := Nat.exists_eq_add_of_lt (not_le.mp less)
  have grows : StrictMono format.middle := middle_strictMono
  have lower := above (found + more) rfl
  have upper := grows.monotone (Nat.le_add_right found more)
  have := rounds.le_middle
  linarith

theorem nearest_eq_of_between {numerator denominator : Nat}
    (finite : magnitude < format.infinity) (positive : 0 < denominator)
    (above : ∀ previous, magnitude = previous + 1 →
      format.middle previous < (numerator / denominator : ℚ))
    (below : (numerator / denominator : ℚ) < format.middle magnitude) :
    format.nearest numerator denominator = magnitude := by
  rcases Nat.eq_zero_or_pos numerator with rfl | positive'
  · cases magnitude with
    | zero => rfl
    | succ previous =>
        have := above previous rfl
        have := format.middle_pos previous
        simp at *
        linarith
  · exact (rounds_nearest finite positive' positive below).1.eq_of_between
      above below

theorem value_eq_div (format : BinaryFormat) (magnitude : Nat) :
    format.value magnitude =
      ((format.significand magnitude *
        Nat.pow 2 (format.scale magnitude).toNat : Nat) : ℚ) /
        (Nat.pow 2 (-format.scale magnitude).toNat : Nat) := by
  rw [value, zpow_eq_div two_ne_zero, Nat.cast_mul, cast_natPow, cast_natPow,
    mul_div_assoc]

end

/-! ## Magnitudes with 64 bits -/

/-- A multiple of a power of two is a magnitude with 64 bits, and the
magnitudes behind it divide its unit evenly. -/
theorem exists_double (multiple : Nat) (scale : Int) (positive : 0 < multiple)
    (bounded : multiple < 2 ^ 53) (low : -1022 ≤ scale) (high : scale ≤ 900) :
    ∃ magnitude shift : Nat, multiple.log2 + shift = 52 ∧ 8 ≤ magnitude ∧
      magnitude + 2 ^ shift < double.infinity ∧
      ∀ more ≤ 2 ^ shift, double.value (magnitude + more) =
        (multiple + more / 2 ^ shift) * 2 ^ scale := by
  have hidden : double.hiddenBit = 2 ^ 52 := by decide
  have least : double.leastScale = -1074 := by decide
  have most : double.infinity = 2047 * 2 ^ 52 := by decide
  have log : multiple.log2 < 53 := (Nat.log2_lt positive.ne').mpr bounded
  obtain ⟨shift, shifted⟩ : ∃ shift, multiple.log2 + shift = 52 :=
    ⟨52 - multiple.log2, by omega⟩
  obtain ⟨exponent, scaled⟩ : ∃ exponent : Nat,
      double.leastScale + exponent = scale - shift :=
    ⟨(scale - shift + 1074).toNat, by omega⟩
  have atLeast : 2 ^ 52 ≤ multiple * 2 ^ shift := by
    rw [← shifted, pow_add]
    exact Nat.mul_le_mul_right _ (Nat.log2_self_le positive.ne')
  have atMost : multiple * 2 ^ shift + 2 ^ shift ≤ 2 * 2 ^ 52 := by
    rw [← shifted, pow_add, ← mul_assoc, ← pow_succ', ← Nat.succ_mul]
    exact Nat.mul_le_mul_right _ Nat.lt_log2_self
  have exponent_le : exponent ≤ 1974 := by omega
  refine ⟨exponent * 2 ^ 52 + multiple * 2 ^ shift, shift, shifted, by omega,
    by omega, fun more within => ?_⟩
  have value : double.value (exponent * double.hiddenBit +
      (multiple * 2 ^ shift + more)) =
        (multiple * 2 ^ shift + more : Nat) *
          2 ^ (double.leastScale + exponent) :=
    value_of_le (.inr (by omega)) (by omega)
  rw [hidden, ← add_assoc, scaled] at value
  rw [value, zpow_sub₀ two_ne_zero, zpow_natCast]
  push_cast
  field_simp

section

variable {magnitude : Nat} (finite : magnitude < single.infinity)

include finite

theorem single_bounds : single.significand magnitude < 2 ^ 24 ∧
    -149 ≤ single.scale magnitude ∧ single.scale magnitude ≤ 104 := by
  have hidden : single.hiddenBit = 2 ^ 23 := by decide
  have least : single.leastScale = -149 := by decide
  have most : single.infinity = 255 * 2 ^ 23 := by decide
  unfold significand scale
  rw [hidden, least]
  split <;> omega

/-- A number with 32 bits, the next one and the middle between them are
magnitudes with 64 bits, far from each other. -/
theorem exists_widened :
    ∃ wide half next : Nat, wide + 8 ≤ half ∧ half + 8 ≤ next ∧
      next < double.infinity ∧
      double.value wide = single.value magnitude ∧
      double.value half = single.middle magnitude ∧
      double.value next = single.value (magnitude + 1) := by
  obtain ⟨bounded, low, high⟩ := single_bounds finite
  rcases Nat.eq_zero_or_pos magnitude with rfl | positive
  · -- the unit has to be halved, since there is no multiple to divide
    obtain ⟨half, shift, wideShift, enough, fits, values⟩ :=
      exists_double 1 (-150) Nat.one_pos (by decide) (by decide) (by decide)
    have none : Nat.log2 1 = 0 := by decide
    have gap : (2 : ℚ) ^ (-149 : Int) = 2 ^ (-150 : Int) * 2 := by
      rw [← zpow_add_one₀ two_ne_zero]
      rfl
    have apart : 2 ^ 3 ≤ 2 ^ shift :=
      Nat.pow_le_pow_right Nat.two_pos (by omega)
    have here := values 0 (Nat.zero_le _)
    have there := values (2 ^ shift) le_rfl
    have unit : single.gap 0 = 2 ^ (-149 : Int) := rfl
    refine ⟨0, half, half + 2 ^ shift, by omega, by omega, fits, ?_, ?_, ?_⟩
    · rw [value_zero, value_zero]
    · rw [middle, value_zero, unit, gap]
      simpa using here
    · rw [there, value_succ, value_zero, unit, gap]
      push_cast
      field_simp
      norm_num
  · obtain ⟨wide, shift, wideShift, -, fits, values⟩ :=
      exists_double _ _ (significand_pos positive) (bounded.trans (by decide))
        (low.trans' (by decide)) (high.trans (by decide))
    have log := (Nat.log2_lt (significand_pos positive).ne').mpr bounded
    obtain ⟨less, rfl⟩ := Nat.exists_eq_add_of_le' (show 1 ≤ shift by omega)
    have apart : 2 ^ 3 ≤ 2 ^ less :=
      Nat.pow_le_pow_right Nat.two_pos (by omega)
    have doubled : 2 ^ (less + 1) = 2 ^ less + 2 ^ less := by
      rw [pow_succ, mul_two]
    have here := values 0 (Nat.zero_le _)
    have halfway := values (2 ^ less) (by omega)
    have there := values (2 ^ (less + 1)) le_rfl
    refine ⟨wide, wide + 2 ^ less, wide + 2 ^ (less + 1), by omega, by omega,
      fits, ?_, ?_, ?_⟩
    · simpa [value] using here
    · rw [halfway, middle, value, gap, pow_succ]
      push_cast
      field_simp
    · rw [there, value_succ, value, gap]
      push_cast
      field_simp

end

end BinaryFormat

namespace Binary

open BinaryFormat

/-- A finite value is converted to the magnitude between whose middles it
lies. -/
theorem convert_eq_of_between {format target : BinaryFormat}
    {value : Binary format} {magnitude : Nat}
    (finite : value.magnitude < format.infinity)
    (fits : magnitude < target.infinity)
    (above : ∀ previous, magnitude = previous + 1 →
      target.middle previous < format.value value.magnitude)
    (below : format.value value.magnitude < target.middle magnitude) :
    value.convert target = ⟨value.negative, magnitude⟩ := by
  have number : ¬ value.isNaN = true := by
    rw [isNaN, decide_eq_true_eq]
    exact finite.asymm
  rw [value_eq_div] at above below
  rw [convert, if_neg number, if_neg finite.ne]
  exact congrArg (Binary.mk value.negative)
    (nearest_eq_of_between fits (Nat.pow_pos Nat.two_pos) above below)

section

variable {value : Single} (finite : value.isFinite = true)

include finite

theorem convert_double_of_value_eq {wide : Nat} (fits : wide < double.infinity)
    (same : double.value wide = single.value value.magnitude) :
    value.convert .double = ⟨value.negative, wide⟩ := by
  apply convert_eq_of_between (decide_eq_true_eq.mp finite) fits
  · rintro previous rfl
    rw [← same]
    exact middle_lt_value_succ double previous
  · have := double.gap_pos wide
    rw [← same, middle]
    linarith

/-- A finite value is still finite with 64 bits. -/
theorem convert_double_finite :
    (value.convert .double).magnitude < double.infinity := by
  obtain ⟨wide, half, next, below, beyond, fits, same, -⟩ :=
    exists_widened (decide_eq_true_eq.mp finite)
  have small : wide < double.infinity := by omega
  rwa [convert_double_of_value_eq finite small same]

/-- What is at most seven magnitudes away from a widened value is narrowed to
the value that was widened. -/
theorem convert_single_of_near {found : Nat}
    (near : (value.convert .double).magnitude ≤ found + 7)
    (near' : found ≤ (value.convert .double).magnitude + 7) :
    (⟨(value.convert .double).negative, found⟩ : Double).convert .single =
      value := by
  have grows : StrictMono double.value := value_strictMono
  have finite' : value.magnitude < single.infinity :=
    decide_eq_true_eq.mp finite
  obtain ⟨wide, half, next, below, beyond, fits, same, isMiddle, -⟩ :=
    exists_widened finite'
  rw [convert_double_of_value_eq finite (by omega) same] at near near' ⊢
  simp only [] at near near'
  apply convert_eq_of_between (by simp only []; omega) finite'
  · intro previous isNext
    obtain ⟨-, half', wide', -, above, -, -, isMiddle', same'⟩ :=
      exists_widened (show previous < single.infinity by omega)
    have here : wide' = wide :=
      grows.injective (by rw [same', same, isNext])
    rw [← isMiddle']
    have : half' < found := by omega
    exact grows this
  · rw [← isMiddle]
    have : found < half := by omega
    exact grows this

theorem convert_convert : (value.convert .double).convert .single = value :=
  convert_single_of_near finite (Nat.le_add_right _ 7) (Nat.le_add_right _ 7)

end

end Binary

end SignatureVeil
