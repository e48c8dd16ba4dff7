import SignatureVeil.Proofs.Binary.ClearMiddles
import SignatureVeil.Proofs.Binary.ExactScaling
import SignatureVeil.Proofs.Binary.GridPoints
import SignatureVeil.Proofs.Binary.Ties

/-!
# Decimals that are read with 64 bits and narrowed

The shortest decimal of a number with 32 bits, read with 64 bits, is narrowed
to the number.  If it is a middle, nothing is rounded when it is read; else it
keeps away from the middles, and what is read is on the same side of them.
-/

namespace SignatureVeil

namespace BinaryFormat

/-- A shortest decimal is a middle or it keeps away from it. -/
theorem shortest_eq_middle_or_far {magnitude named : Nat}
    (finite : magnitude < single.infinity)
    (ordinary : magnitude ∉ delicateMagnitudes)
    (distance : |single.middle magnitude - single.value named| =
      single.gap magnitude / 2) :
    (single.shortest named).value = single.middle magnitude ∨
      3 / 2 ^ 28 * (single.gap magnitude / 2) ≤
        |(single.shortest named).value - single.middle magnitude| := by
  rcases lt_or_ge |(single.shortest named).value - single.middle magnitude|
    (3 / 2 ^ 28 * (single.gap magnitude / 2)) with near | far
  · exact eq_middle_or_far finite ordinary (lt_pow_of_near distance near)
  · exact .inr far

/-- A shortest decimal that is a middle has few digits. -/
theorem digits_shortest_lt_of_middle {magnitude named : Nat}
    (tie : (single.shortest named).value = single.middle magnitude)
    (distance : |single.middle magnitude - single.value named| =
      single.gap magnitude / 2) :
    (single.shortest named).digits < 10 ^ 15 := by
  have gap := single.gap_pos magnitude
  have coarse : (1 - 1 / 2 : ℚ) * (single.gap magnitude / 2) <
      10 ^ (single.shortest named).exponent := by
    refine lt_pow_of_near distance ?_
    rw [tie, sub_self, abs_zero]
    positivity
  have hidden : (single.hiddenBit : ℚ) = 2 ^ 23 := by
    exact_mod_cast (rfl : single.hiddenBit = 2 ^ 23)
  have few : (single.shortest named).digits < (10 ^ 15 : ℚ) := by
    refine lt_of_mul_lt_mul_right ?_
      (zpow_nonneg (by norm_num : (0 : ℚ) ≤ 10)
        (single.shortest named).exponent)
    calc (single.shortest named).digits *
          (10 : ℚ) ^ (single.shortest named).exponent
        = single.middle magnitude := tie
      _ < single.value (magnitude + 1) :=
          middle_lt_value_succ single magnitude
      _ ≤ 2 * single.hiddenBit * single.gap magnitude :=
          single.value_succ_le magnitude
      _ ≤ 10 ^ 15 * (10 : ℚ) ^ (single.shortest named).exponent := by
          rw [hidden]
          linarith
  exact_mod_cast few

/-- The shortest decimal of a magnitude is a middle next to it only if the
magnitude is even. -/
theorem even_of_shortest_eq_middle {previous : Nat}
    (tie : (single.shortest (previous + 1)).value = single.middle previous ∨
      (single.shortest (previous + 1)).value = single.middle (previous + 1)) :
    (previous + 1) % 2 = 0 := by
  by_contra odd
  obtain ⟨low, high⟩ := shortest_between_of_odd
    (by decide : 8 * single.hiddenBit ≤ Nat.pow 10 17) (by decide)
    (Nat.mod_two_ne_zero.mp odd)
  rcases tie with tie | tie
  · exact low.ne' tie
  · exact high.ne tie

section

variable {digits previous : Nat} {power : Int} (positive : 0 < digits)

include positive

theorem exists_rounds (power : Int) :
    ∃ magnitude, double.Rounds (digits * 10 ^ power) magnitude := by
  have weight (power : Nat) : 0 < Nat.pow 10 power :=
    Nat.pow_pos (by decide)
  obtain ⟨magnitude, rounds, -⟩ := double.exists_rounds_nearest
    (Nat.mul_pos positive (weight power.toNat)) (weight (-power).toNat)
  rw [Nat.cast_mul, cast_natPow, cast_natPow, mul_div_assoc,
    ← zpow_eq_div (by norm_num)] at rounds
  exact ⟨magnitude, rounds⟩

/-- A decimal in the range of the numbers with 32 bits is scaled by one power
of ten. -/
theorem exists_scaled_near {magnitude : Nat} (small : digits ≤ Nat.pow 10 19)
    (finite : magnitude < single.infinity)
    (above : single.middle 0 ≤ digits * 10 ^ power)
    (below : digits * 10 ^ power ≤ single.middle magnitude) :
    ∃ found scaled, double.Rounds (digits * 10 ^ power) found ∧
      double.scaleByTen? (double.nearest digits 1) power = some scaled ∧
      scaled < double.infinity ∧ found ≤ scaled + 2 ∧ scaled ≤ found + 2 := by
  obtain ⟨found, rounds⟩ := exists_rounds positive power
  obtain ⟨half, -, fits, here, -⟩ := exists_half finite
  have notBeyond : found ≤ half := by
    refine rounds.le_of_lt_middle (below.trans_lt ?_)
    rw [← here]
    exact lt_add_of_pos_right _ (half_pos (double.gap_pos half))
  have last : lastDouble + 1 = double.infinity := by decide
  have grows {fewer more : Nat} (le : fewer ≤ more) :
      Nat.pow 10 fewer ≤ Nat.pow 10 more :=
    Nat.pow_le_pow_right (by decide) le
  have fits' : digits ≤ Nat.pow 10 largestPower :=
    small.trans (grows (by decide))
  have raised : -(largestPower : Int) ≤ power := by
    by_contra less
    have := calc (digits : ℚ) * 10 ^ power
        ≤ (Nat.pow 10 19 : Nat) / (Nat.pow 10 largestPower : Nat) :=
          mul_zpow_le small (by omega)
      _ < single.middle 0 := div_lt_middle_zero
          (by decide : single.leastScale = -((149 : Nat) : Int))
          (by decide +kernel)
    exact lt_irrefl _ (this.trans_le above)
  rcases lt_or_ge power 0 with lowers | raises
  · obtain ⟨scaled, result, finite', near⟩ :=
      exists_scaled_down positive fits' lowers raised rounds
    exact ⟨found, scaled, rounds, result, by omega, near⟩
  · obtain ⟨scaled, result, finite', near⟩ :=
      exists_scaled_up positive fits' raises
        (rounds.power_le positive (by omega)) rounds (by omega)
    exact ⟨found, scaled, rounds, result, by omega, near⟩

/-- A middle is read exactly, and narrowed to the even one of the magnitudes
around it. -/
theorem exists_scaled_middle {magnitude : Nat} (few : digits < 10 ^ 15)
    (finite : magnitude < single.infinity)
    (same : digits * 10 ^ power = single.middle magnitude) (negative : Bool) :
    ∃ scaled, double.scaleByTen? (double.nearest digits 1) power =
        some scaled ∧
      (⟨negative, scaled⟩ : Double).convert .single =
        ⟨negative, magnitude + magnitude % 2⟩ := by
  obtain ⟨half, -, fits, here, -⟩ := exists_half finite
  have fits' : half < double.infinity := by omega
  exact ⟨half, scaleByTen?_of_value_eq positive (few.trans (by decide)) fits'
    (same.trans here.symm),
    Binary.convert_eq_of_middle fits' (by decide) finite here⟩

/-- What the shortest decimal of a number with 32 bits is read as is narrowed
to the number, but possibly next to a delicate magnitude. -/
theorem exists_scaled_shortest (small : digits ≤ Nat.pow 10 19)
    (few : (single.shortest (previous + 1)).digits < 10 ^ 15 →
      digits < 10 ^ 15)
    (finite : previous + 1 < single.infinity)
    (ordinary : previous ∉ delicateMagnitudes)
    (ordinary' : previous + 1 ∉ delicateMagnitudes)
    (same : digits * 10 ^ power = (single.shortest (previous + 1)).value)
    (negative : Bool) :
    ∃ scaled, double.scaleByTen? (double.nearest digits 1) power =
        some scaled ∧
      (⟨negative, scaled⟩ : Double).convert .single =
        ⟨negative, previous + 1⟩ := by
  have finite' : previous < single.infinity := by omega
  have rounds : single.Rounds (single.shortest (previous + 1)).value
      (previous + 1) :=
    rounds_shortest previous.succ_pos (by decide)
  have lower := rounds.middle_le previous rfl
  have upper := rounds.le_middle
  have distance := single.abs_middle_sub_succ previous
  have distance' := single.abs_middle_sub (previous + 1)
  rcases shortest_eq_middle_or_far finite' ordinary distance with tie | far
  · have parity := even_of_shortest_eq_middle (.inl tie)
    have odd : previous % 2 = 1 := by omega
    have read := exists_scaled_middle positive
      (few (digits_shortest_lt_of_middle tie distance)) finite'
      (same.trans tie) negative
    rwa [odd] at read
  · rcases shortest_eq_middle_or_far finite ordinary' distance' with
      tie | far'
    · have read := exists_scaled_middle positive
        (few (digits_shortest_lt_of_middle tie distance')) finite
        (same.trans tie) negative
      rwa [even_of_shortest_eq_middle (.inr tie), Nat.add_zero] at read
    · rw [abs_of_nonneg (sub_nonneg.mpr lower), ← same] at far
      rw [abs_of_nonpos (sub_nonpos.mpr upper), ← same] at far'
      rw [← same] at lower upper
      have least : single.middle 0 ≤ digits * 10 ^ power :=
        (middle_strictMono.monotone previous.zero_le).trans lower
      obtain ⟨found, scaled, rounds', result, fits, near, near'⟩ :=
        exists_scaled_near positive small finite least upper
      refine ⟨scaled, result,
        Binary.convert_eq_of_between fits finite ?_ ?_⟩
      · rintro _ ⟨⟩
        exact middle_lt_value finite' rounds' near (by linarith)
      · exact value_lt_middle finite rounds' near' (by linarith)

end

end BinaryFormat

end SignatureVeil
