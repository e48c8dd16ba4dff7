import SignatureVeil.Proofs.Binary.TwiceRounded
import SignatureVeil.Proofs.Json.Numbers

/-!
# Literals of any length

When a number is read, only as many of its digits are kept as fit into 64 bits.
Digits behind the point can still be kept when one before the point has been
dropped.  All the same, the literal and what is kept of it agree in their first
digits, and so they differ by less than a rounding with 64 bits does.
-/

namespace SignatureVeil

open BinaryFormat

/-- Numbers of one sign that are the same or next to each other. -/
structure Binary.Neighbours {format : BinaryFormat}
    (first second : Binary format) : Prop where
  same_sign : first.negative = second.negative
  le_next : first.magnitude ≤ second.magnitude + 1
  le_next' : second.magnitude ≤ first.magnitude + 1

theorem Binary.Neighbours.refl {format : BinaryFormat}
    (number : Binary format) : number.Neighbours number :=
  ⟨rfl, Nat.le_succ _, Nat.le_succ _⟩

namespace DecimalLiteral

/-- The number with 32 bits that a literal is rounded to at once. -/
def toSingle (literal : DecimalLiteral) : Single :=
  .ofDecimal literal.negative literal.digits literal.exponent

/-- A few digits are kept; if others are dropped, then those that are kept are
almost as many as fit into 64 bits. -/
theorem exists_collect {digits : List Char}
    (decimal : ∀ digit ∈ digits, digit.isDigit = true) (number : Nat) :
    ∃ kept dropped, digits = kept ++ dropped ∧
      collect number digits = (Nat.ofDigitChars 10 kept number, dropped) ∧
      (dropped = [] ∨ Nat.pow 2 60 ≤ Nat.ofDigitChars 10 kept number) := by
  induction digits generalizing number with
  | nil => exact ⟨[], [], rfl, rfl, .inl rfl⟩
  | cons digit rest ih =>
      obtain ⟨isDigit, decimal⟩ := List.forall_mem_cons.mp decimal
      rw [collect]
      split
      case isTrue =>
        obtain ⟨kept, dropped, rfl, collected, many⟩ :=
          ih decimal (10 * number + (digit.toNat - '0'.toNat))
        refine ⟨digit :: kept, dropped, rfl, ?_, ?_⟩ <;>
          rw [Nat.ofDigitChars_cons]
        · exact collected
        · exact many
      case isFalse exceeds =>
        have small := ofDigitChars_lt (List.forall_mem_singleton.mpr isDigit)
        rw [Nat.ofDigitChars_cons, Nat.ofDigitChars_nil] at small
        refine ⟨[], digit :: rest, rfl, rfl, .inr ?_⟩
        rw [Nat.ofDigitChars_nil]
        simp only [Nat.pow_eq, List.length_singleton] at *
        omega

/-- Digits in front of others tell between which numbers all of them stand. -/
theorem digits_between {behind : List Char}
    (decimal : ∀ digit ∈ behind, digit.isDigit = true) (front : List Char)
    (power : Int) :
    (Nat.ofDigitChars 10 front 0 * 10 ^ power : ℚ) ≤
        Nat.ofDigitChars 10 (front ++ behind) 0 *
          10 ^ (power - behind.length) ∧
      (Nat.ofDigitChars 10 (front ++ behind) 0 : ℚ) *
          10 ^ (power - behind.length) <
        (Nat.ofDigitChars 10 front 0 + 1) * 10 ^ power := by
  have small : (Nat.ofDigitChars 10 behind 0 : ℚ) < 10 ^ behind.length := by
    exact_mod_cast ofDigitChars_lt decimal
  have unit : (0 : ℚ) < 10 ^ (power - behind.length) := by positivity
  have split : (10 : ℚ) ^ power =
      10 ^ behind.length * 10 ^ (power - behind.length) := by
    rw [← zpow_natCast, ← zpow_add₀ (by norm_num)]
    congr 1
    omega
  have whole : (Nat.ofDigitChars 10 (front ++ behind) 0 : ℚ) =
      10 ^ behind.length * Nat.ofDigitChars 10 front 0 +
        Nat.ofDigitChars 10 behind 0 := by
    rw [Nat.ofDigitChars_append, Nat.ofDigitChars_eq_ofDigitChars_zero]
    push_cast
    ring
  have nonneg : (0 : ℚ) ≤ Nat.ofDigitChars 10 behind 0 := Nat.cast_nonneg _
  rw [whole, split]
  constructor <;> nlinarith

/-- Numbers with many leading digits in common differ by less than a rounding
with 64 bits. -/
theorem within_of_between {leading : Nat} {unit first second : ℚ}
    (many : Nat.pow 2 60 ≤ leading) (positive : 0 < unit)
    (low : leading * unit ≤ first) (high : first < (leading + 1) * unit)
    (low' : leading * unit ≤ second) (high' : second < (leading + 1) * unit) :
    double.Within 1 first second := by
  have many' : (2 : ℚ) ^ 60 ≤ leading := by exact_mod_cast many
  have roundoff : double.unitRoundoff = 1 / 2 ^ 53 := by
    norm_num [unitRoundoff, hiddenBit, double]
  have part : (leading + 1 : ℚ) ≤ leading * (1 + double.unitRoundoff) := by
    rw [roundoff]
    linarith
  have factor : (0 : ℚ) ≤ 1 + double.unitRoundoff := by
    linarith [double.unitRoundoff_pos]
  have close {number number' : ℚ} (low : leading * unit ≤ number)
      (high : number' < (leading + 1) * unit) :
      number' ≤ number * (1 + double.unitRoundoff) ^ 1 := by
    calc number'
        ≤ (leading + 1) * unit := high.le
      _ ≤ leading * (1 + double.unitRoundoff) * unit :=
          mul_le_mul_of_nonneg_right part positive.le
      _ = leading * unit * (1 + double.unitRoundoff) := by ring
      _ ≤ number * (1 + double.unitRoundoff) ^ 1 := by
          rw [pow_one]
          exact mul_le_mul_of_nonneg_right low factor
  exact ⟨close low' high, close low high'⟩

theorem within_self {number : ℚ} (nonneg : 0 ≤ number) :
    double.Within 1 number number := by
  have factor : 1 ≤ (1 + double.unitRoundoff) ^ 1 := by
    rw [pow_one]
    linarith [double.unitRoundoff_pos]
  have same := le_mul_of_one_le_right nonneg factor
  exact ⟨same, same⟩

/-- Many leading digits tell nearly what number they begin, whatever digits
are behind them. -/
theorem within_of_front {front behind behind' : List Char}
    (many : Nat.pow 2 60 ≤ Nat.ofDigitChars 10 front 0)
    (decimal : ∀ digit ∈ behind, digit.isDigit = true)
    (decimal' : ∀ digit ∈ behind', digit.isDigit = true) (power : Int) :
    double.Within 1
      (Nat.ofDigitChars 10 (front ++ behind) 0 * 10 ^ (power - behind.length))
      (Nat.ofDigitChars 10 (front ++ behind') 0 *
        10 ^ (power - behind'.length)) := by
  have between := digits_between decimal front power
  have between' := digits_between decimal' front power
  have unit : (0 : ℚ) < 10 ^ power := by positivity
  exact within_of_between many unit between.1 between.2 between'.1 between'.2

/-- The digits before and behind the point, each divided into those that are
kept and those that are dropped. -/
structure Divides (literal : DecimalLiteral)
    (kept dropped kept' dropped' : List Char) : Prop where
  whole : literal.whole = kept ++ dropped
  fraction : literal.fraction = kept' ++ dropped'
  decimal : ∀ digit ∈ dropped ++ (kept' ++ dropped'), digit.isDigit = true
  leading : literal.leading = (Nat.ofDigitChars 10 (kept ++ kept') 0,
    literal.power + dropped.length - kept'.length)
  many : dropped = [] ∨ Nat.pow 2 60 ≤ Nat.ofDigitChars 10 kept 0
  many' : dropped' = [] ∨ Nat.pow 2 60 ≤ Nat.ofDigitChars 10 (kept ++ kept') 0

theorem exists_divides {literal : DecimalLiteral}
    (whole : ∀ digit ∈ literal.whole, digit.isDigit = true)
    (fraction : ∀ digit ∈ literal.fraction, digit.isDigit = true) :
    ∃ kept dropped kept' dropped',
      literal.Divides kept dropped kept' dropped' := by
  obtain ⟨kept, dropped, isWhole, collected, many⟩ := exists_collect whole 0
  obtain ⟨kept', dropped', isFraction, collected', many'⟩ :=
    exists_collect fraction (Nat.ofDigitChars 10 kept 0)
  rw [← Nat.ofDigitChars_append] at collected' many'
  refine ⟨kept, dropped, kept', dropped', isWhole, isFraction, ?_, ?_, many,
    many'⟩
  · rw [← isFraction]
    exact List.forall_mem_append.mpr ⟨fun digit member => whole digit
      (isWhole ▸ List.mem_append_right _ member), fraction⟩
  · have used : literal.fraction.length - dropped'.length = kept'.length := by
      rw [isFraction, List.length_append]
      omega
    rw [DecimalLiteral.leading]
    simp only [collected, collected', used]

/-- What a literal stands for is nearly what its leading digits stand for, and
it is nothing if they are. -/
structure Near (literal : DecimalLiteral) : Prop where
  within : double.Within 1 literal.value
    (literal.leading.1 * 10 ^ literal.leading.2)
  nothing : literal.leading.1 = 0 → literal.value = 0

section

variable {literal : DecimalLiteral} {kept dropped kept' dropped' : List Char}

theorem Divides.value (divides : literal.Divides kept dropped kept' dropped') :
    literal.value =
      Nat.ofDigitChars 10 (kept ++ (dropped ++ (kept' ++ dropped'))) 0 *
        10 ^ (literal.power - (kept' ++ dropped').length) := by
  rw [DecimalLiteral.value, digits, exponent, ← divides.fraction,
    ← List.append_assoc, ← divides.whole]

/-- All digits are kept. -/
theorem Divides.near_of_kept (divides : literal.Divides kept [] kept' []) :
    literal.Near := by
  have value := divides.value
  rw [List.nil_append, List.append_nil] at value
  constructor <;> rw [value, divides.leading] <;>
    simp only [List.length_nil, Nat.cast_zero, add_zero]
  · exact within_self (by positivity)
  · intro none
    rw [none, Nat.cast_zero, zero_mul]

/-- Digits are dropped behind the point only. -/
theorem Divides.near_of_dropped_behind
    (divides : literal.Divides kept [] kept' dropped')
    (many : Nat.pow 2 60 ≤ Nat.ofDigitChars 10 (kept ++ kept') 0) :
    literal.Near := by
  have value := divides.value
  have decimal := (List.forall_mem_append.mp divides.decimal).2
  have decimal' := (List.forall_mem_append.mp decimal).2
  have within := within_of_front many decimal' (List.forall_mem_nil _)
    (literal.power - kept'.length)
  rw [List.append_nil, List.length_nil, Nat.cast_zero, sub_zero, sub_sub,
    ← Nat.cast_add, ← List.length_append, List.append_assoc] at within
  constructor <;> rw [divides.leading] <;>
    simp only [List.length_nil, Nat.cast_zero, add_zero]
  · rw [value]
    exact within
  · intro none
    rw [none] at many
    contradiction

/-- Digits are dropped before the point, and those behind the point may be
kept all the same. -/
theorem Divides.near_of_dropped_before
    (divides : literal.Divides kept dropped kept' dropped')
    (many : Nat.pow 2 60 ≤ Nat.ofDigitChars 10 kept 0) : literal.Near := by
  have value := divides.value
  obtain ⟨-, decimal⟩ := List.forall_mem_append.mp divides.decimal
  obtain ⟨decimal, -⟩ := List.forall_mem_append.mp decimal
  have within := within_of_front many divides.decimal decimal
    (literal.power + dropped.length)
  have weight : literal.power + dropped.length -
        (dropped ++ (kept' ++ dropped')).length =
      literal.power - (kept' ++ dropped').length := by
    rw [List.length_append]
    omega
  rw [weight] at within
  constructor <;> rw [divides.leading]
  · rw [value]
    exact within
  · intro (none : Nat.ofDigitChars 10 (kept ++ kept') 0 = 0)
    have grown := le_ofDigitChars kept' (Nat.ofDigitChars 10 kept 0)
    rw [← Nat.ofDigitChars_append, none] at grown
    exact absurd (many.trans grown) (by decide)

end

/-- The digits of a literal that are kept, and their power of ten, stand for
nearly the same number as the literal. -/
theorem leading_near {literal : DecimalLiteral}
    (whole : ∀ digit ∈ literal.whole, digit.isDigit = true)
    (fraction : ∀ digit ∈ literal.fraction, digit.isDigit = true) :
    literal.Near := by
  obtain ⟨kept, dropped, kept', dropped', divides⟩ :=
    exists_divides whole fraction
  rcases divides.many with rfl | many
  · rcases divides.many' with rfl | many'
    · exact divides.near_of_kept
    · exact divides.near_of_dropped_behind many'
  · exact divides.near_of_dropped_before many

section

variable {literal : DecimalLiteral}
  (whole : ∀ digit ∈ literal.whole, digit.isDigit = true)
  (fraction : ∀ digit ∈ literal.fraction, digit.isDigit = true)
  {rounded : Nat} (rounds : double.Rounds literal.value rounded)

include whole fraction rounds

/-- What a literal is read as is few magnitudes away from what its value is
rounded to, or both are far below all positive numbers with 32 bits. -/
theorem floatOf?_near {found : Double}
    (read : Json.floatOf? literal = some found) :
    found.negative = literal.negative ∧
      ((rounded ≤ found.magnitude + 3 ∧ found.magnitude ≤ rounded + 3) ∨
        (double.value found.magnitude < single.middle 0 ∧
          literal.value < single.middle 0)) := by
  obtain ⟨within, nothing⟩ := leading_near whole fraction
  obtain ⟨scaled, scales, rfl⟩ := Option.map_eq_some_iff.mp read
  change double.scaleByTen? (double.nearest literal.leading.1 1)
    literal.leading.2 = some scaled at scales
  refine ⟨rfl, ?_⟩
  rcases Nat.eq_zero_or_pos literal.leading.1 with zero | positive
  · have nearest : double.nearest 0 1 = 0 := if_pos rfl
    rw [zero, nearest, scaleByTen?_zero] at scales
    obtain rfl := Option.some.inj scales
    have tiny : double.value 0 < single.middle 0 := by
      rw [value_zero]
      exact single.middle_pos 0
    refine .inr ⟨tiny, ?_⟩
    rw [nothing zero]
    exact single.middle_pos 0
  · exact scaled_near_or_tiny positive literal.leading_fst_lt scales within
      rounds

omit rounds in
/-- A literal is read unless it is one of the very last numbers. -/
theorem exists_floatOf?
    (inside : literal.value ≤ double.value (lastDouble - 3)) :
    ∃ found, Json.floatOf? literal = some found := by
  obtain ⟨within, -⟩ := leading_near whole fraction
  obtain ⟨rounded, rounds, -⟩ :=
    double.exists_rounds_decimal literal.digits literal.exponent
  rcases Nat.eq_zero_or_pos literal.leading.1 with zero | positive
  · have nearest : double.nearest 0 1 = 0 := if_pos rfl
    have read := scaleByTen?_zero literal.leading.2
    rw [← nearest, ← zero] at read
    exact ⟨_, floatOf?_of_leading rfl read⟩
  · obtain ⟨scaled, read⟩ :=
      exists_read positive literal.leading_fst_lt within rounds inside
    exact ⟨_, floatOf?_of_leading rfl read⟩

omit rounds in
/-- Narrowing what a literal is read as gives the number that the literal is
rounded to at once, or one next to it; and that only close to a middle. -/
theorem convert_floatOf?_near {found : Double}
    (read : Json.floatOf? literal = some found) :
    (found.convert .single).Neighbours literal.toSingle ∧
      (found.convert .single ≠ literal.toSingle →
        NearMiddle literal.value) := by
  obtain ⟨rounded, rounds, -⟩ :=
    double.exists_rounds_decimal literal.digits literal.exponent
  obtain ⟨narrow, direct, isDirect⟩ :=
    exists_rounds_ofDecimal literal.digits literal.exponent
  obtain ⟨narrow', twice, isTwice⟩ :=
    exists_rounds_convert (JsonNumber.floatOf?_finite read)
  obtain ⟨sign, near⟩ := floatOf?_near whole fraction rounds read
  obtain ⟨le_next, le_next', only⟩ := narrowed_near rounds direct twice near
  rw [isTwice, toSingle, Binary.ofDecimal, isDirect, sign]
  refine ⟨⟨rfl, le_next, le_next'⟩, fun different => only fun same => ?_⟩
  rw [same] at different
  exact different rfl

end

end DecimalLiteral

end SignatureVeil
