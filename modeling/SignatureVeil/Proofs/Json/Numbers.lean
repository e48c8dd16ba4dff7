import SignatureVeil.Json.Printer
import SignatureVeil.Proofs.Binary.DecimalScaling
import SignatureVeil.Proofs.Json.NumberText

/-!
# Numbers that are written and read again

What a number is written as is read as a number again.  An integer is read as
it was; any other number keeps its sign, and is read at most seven magnitudes
away.
-/

namespace SignatureVeil

/-! ## Magnitudes that are read again -/

section

open BinaryFormat

theorem floatOf?_of_leading {literal : DecimalLiteral} {digits found : Nat}
    {power : Int} (leading : literal.leading = (digits, power))
    (scaled : double.scaleByTen? (double.nearest digits 1) power =
      some found) :
    Json.floatOf? literal = some ⟨literal.negative, found⟩ := by
  rw [Json.floatOf?, leading]
  exact congrArg (Option.map _) scaled

theorem floatOf?_literal {magnitude : Nat} {literal : DecimalLiteral}
    (positive : 0 < literal.digits) (small : literal.digits ≤ Nat.pow 10 19)
    (rounds : double.Rounds literal.value magnitude) (nonzero : 0 < magnitude)
    (far : magnitude + 2 ≤ lastDouble) :
    ∃ reread, Json.floatOf? literal = some ⟨literal.negative, reread⟩ ∧
      reread ≤ lastDouble ∧ magnitude ≤ reread + 7 ∧
      reread ≤ magnitude + 7 := by
  have fits : literal.digits < Nat.pow 2 64 :=
    small.trans_lt (by decide)
  obtain ⟨reread, scaled, near⟩ :=
    exists_scaled_of_rounds rounds positive small nonzero far
  exact ⟨reread,
    floatOf?_of_leading (DecimalLiteral.leading_eq fits) scaled, near⟩

theorem floatOf?_of_neg {literal : DecimalLiteral} {digits found : Nat}
    {power : Int} (leading : literal.leading = (digits, power))
    (lowers : power < 0) (notBeyond : -(largestPower : Int) ≤ power)
    (divided : double.divide (double.nearest digits 1)
      (double.powerOfTen (-power).toNat) = found) :
    Json.floatOf? literal = some ⟨literal.negative, found⟩ :=
  floatOf?_of_leading leading
    (divided ▸ scaleByTen?_of_neg _ lowers notBeyond)

/-- The two largest magnitudes are both read as the largest one. -/
theorem floatOf?_last {magnitude : Nat} (finite : magnitude ≤ lastDouble)
    (last : lastDouble < magnitude + 2) (negative : Bool) :
    Json.floatOf? ((FloatLayout.double.spelling
      (double.shortest magnitude)).literal negative) =
        some ⟨negative, lastDouble⟩ := by
  have scaled (digits : Nat) (two : digits = 17976931348623157 ∨
      digits = 17976931348623155) :
      double.scaleByTen? (double.nearest digits 1) 292 = some lastDouble := by
    rcases two with rfl | rfl <;>
      exact (scaleByTen?_of_nonneg (by decide) (by decide)
        (by decide +kernel)).trans (by decide +kernel)
  have parts : ∃ digits, (digits = 17976931348623157 ∨
      digits = 17976931348623155) ∧
      ((FloatLayout.double.spelling (double.shortest magnitude)).literal
        negative).leading = (digits, 292) := by
    rcases (show magnitude = lastDouble ∨ magnitude = lastDouble - 1 by omega)
      with rfl | rfl
    · exact ⟨_, .inl rfl, by cases negative <;> decide +kernel⟩
    · exact ⟨_, .inr rfl, by cases negative <;> decide +kernel⟩
  obtain ⟨digits, two, leading⟩ := parts
  exact floatOf?_of_leading leading (scaled digits two)

theorem floatOf?_shortest {magnitude : Nat} (nonzero : 0 < magnitude)
    (finite : magnitude ≤ lastDouble) (negative : Bool) :
    ∃ reread, Json.floatOf? ((FloatLayout.double.spelling
        (double.shortest magnitude)).literal negative) =
          some ⟨negative, reread⟩ ∧ reread ≤ lastDouble ∧
      magnitude ≤ reread + 7 ∧ reread ≤ magnitude + 7 := by
  have narrow : 4 * double.hiddenBit ≤ Nat.pow 10 17 := by decide
  have positive := digits_shortest_pos nonzero narrow
  rcases Nat.lt_or_ge lastDouble (magnitude + 2) with last | far
  · exact ⟨lastDouble, floatOf?_last finite last negative, le_rfl, by omega,
      by omega⟩
  · refine floatOf?_literal (FloatLayout.spelling_digits_pos positive _ _)
      (FloatLayout.spelling_digits_lt (digits_shortest_lt nonzero narrow)
        (by decide) _).le ?_ nonzero far
    rw [FloatLayout.spelling_value _ positive]
    exact rounds_shortest nonzero narrow

end

/-! ## Numbers that are read again -/

namespace JsonNumber

/-- The numbers that a file can hold: integers with 64 bits, and finite
floating-point values. -/
def WellFormed : JsonNumber → Prop
  | .integer value => -2 ^ 63 ≤ value ∧ value < 2 ^ 64
  | .float value => value.magnitude < BinaryFormat.double.infinity

def negative : JsonNumber → Bool
  | .integer value => value < 0
  | .float value => value.negative

/-- The spelling of a number without its sign. -/
def spelling : JsonNumber → Spelling
  | .integer value => ⟨Nat.toDigits 10 value.natAbs, none, none⟩
  | .float value =>
      if value.magnitude = 0 then
        ⟨['0'], some ['0'], none⟩
      else
        FloatLayout.double.spelling
          (BinaryFormat.double.shortest value.magnitude)

/-- The number that is read where a number is written. -/
def reread (number : JsonNumber) : JsonNumber :=
  match Json.readNumber .full number.write with
  | .ok (found, _) => found
  | .error _ => number

/-- An integer is found as it is, and any other number with the same sign and
at most seven magnitudes away, but zero as zero. -/
def Near : JsonNumber → JsonNumber → Prop
  | .integer value, found => found = .integer value
  | .float value, found => ∃ magnitude,
      found = .float ⟨value.negative, magnitude⟩ ∧
        value.magnitude ≤ magnitude + 7 ∧ magnitude ≤ value.magnitude + 7 ∧
        (value.magnitude = 0 → magnitude = 0)

theorem toList_toString (value : Int) :
    (toString value).toList = Json.minusSign (value < 0) ++
      Nat.toDigits 10 value.natAbs := by
  rw [Int.toString_eq_repr, Int.repr_eq_if, Nat.repr_eq_ofList_toDigits,
    Nat.repr_eq_ofList_toDigits, Json.minusSign]
  split
  case isTrue nonneg =>
    have same : value.toNat = value.natAbs := by omega
    simp [nonneg, same]
  case isFalse negative =>
    have same : (-value).toNat = value.natAbs := by omega
    simp [not_le.mp negative, same]

theorem write_eq (number : JsonNumber) :
    number.write = Json.minusSign number.negative ++ number.spelling.text := by
  cases number with
  | integer value =>
      rw [write, toList_toString]
      simp [spelling, negative, Spelling.text, Spelling.fractionText,
        Spelling.powerText]
  | float value =>
      rw [write, FloatLayout.writeFinite, FloatLayout.write_eq, spelling,
        negative, Json.minusSign]
      split <;> split <;> simp_all [Spelling.text, Spelling.fractionText,
        Spelling.powerText]

theorem spelling_wellFormed (number : JsonNumber) :
    number.spelling.WellFormed := by
  cases number with
  | integer value =>
      exact {
        wholeDigits := isDigit_of_mem_toDigits _
        whole_ne_nil := List.ne_nil_of_length_pos Nat.length_toDigits_pos
        zeroAlone := by
          intro rest written
          rcases Nat.eq_zero_or_pos value.natAbs with zero | positive
          · rw [spelling, zero] at written
            exact (List.cons.inj written).2.symm
          · exact absurd written (toDigits_ne_zero_cons positive rest)
        fractionDigits := by simp [spelling] }
  | float value =>
      rw [spelling]
      split
      case isTrue =>
        exact ⟨List.forall_mem_singleton.mpr (by decide),
          List.cons_ne_nil _ _, by simp, by simp⟩
      case isFalse nonzero =>
        exact FloatLayout.spelling_wellFormed
          (BinaryFormat.digits_shortest_pos (Nat.pos_of_ne_zero nonzero)
            (by decide)) _

theorem numberOf?_integer {value : Int} (wellFormed : (integer value).WellFormed) :
    Json.numberOf? (value < 0) (Nat.toDigits 10 value.natAbs) none none =
      some (.integer value) := by
  obtain ⟨low, high⟩ := wellFormed
  have digits : (⟨value < 0, Nat.toDigits 10 value.natAbs, [], 0⟩ :
      DecimalLiteral).digits = value.natAbs := by
    rw [DecimalLiteral.digits, List.append_nil, Nat.ofDigitChars_ten_toDigits]
  have bound : Nat.pow 2 63 = 2 ^ 63 := rfl
  have bound' : Nat.pow 2 64 = 2 ^ 64 := rfl
  simp only [Json.numberOf?, Option.getD_none, digits, bound, bound']
  rcases lt_or_ge value 0 with negative | nonneg
  · have same : -(value.natAbs : Int) = value := by omega
    rw [if_neg (by simp [negative]), if_pos (by simp [negative]; omega), same]
  · have same : (value.natAbs : Int) = value := by omega
    rw [if_pos (by simp [nonneg]; omega), same]

theorem numberOf?_real {spelling : Spelling} {negative : Bool} {found : Double}
    (real : spelling.isInteger = false)
    (same : Json.floatOf? (spelling.literal negative) = some found) :
    Json.numberOf? negative spelling.whole spelling.fraction spelling.power =
      some (.float found) := by
  rw [Spelling.isInteger] at real
  rw [Spelling.literal] at same
  simp [Json.numberOf?, real, same]

theorem floatOf?_zero (negative : Bool) :
    Json.floatOf? ⟨negative, ['0'], ['0'], 0⟩ = some ⟨negative, 0⟩ := by
  exact floatOf?_of_neg (rfl : _ = ((0 : Nat), (-1 : Int))) (by decide)
    (by decide) (by decide +kernel)

theorem exists_numberOf?_spelling {number : JsonNumber}
    (wellFormed : number.WellFormed) :
    ∃ found, Json.numberOf? number.negative number.spelling.whole
        number.spelling.fraction number.spelling.power = some found ∧
      number.Near found := by
  cases number with
  | integer value => exact ⟨_, numberOf?_integer wellFormed, rfl⟩
  | float value =>
      obtain ⟨negative, magnitude⟩ := value
      rw [spelling]
      split
      case isTrue zero =>
        obtain rfl : magnitude = 0 := zero
        exact ⟨_, numberOf?_real rfl (floatOf?_zero negative), 0, rfl,
          Nat.zero_le _, Nat.zero_le _, fun _ => rfl⟩
      case isFalse nonzero =>
        obtain ⟨found, same, -, near, near'⟩ := floatOf?_shortest
          (Nat.pos_of_ne_zero nonzero) (Nat.le_sub_one_of_lt wellFormed)
          negative
        exact ⟨_, numberOf?_real (FloatLayout.isInteger_spelling _ _) same,
          found, rfl, near, near', fun zero => absurd zero nonzero⟩

/-- What a number is spelled as is read, whatever stands behind it. -/
theorem readNumber_write_of_spelling {number found : JsonNumber}
    (same : Json.numberOf? number.negative number.spelling.whole
      number.spelling.fraction number.spelling.power = some found)
    {rest : List Char} (ends : Json.NumberEnds rest) :
    Json.readNumber .full (number.write ++ rest) = .ok (found, rest) := by
  rw [write_eq, List.append_assoc]
  exact Json.readNumber_append number.spelling_wellFormed ends same

theorem reread_eq {number found : JsonNumber}
    (same : Json.numberOf? number.negative number.spelling.whole
      number.spelling.fraction number.spelling.power = some found) :
    number.reread = found := by
  have alone := readNumber_write_of_spelling same Json.numberEnds_nil
  rw [List.append_nil] at alone
  rw [reread, alone]

theorem reread_float {value found : Double} (nonzero : value.magnitude ≠ 0)
    (same : Json.floatOf? ((FloatLayout.double.spelling
      (BinaryFormat.double.shortest value.magnitude)).literal
        value.negative) = some found) :
    (float value).reread = .float found := by
  refine reread_eq ?_
  rw [spelling, if_neg nonzero]
  exact numberOf?_real (FloatLayout.isInteger_spelling _ _) same

theorem readNumber_write {number : JsonNumber} (wellFormed : number.WellFormed)
    {rest : List Char} (ends : Json.NumberEnds rest) :
    Json.readNumber .full (number.write ++ rest) =
      .ok (number.reread, rest) := by
  obtain ⟨found, same, -⟩ := exists_numberOf?_spelling wellFormed
  rw [reread_eq same]
  exact readNumber_write_of_spelling same ends

theorem near_reread {number : JsonNumber} (wellFormed : number.WellFormed) :
    number.Near number.reread := by
  obtain ⟨found, same, near⟩ := exists_numberOf?_spelling wellFormed
  rw [reread_eq same]
  exact near

/-! ## Numbers that are read -/

theorem floatOf?_finite {literal : DecimalLiteral} {found : Double}
    (same : Json.floatOf? literal = some found) :
    (float found).WellFormed := by
  obtain ⟨scaled, result, rfl⟩ := Option.map_eq_some_iff.mp same
  have small : BinaryFormat.double.nearest literal.leading.1 1 ≤
      BinaryFormat.lastDouble := by
    rcases Nat.eq_zero_or_pos literal.leading.1 with zero | positive
    · rw [zero]
      exact Nat.zero_le _
    · have fits : Nat.pow 2 64 ≤ Nat.pow 10 BinaryFormat.largestPower := by
        decide +kernel
      exact (BinaryFormat.roundedWhole_nearest positive
        (literal.leading_fst_lt.le.trans fits)).finite
  exact (BinaryFormat.scaleByTen?_le small result).trans_lt
    BinaryFormat.lastDouble_lt

theorem numberOf?_wellFormed {negative : Bool} {whole : List Char}
    {fraction : Option (List Char)} {power : Option Int} {number : JsonNumber}
    (same : Json.numberOf? negative whole fraction power = some number) :
    number.WellFormed := by
  have bound : Nat.pow 2 63 = 2 ^ 63 := rfl
  have bound' : Nat.pow 2 64 = 2 ^ 64 := rfl
  rw [Json.numberOf?] at same
  simp only [bound, bound'] at same
  split at same
  case isTrue fits =>
    obtain rfl := Option.some.inj same
    simp at fits
    constructor <;> omega
  case isFalse =>
    split at same
    case isTrue fits =>
      obtain rfl := Option.some.inj same
      simp at fits
      constructor <;> omega
    case isFalse =>
      obtain ⟨found, read, rfl⟩ := Option.map_eq_some_iff.mp same
      exact floatOf?_finite read

theorem readNumber_wellFormed {text rest : List Char} {number : JsonNumber}
    (read : Json.readNumber .full text = .ok (number, rest)) :
    number.WellFormed := by
  unfold Json.readNumber at read
  split at read
  obtain ⟨⟨whole, _⟩, -, read⟩ := Json.exists_of_bind_eq_ok read
  obtain ⟨⟨fraction, _⟩, -, read⟩ := Json.exists_of_bind_eq_ok read
  obtain ⟨⟨power, _⟩, -, read⟩ := Json.exists_of_bind_eq_ok read
  dsimp only at read
  split at read
  case h_1 found same =>
    cases read
    exact numberOf?_wellFormed same
  case h_2 => exact absurd read nofun

end JsonNumber

end SignatureVeil
