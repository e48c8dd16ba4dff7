import Mathlib.Data.List.Basic
import Mathlib.Data.List.TakeWhile
import SignatureVeil.Binary.Layout
import SignatureVeil.Proofs.Binary.ShortestDecimal
import SignatureVeil.Text.DecimalLiteral

/-!
# How decimals are spelled

A layout spells a decimal by digits before a point, digits behind it and a
power of ten, of which it may leave out the latter two.  These parts, taken as
a literal, stand for the decimal, and their digits fit into 64 bits.
-/

namespace SignatureVeil

/-! ## Digits -/

theorem ofDigitChars_lt {digits : List Char}
    (decimal : ∀ digit ∈ digits, digit.isDigit = true) :
    Nat.ofDigitChars 10 digits 0 < 10 ^ digits.length := by
  induction digits using List.reverseRecOn with
  | nil => simp
  | append_singleton front last ih =>
      rw [List.forall_mem_append, List.forall_mem_singleton] at decimal
      have less := ih decimal.1
      have digit : last.toNat - '0'.toNat < 10 := by
        have := decimal.2
        simp only [Char.isDigit, Bool.and_eq_true, decide_eq_true_eq,
          UInt32.le_iff_toNat_le] at this
        have upper : last.toNat ≤ 57 := this.2
        change last.toNat - 48 < 10
        omega
      rw [Nat.ofDigitChars_append, Nat.ofDigitChars_cons,
        Nat.ofDigitChars_nil, List.length_append, List.length_singleton,
        Nat.pow_succ]
      omega

theorem isDigit_of_mem_toDigits (number : Nat) :
    ∀ digit ∈ Nat.toDigits 10 number, digit.isDigit = true :=
  fun _ member => Nat.isDigit_of_mem_toDigits (by decide) (by decide) member

theorem isDigit_of_mem_zeros {count : Nat} :
    ∀ digit ∈ List.replicate count '0', digit.isDigit = true := by
  intro digit member
  rw [List.eq_of_mem_replicate member]
  decide

/-- The digits of a positive number begin with another digit than zero. -/
theorem toDigits_ne_zero_cons {number : Nat} (positive : 0 < number)
    (rest : List Char) : Nat.toDigits 10 number ≠ '0' :: rest := by
  intro leading
  obtain ⟨less, length, low, -⟩ := exists_toDigits_length positive
  have digits := isDigit_of_mem_toDigits number
  rw [leading] at length digits
  have small := ofDigitChars_lt (List.forall_mem_cons.mp digits).2
  have same : Nat.ofDigitChars 10 ('0' :: rest) 0 = number := by
    rw [← leading, Nat.ofDigitChars_ten_toDigits]
  rw [Nat.ofDigitChars_cons] at same
  change Nat.ofDigitChars 10 rest 0 = number at same
  have : rest.length = less := Nat.succ_injective length
  rw [this] at small
  omega

/-- The digits of a number without the zeros at their end. -/
def significantDigits (number : Nat) : List Char :=
  ((Nat.toDigits 10 number).reverse.dropWhile (· = '0')).reverse

theorem exists_zeros (number : Nat) :
    ∃ zeros, Nat.toDigits 10 number =
      significantDigits number ++ List.replicate zeros '0' := by
  have parts := (Nat.toDigits 10 number).reverse.takeWhile_append_dropWhile
    (p := (· = '0'))
  have zeros : (Nat.toDigits 10 number).reverse.takeWhile (· = '0') =
      List.replicate ((Nat.toDigits 10 number).reverse.takeWhile
        (· = '0')).length '0' := by
    rw [List.eq_replicate_iff]
    refine ⟨rfl, fun digit member => ?_⟩
    simpa using List.mem_takeWhile_imp member
  rw [zeros] at parts
  exact ⟨_, by rw [significantDigits, ← List.reverse_replicate,
    ← List.reverse_append, parts, List.reverse_reverse]⟩

theorem significantDigits_ne_nil {number : Nat} (positive : 0 < number) :
    significantDigits number ≠ [] := by
  intro empty
  obtain ⟨zeros, written⟩ := exists_zeros number
  rw [empty, List.nil_append] at written
  cases zeros with
  | zero =>
      have := Nat.length_toDigits_pos (b := 10) (n := number)
      rw [written] at this
      exact Nat.lt_irrefl 0 this
  | succ zeros => exact toDigits_ne_zero_cons positive _ written

theorem significantDigits_ne_zero_cons {number : Nat} (positive : 0 < number)
    (rest : List Char) : significantDigits number ≠ '0' :: rest := by
  intro leading
  obtain ⟨zeros, written⟩ := exists_zeros number
  rw [leading] at written
  exact toDigits_ne_zero_cons positive _ written

theorem isDigit_of_mem_significantDigits (number : Nat) :
    ∀ digit ∈ significantDigits number, digit.isDigit = true := by
  intro digit member
  obtain ⟨zeros, written⟩ := exists_zeros number
  refine isDigit_of_mem_toDigits number digit ?_
  rw [written]
  exact List.mem_append_left _ member

/-! ## Literals -/

/-- The number that a literal stands for, but for its sign. -/
def DecimalLiteral.value (literal : DecimalLiteral) : ℚ :=
  literal.digits * 10 ^ literal.exponent

/-- The number that digits stand for if the first of them has a weight of ten
to the power `leading`. -/
def digitsValue (digits : List Char) (leading : Int) : ℚ :=
  Nat.ofDigitChars 10 digits 0 * 10 ^ (leading + 1 - digits.length)

/-! ## Spellings -/

/-- The parts of a written decimal. -/
structure Spelling where
  whole : List Char
  fraction : Option (List Char)
  power : Option Int
  deriving DecidableEq

namespace Spelling

def fractionText : Option (List Char) → List Char
  | none => []
  | some digits => '.' :: digits

def powerText : Option Int → List Char
  | none => []
  | some power =>
      'e' :: (if power < 0 then '-' else '+') :: Nat.toDigits 10 power.natAbs

def text (spelling : Spelling) : List Char :=
  spelling.whole ++ (fractionText spelling.fraction ++
    powerText spelling.power)

def literal (spelling : Spelling) (negative : Bool) : DecimalLiteral :=
  ⟨negative, spelling.whole, spelling.fraction.getD [],
    spelling.power.getD 0⟩

/-- Both parts consist of digits, and a zero before the point stands there
alone. -/
structure WellFormed (spelling : Spelling) : Prop where
  wholeDigits : ∀ digit ∈ spelling.whole, digit.isDigit = true
  whole_ne_nil : spelling.whole ≠ []
  zeroAlone : ∀ rest, spelling.whole = '0' :: rest → rest = []
  fractionDigits : ∀ digits, spelling.fraction = some digits →
    digits ≠ [] ∧ ∀ digit ∈ digits, digit.isDigit = true

/-- Without a point and a power of ten, it is the spelling of an integer. -/
def isInteger (spelling : Spelling) : Bool :=
  spelling.fraction.isNone && spelling.power.isNone

end Spelling

namespace FloatLayout

def positionalSpelling (digits : List Char) (leading : Int) : Spelling :=
  if leading < 0 then
    ⟨['0'], some (List.replicate ((-leading).toNat - 1) '0' ++ digits), none⟩
  else
    let whole := leading.toNat + 1
    let fraction := digits.drop whole
    ⟨digits.take whole ++ List.replicate (whole - digits.length) '0',
      some (if fraction.isEmpty then ['0'] else fraction), none⟩

def scientificSpelling (digits : List Char) (leading : Int) : Spelling :=
  match digits with
  | [] => ⟨[], none, some leading⟩
  | [digit] => ⟨[digit], none, some leading⟩
  | digit :: fraction => ⟨[digit], some fraction, some leading⟩

/-- The exponent of the first digit of a decimal. -/
def leadingExponent (decimal : Decimal) : Int :=
  decimal.exponent + (Nat.toDigits 10 decimal.digits).length - 1

/-- The spelling of a decimal in a layout. -/
def spelling (layout : FloatLayout) (decimal : Decimal) : Spelling :=
  if layout.lowest ≤ leadingExponent decimal ∧
      leadingExponent decimal ≤ layout.highest then
    positionalSpelling (significantDigits decimal.digits)
      (leadingExponent decimal)
  else
    scientificSpelling (significantDigits decimal.digits)
      (leadingExponent decimal)

theorem positional_eq (digits : List Char) (leading : Int) :
    positional digits leading = (positionalSpelling digits leading).text := by
  unfold positional positionalSpelling
  split <;> simp [Spelling.text, Spelling.fractionText, Spelling.powerText]

theorem scientific_eq (digits : List Char) (leading : Int) :
    scientific digits leading = (scientificSpelling digits leading).text := by
  rcases digits with _ | ⟨digit, _ | ⟨next, rest⟩⟩ <;>
    simp [scientific, scientificSpelling, Spelling.text,
      Spelling.fractionText, Spelling.powerText]

theorem write_eq (layout : FloatLayout) (decimal : Decimal) :
    layout.write decimal = (layout.spelling decimal).text := by
  change (if (decide (layout.lowest ≤ leadingExponent decimal) &&
      decide (leadingExponent decimal ≤ layout.highest)) = true
    then positional (significantDigits decimal.digits)
      (leadingExponent decimal)
    else scientific (significantDigits decimal.digits)
      (leadingExponent decimal)) = _
  rw [spelling]
  simp only [Bool.and_eq_true, decide_eq_true_eq]
  split
  · exact positional_eq _ _
  · exact scientific_eq _ _

theorem positionalSpelling_value (digits : List Char) (leading : Int)
    (negative : Bool) :
    ((positionalSpelling digits leading).literal negative).value =
      digitsValue digits leading := by
  unfold positionalSpelling
  split
  case isTrue small =>
    have exponent : (0 : Int) - ((-leading).toNat - 1 + digits.length : Nat) =
        leading + 1 - digits.length := by
      omega
    simp [Spelling.literal, DecimalLiteral.value, DecimalLiteral.digits,
      DecimalLiteral.exponent, digitsValue, Nat.ofDigitChars_cons,
      Nat.ofDigitChars_append, ← exponent]
  case isFalse large =>
    obtain ⟨leading, rfl⟩ := Int.eq_ofNat_of_zero_le (not_lt.mp large)
    rw [Int.toNat_natCast]
    rcases Nat.lt_or_ge (leading + 1) digits.length with reaches | ends
    · have behind : (digits.drop (leading + 1)).isEmpty = false := by
        simpa using reaches
      have exponent : (0 : Int) - (digits.length - (leading + 1) : Nat) =
          leading + 1 - digits.length := by
        omega
      simp [Spelling.literal, DecimalLiteral.value, DecimalLiteral.digits,
        DecimalLiteral.exponent, digitsValue, behind, ← exponent,
        Nat.sub_eq_zero_of_le reaches.le]
    · obtain ⟨zeros, room⟩ := Nat.exists_eq_add_of_le ends
      have exponent : (leading : Int) + 1 - digits.length = zeros := by omega
      simp only [List.drop_of_length_le ends, List.take_of_length_le ends]
      simp [Spelling.literal, DecimalLiteral.value, DecimalLiteral.digits,
        DecimalLiteral.exponent, digitsValue, exponent, room,
        Nat.ofDigitChars_append, Nat.ofDigitChars_cons]
      ring

theorem scientificSpelling_value {digits : List Char}
    (nonempty : digits ≠ []) (leading : Int) (negative : Bool) :
    ((scientificSpelling digits leading).literal negative).value =
      digitsValue digits leading := by
  rcases digits with _ | ⟨digit, _ | ⟨next, rest⟩⟩
  · exact absurd rfl nonempty
  · simp [scientificSpelling, Spelling.literal, DecimalLiteral.value,
      DecimalLiteral.digits, DecimalLiteral.exponent, digitsValue]
  · simp [scientificSpelling, Spelling.literal, DecimalLiteral.value,
      DecimalLiteral.digits, DecimalLiteral.exponent, digitsValue]

theorem digitsValue_significantDigits (decimal : Decimal) :
    digitsValue (significantDigits decimal.digits) (leadingExponent decimal) =
      decimal.value := by
  obtain ⟨zeros, written⟩ := exists_zeros decimal.digits
  have whole := Nat.ofDigitChars_ten_toDigits (n := decimal.digits)
  rw [written, Nat.ofDigitChars_append, Nat.ofDigitChars_replicate_zero]
    at whole
  have exponent : leadingExponent decimal + 1 -
      (significantDigits decimal.digits).length = decimal.exponent + zeros := by
    rw [leadingExponent, written, List.length_append, List.length_replicate]
    omega
  have whole' : (10 : ℚ) ^ zeros *
      Nat.ofDigitChars 10 (significantDigits decimal.digits) 0 =
        decimal.digits := by
    exact_mod_cast whole
  rw [digitsValue, exponent, Decimal.value,
    zpow_add₀ (by norm_num : (10 : ℚ) ≠ 0), zpow_natCast]
  linear_combination (10 : ℚ) ^ decimal.exponent * whole'

theorem spelling_value (layout : FloatLayout) {decimal : Decimal}
    (positive : 0 < decimal.digits) (negative : Bool) :
    ((layout.spelling decimal).literal negative).value = decimal.value := by
  rw [← digitsValue_significantDigits, spelling]
  split
  · exact positionalSpelling_value _ _ _
  · exact scientificSpelling_value (significantDigits_ne_nil positive) _ _

section

variable {digits : List Char} (decimal : ∀ digit ∈ digits, digit.isDigit = true)
  (nonempty : digits ≠ []) (starts : ∀ rest, digits ≠ '0' :: rest)

include decimal nonempty starts

theorem positionalSpelling_wellFormed (leading : Int) :
    (positionalSpelling digits leading).WellFormed := by
  have zero : ('0' : Char).isDigit = true := by decide
  unfold positionalSpelling
  split
  · exact {
      wholeDigits := List.forall_mem_singleton.mpr zero
      whole_ne_nil := List.cons_ne_nil _ _
      zeroAlone := fun rest same => (List.cons.inj same).2.symm
      fractionDigits := by
        rintro _ ⟨⟩
        exact ⟨by simp [nonempty], List.forall_mem_append.mpr
          ⟨isDigit_of_mem_zeros, decimal⟩⟩ }
  · obtain ⟨digit, rest, rfl⟩ := List.exists_cons_of_ne_nil nonempty
    exact {
      wholeDigits := List.forall_mem_append.mpr
        ⟨fun digit member => decimal digit (List.mem_of_mem_take member),
          isDigit_of_mem_zeros⟩
      whole_ne_nil := by simp
      zeroAlone := by
        intro rest' same
        simp only [List.take_succ_cons, List.cons_append,
          List.cons.injEq] at same
        exact absurd (congrArg (· :: rest) same.1) (starts rest)
      fractionDigits := by
        rintro _ ⟨⟩
        split
        · exact ⟨List.cons_ne_nil _ _, List.forall_mem_singleton.mpr zero⟩
        · rename_i behind
          exact ⟨by simpa using behind,
            fun digit member => decimal digit (List.mem_of_mem_drop member)⟩ }

theorem scientificSpelling_wellFormed (leading : Int) :
    (scientificSpelling digits leading).WellFormed := by
  rcases digits with _ | ⟨digit, _ | ⟨next, rest⟩⟩
  · exact absurd rfl nonempty
  · exact {
      wholeDigits := decimal
      whole_ne_nil := nonempty
      zeroAlone := fun rest same => (List.cons.inj same).2.symm
      fractionDigits := by simp [scientificSpelling] }
  · rw [List.forall_mem_cons] at decimal
    exact {
      wholeDigits := List.forall_mem_singleton.mpr decimal.1
      whole_ne_nil := List.cons_ne_nil _ _
      zeroAlone := fun rest same => (List.cons.inj same).2.symm
      fractionDigits := by
        rintro _ ⟨⟩
        exact ⟨List.cons_ne_nil _ _, decimal.2⟩ }

omit nonempty starts

/-- No more digits are written than there are, unless zeros are put behind
them up to the point. -/
theorem positionalSpelling_digits_lt {leading : Int} {bound : Nat}
    (small : Nat.ofDigitChars 10 digits 0 < 10 ^ bound)
    (inside : leading + 2 ≤ bound) (negative : Bool) :
    ((positionalSpelling digits leading).literal negative).digits <
      10 ^ bound := by
  unfold positionalSpelling
  split
  · simpa [Spelling.literal, DecimalLiteral.digits, Nat.ofDigitChars_cons,
      Nat.ofDigitChars_append] using small
  case isFalse large =>
    obtain ⟨leading, rfl⟩ := Int.eq_ofNat_of_zero_le (not_lt.mp large)
    rw [Int.toNat_natCast]
    rcases Nat.lt_or_ge (leading + 1) digits.length with reaches | ends
    · have behind : (digits.drop (leading + 1)).isEmpty = false := by
        simpa using reaches
      simpa [Spelling.literal, DecimalLiteral.digits, behind,
        Nat.sub_eq_zero_of_le reaches.le] using small
    · simp only [Spelling.literal, List.drop_of_length_le ends,
        List.take_of_length_le ends, DecimalLiteral.digits]
      refine (ofDigitChars_lt (List.forall_mem_append.mpr
        ⟨List.forall_mem_append.mpr ⟨decimal, isDigit_of_mem_zeros⟩,
          List.forall_mem_singleton.mpr (by decide)⟩)).trans_le
        (Nat.pow_le_pow_right (by decide) ?_)
      simp
      omega

omit decimal in
theorem scientificSpelling_digits (leading : Int) (negative : Bool) :
    ((scientificSpelling digits leading).literal negative).digits =
      Nat.ofDigitChars 10 digits 0 := by
  rcases digits with _ | ⟨digit, _ | ⟨next, rest⟩⟩ <;>
    simp [scientificSpelling, Spelling.literal, DecimalLiteral.digits]

end

variable {decimal : Decimal} (positive : 0 < decimal.digits)

include positive

theorem spelling_wellFormed (layout : FloatLayout) :
    (layout.spelling decimal).WellFormed := by
  have isDigit := isDigit_of_mem_significantDigits decimal.digits
  have nonempty := significantDigits_ne_nil positive
  have starts := significantDigits_ne_zero_cons positive
  unfold spelling
  split
  · exact positionalSpelling_wellFormed isDigit nonempty starts _
  · exact scientificSpelling_wellFormed isDigit nonempty starts _

omit positive in
theorem isInteger_spelling (layout : FloatLayout) (decimal : Decimal) :
    (layout.spelling decimal).isInteger = false := by
  unfold spelling positionalSpelling scientificSpelling
  split
  · split <;> rfl
  · split <;> rfl

theorem spelling_digits_pos (layout : FloatLayout) (negative : Bool) :
    0 < ((layout.spelling decimal).literal negative).digits := by
  refine Nat.pos_of_ne_zero fun zero => ?_
  have value := spelling_value layout positive negative
  rw [DecimalLiteral.value, zero, Nat.cast_zero, zero_mul] at value
  have : 0 < decimal.value := by
    unfold Decimal.value
    positivity
  exact this.ne value

omit positive in
theorem spelling_digits_lt {layout : FloatLayout} {bound : Nat}
    (small : decimal.digits < 10 ^ bound) (fits : layout.highest + 2 ≤ bound)
    (negative : Bool) :
    ((layout.spelling decimal).literal negative).digits < 10 ^ bound := by
  have isDigit := isDigit_of_mem_significantDigits decimal.digits
  have small : Nat.ofDigitChars 10 (significantDigits decimal.digits) 0 <
      10 ^ bound := by
    obtain ⟨zeros, written⟩ := exists_zeros decimal.digits
    have whole := Nat.ofDigitChars_ten_toDigits (n := decimal.digits)
    rw [written, Nat.ofDigitChars_append, Nat.ofDigitChars_replicate_zero]
      at whole
    have := Nat.le_mul_of_pos_left
      (Nat.ofDigitChars 10 (significantDigits decimal.digits) 0)
      (Nat.pow_pos (n := zeros) (by decide : 0 < 10))
    omega
  unfold spelling
  split
  case isTrue inside =>
    exact positionalSpelling_digits_lt isDigit small (by omega) negative
  case isFalse =>
    rw [scientificSpelling_digits]
    exact small

end FloatLayout

end SignatureVeil
