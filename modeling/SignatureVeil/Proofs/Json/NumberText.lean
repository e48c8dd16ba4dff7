import SignatureVeil.Json.Reader
import SignatureVeil.Proofs.Text.Spelling

/-!
# Numbers in a text

The parts of a number, one behind the other, are read one after the other, and
reading stops where the number ends.  Its leading digits are all of its digits
if these fit into 64 bits.
-/

namespace SignatureVeil

/-! ## Leading digits -/

theorem le_ofDigitChars (digits : List Char) (number : Nat) :
    number ≤ Nat.ofDigitChars 10 digits number := by
  rw [Nat.ofDigitChars_eq_ofDigitChars_zero]
  have := Nat.le_mul_of_pos_left number
    (Nat.pow_pos (n := digits.length) (by decide : 0 < 10))
  omega

namespace DecimalLiteral

theorem collect_eq {number : Nat} {digits : List Char}
    (fits : Nat.ofDigitChars 10 digits number < Nat.pow 2 64) :
    collect number digits = (Nat.ofDigitChars 10 digits number, []) := by
  induction digits generalizing number with
  | nil => rfl
  | cons digit rest ih =>
      rw [Nat.ofDigitChars_cons] at fits ⊢
      rw [collect, if_pos ((le_ofDigitChars rest _).trans_lt fits)]
      exact ih fits

theorem leading_eq {literal : DecimalLiteral}
    (fits : literal.digits < Nat.pow 2 64) :
    literal.leading = (literal.digits, literal.exponent) := by
  rw [digits, Nat.ofDigitChars_append] at fits
  have whole := (le_ofDigitChars literal.fraction _).trans_lt fits
  simp [leading, collect_eq whole, collect_eq fits, digits, exponent,
    Nat.ofDigitChars_append]

theorem collect_fst_lt {number : Nat} (fits : number < Nat.pow 2 64)
    (digits : List Char) : (collect number digits).1 < Nat.pow 2 64 := by
  induction digits generalizing number with
  | nil => exact fits
  | cons digit rest ih =>
      rw [collect]
      split
      case isTrue longer => exact ih longer
      case isFalse => exact fits

theorem leading_fst_lt (literal : DecimalLiteral) :
    literal.leading.1 < Nat.pow 2 64 :=
  collect_fst_lt (collect_fst_lt (by decide) literal.whole) literal.fraction

end DecimalLiteral

namespace Json

theorem exists_of_bind_eq_ok {Error Result Result' : Type}
    {first : Except Error Result} {next : Result → Except Error Result'}
    {result : Result'} (same : first >>= next = .ok result) :
    ∃ found, first = .ok found ∧ next found = .ok result := by
  cases first with
  | ok found => exact ⟨found, rfl, same⟩
  | error fault => exact absurd same nofun

/-! ## The parts of a number -/

/-- A text that can stand behind a number without being taken for a part of
it. -/
def NumberEnds (text : List Char) : Prop :=
  ∀ character ∈ text.head?, character.isDigit = false ∧
    character ≠ '.' ∧ character ≠ 'e' ∧ character ≠ 'E'

theorem numberEnds_nil : NumberEnds [] := by
  simp [NumberEnds]

variable {digits rest : List Char}

theorem spanDigits_append (decimal : ∀ digit ∈ digits, digit.isDigit = true)
    (ends : ∀ character ∈ rest.head?, character.isDigit = false) :
    spanDigits (digits ++ rest) = (digits, rest) := by
  have stops : rest.takeWhile Char.isDigit = [] ∧
      rest.dropWhile Char.isDigit = rest := by
    cases rest with
    | nil => exact ⟨rfl, rfl⟩
    | cons character rest =>
        have := ends character rfl
        simp [this]
  rw [spanDigits, List.takeWhile_append_of_pos decimal,
    List.dropWhile_append_of_pos decimal, stops.1, stops.2, List.append_nil]

theorem readDigits_append (rigor : Rigor)
    (decimal : ∀ digit ∈ digits, digit.isDigit = true) (nonempty : digits ≠ [])
    (ends : ∀ character ∈ rest.head?, character.isDigit = false) :
    readDigits rigor (digits ++ rest) = .ok (digits, rest) := by
  obtain ⟨digit, more, rfl⟩ := List.exists_cons_of_ne_nil nonempty
  rw [← spanDigits_append decimal ends]
  exact if_pos (decimal digit List.mem_cons_self)

theorem readWhole_append (rigor : Rigor)
    (decimal : ∀ digit ∈ digits, digit.isDigit = true) (nonempty : digits ≠ [])
    (zeroAlone : ∀ rest, digits = '0' :: rest → rest = [])
    (ends : ∀ character ∈ rest.head?, character.isDigit = false) :
    readWhole rigor (digits ++ rest) = .ok (digits, rest) := by
  rw [readWhole, readDigits_append rigor decimal nonempty ends]
  simp only [bind, Except.bind]
  split
  case h_1 digit more =>
    exact absurd (zeroAlone _ rfl) (List.cons_ne_nil _ _)
  case h_2 => rfl

theorem readFraction_append (rigor : Rigor) {fraction : Option (List Char)}
    (decimal : ∀ digits, fraction = some digits →
      digits ≠ [] ∧ ∀ digit ∈ digits, digit.isDigit = true)
    (ends : ∀ character ∈ rest.head?,
      character.isDigit = false ∧ character ≠ '.') :
    readFraction rigor (Spelling.fractionText fraction ++ rest) =
      .ok (fraction, rest) := by
  cases fraction with
  | none =>
      rw [Spelling.fractionText, List.nil_append, readFraction.eq_def]
      split
      case h_1 rest => exact absurd rfl (ends '.' rfl).2
      case h_2 => rfl
  | some digits =>
      obtain ⟨nonempty, decimal⟩ := decimal digits rfl
      rw [Spelling.fractionText, List.cons_append, readFraction,
        readDigits_append rigor decimal nonempty fun character first =>
          (ends character first).1]
      rfl

theorem signedNumber_toDigits (power : Int) :
    signedNumber (power < 0) (Nat.toDigits 10 power.natAbs) = power := by
  rw [signedNumber, Nat.ofDigitChars_ten_toDigits]
  simp only [decide_eq_true_eq]
  split <;> omega

theorem readExponent_append (rigor : Rigor) (power : Option Int)
    (ends : NumberEnds rest) :
    readExponent rigor (Spelling.powerText power ++ rest) =
      .ok (power, rest) := by
  cases power with
  | none =>
      rw [Spelling.powerText, List.nil_append, readExponent.eq_def]
      split
      case h_1 rest => exact absurd rfl (ends 'e' rfl).2.2.1
      case h_2 rest => exact absurd rfl (ends 'E' rfl).2.2.2
      case h_3 => rfl
  | some power =>
      have sign : takeSign ((if power < 0 then '-' else '+') ::
          (Nat.toDigits 10 power.natAbs ++ rest)) =
            (decide (power < 0), Nat.toDigits 10 power.natAbs ++ rest) := by
        split <;> simp_all [takeSign]
      rw [Spelling.powerText, List.cons_append, List.cons_append, readExponent,
        sign]
      simp only [readDigits_append rigor (isDigit_of_mem_toDigits _)
        (List.ne_nil_of_length_pos Nat.length_toDigits_pos)
        fun character first => (ends character first).1]
      exact congrArg (fun number => Except.ok (some number, rest))
        (signedNumber_toDigits power)

theorem powerText_append_head (power : Option Int) (ends : NumberEnds rest) :
    ∀ character ∈ (Spelling.powerText power ++ rest).head?,
      character.isDigit = false ∧ character ≠ '.' := by
  intro character first
  cases power with
  | some power =>
      obtain rfl := Option.some.inj first
      decide
  | none => exact ⟨(ends character first).1, (ends character first).2.1⟩

/-- The beginning of a number. -/
def minusSign (negative : Bool) : List Char :=
  if negative then ['-'] else []

section

variable {spelling : Spelling} (wellFormed : spelling.WellFormed)
  (ends : NumberEnds rest)

include wellFormed ends

theorem readWhole_text (rigor : Rigor) :
    readWhole rigor (spelling.text ++ rest) =
      .ok (spelling.whole, Spelling.fractionText spelling.fraction ++
        (Spelling.powerText spelling.power ++ rest)) := by
  rw [Spelling.text, List.append_assoc, List.append_assoc]
  refine readWhole_append rigor wellFormed.wholeDigits wellFormed.whole_ne_nil
    wellFormed.zeroAlone fun character first => ?_
  cases fraction : spelling.fraction with
  | some digits =>
      rw [fraction] at first
      obtain rfl := Option.some.inj first
      decide
  | none =>
      rw [fraction, Spelling.fractionText, List.nil_append] at first
      exact (powerText_append_head _ ends character first).1

omit ends in
theorem exists_text_eq_cons :
    ∃ digit more, spelling.text = digit :: more ∧ digit.isDigit = true := by
  obtain ⟨digit, more, whole⟩ :=
    List.exists_cons_of_ne_nil wellFormed.whole_ne_nil
  exact ⟨digit, _, by rw [Spelling.text, whole, List.cons_append],
    wellFormed.wholeDigits digit (whole ▸ List.mem_cons_self)⟩

theorem readNumber_append {negative : Bool} {number : JsonNumber}
    (same : numberOf? negative spelling.whole spelling.fraction
      spelling.power = some number) :
    readNumber .full (minusSign negative ++ (spelling.text ++ rest)) =
      .ok (number, rest) := by
  have whole := readWhole_text wellFormed ends .full
  have fraction := readFraction_append .full wellFormed.fractionDigits
    (powerText_append_head spelling.power ends)
  have power := readExponent_append .full spelling.power ends
  cases negative with
  | true =>
      rw [minusSign, if_pos rfl, List.singleton_append, readNumber]
      simp only [whole, fraction, power, same, bind, Except.bind]
      rfl
  | false =>
      rw [minusSign, if_neg Bool.false_ne_true, List.nil_append, readNumber]
      · simp only [whole, fraction, power, same, bind, Except.bind]
        rfl
      · intro more begins
        obtain ⟨digit, _, text, decimal⟩ := exists_text_eq_cons wellFormed
        rw [text, List.cons_append, List.cons.injEq] at begins
        rw [begins.1] at decimal
        exact absurd decimal (by decide)

end

end Json

end SignatureVeil
