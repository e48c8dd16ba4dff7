import SignatureVeil.Binary.Reading
import SignatureVeil.Proofs.Json.LeadingDigits
import SignatureVeil.Proofs.Json.RoundTrip
import SignatureVeil.Proofs.Json.Skimming
import SignatureVeil.Text.Whitespace

/-!
# Number literals

A number literal is what JSON allows a number to be written as, with digits of
any length.  Its text is read as a number wherever it stands, and every text
that is read as a number is that of a literal.  The same text is also a written
floating-point value, and it needs no escapes between quotes.
-/

namespace SignatureVeil

open BinaryFormat

/-! ## Literals -/

/-- One digit or more. -/
structure DigitRun where
  digits : List Char
  decimal : ∀ digit ∈ digits, digit.isDigit = true
  nonempty : digits ≠ []

/-- A power of ten behind a number. -/
structure WrittenPower where
  mark : Char
  sign : List Char
  run : DigitRun
  isMark : mark = 'e' ∨ mark = 'E'
  isSign : sign = [] ∨ sign = ['-'] ∨ sign = ['+']

def WrittenPower.text (power : WrittenPower) : List Char :=
  power.mark :: (power.sign ++ power.run.digits)

def WrittenPower.value (power : WrittenPower) : Int :=
  signedNumber (power.sign = ['-']) power.run.digits

structure NumberLiteral where
  negative : Bool
  whole : DigitRun
  fraction : Option DigitRun
  power : Option WrittenPower
  /-- A zero may only stand before the point alone. -/
  zeroAlone : ∀ rest, whole.digits = '0' :: rest → rest = []

namespace NumberLiteral

def fractionDigits (literal : NumberLiteral) : Option (List Char) :=
  literal.fraction.map DigitRun.digits

def powerText (literal : NumberLiteral) : List Char :=
  literal.power.elim [] WrittenPower.text

def text (literal : NumberLiteral) : List Char :=
  Json.minusSign literal.negative ++ (literal.whole.digits ++
    (Spelling.fractionText literal.fractionDigits ++ literal.powerText))

/-- The parts that a literal is read as. -/
def decimal (literal : NumberLiteral) : DecimalLiteral :=
  ⟨literal.negative, literal.whole.digits, literal.fractionDigits.getD [],
    (literal.power.map WrittenPower.value).getD 0⟩

/-- The number that a literal stands for, but for its sign. -/
def value (literal : NumberLiteral) : ℚ :=
  literal.decimal.value

/-- The number with 32 bits that a literal is rounded to at once. -/
def toSingle (literal : NumberLiteral) : Single :=
  literal.decimal.toSingle

/-- The JSON number that a literal is read as. -/
def number? (literal : NumberLiteral) : Option JsonNumber :=
  Json.numberOf? literal.negative literal.whole.digits literal.fractionDigits
    (literal.power.map WrittenPower.value)

/-- Whether a literal is an integer that fits into 64 bits. -/
def IsWord (literal : NumberLiteral) : Prop :=
  literal.fraction = none ∧ literal.power = none ∧
    literal.decimal.digits ≤ if literal.negative then 2 ^ 63 else 2 ^ 64 - 1

end NumberLiteral

/-! ## Parts of a text -/

namespace DigitRun

variable (run : DigitRun)

theorem exists_eq_cons : ∃ digit more, run.digits = digit :: more ∧
    digit.isDigit = true := by
  obtain ⟨digit, more, same⟩ := List.exists_cons_of_ne_nil run.nonempty
  exact ⟨digit, more, same, run.decimal digit (same ▸ List.mem_cons_self)⟩

/-- Digits do not begin with a sign. -/
theorem takeSign_append (rest : List Char) :
    takeSign (run.digits ++ rest) = (false, run.digits ++ rest) := by
  obtain ⟨digit, more, same, isDigit⟩ := run.exists_eq_cons
  rw [same, List.cons_append, takeSign.eq_def]
  split
  case h_1 same =>
    rw [(List.cons.inj same).1] at isDigit
    exact absurd isDigit (by decide)
  case h_2 same =>
    rw [(List.cons.inj same).1] at isDigit
    exact absurd isDigit (by decide)
  case h_3 => rfl

end DigitRun

namespace WrittenPower

variable (power : WrittenPower)

theorem takeSign_append (rest : List Char) :
    takeSign (power.sign ++ (power.run.digits ++ rest)) =
      (decide (power.sign = ['-']), power.run.digits ++ rest) := by
  rcases power.isSign with sign | sign | sign <;> rw [sign]
  · exact power.run.takeSign_append rest
  · rfl
  · rfl

theorem readExponent_text (rigor : Json.Rigor) {rest : List Char}
    (ends : ∀ character ∈ rest.head?, character.isDigit = false) :
    Json.readExponent rigor (power.text ++ rest) =
      .ok (some power.value, rest) := by
  have digits : Json.readDigits rigor (power.run.digits ++ rest) =
      .ok (power.run.digits, rest) :=
    Json.readDigits_append rigor power.run.decimal power.run.nonempty ends
  rw [text, List.cons_append, List.append_assoc]
  rcases power.isMark with mark | mark <;>
    rw [mark, Json.readExponent, power.takeSign_append] <;>
    simp only [digits, bind, Except.bind] <;> rfl

theorem exponentOf?_text : exponentOf? power.text = some power.value := by
  have sign := power.takeSign_append []
  rw [List.append_nil] at sign
  rw [text, exponentOf?, sign]
  exact if_pos ⟨power.isMark, power.run.nonempty,
    List.all_eq_true.mpr power.run.decimal⟩

end WrittenPower

namespace NumberLiteral

variable (literal : NumberLiteral) {rest : List Char}

theorem powerText_append_head (ends : Json.NumberEnds rest) :
    ∀ character ∈ (literal.powerText ++ rest).head?,
      character.isDigit = false ∧ character ≠ '.' := by
  intro character first
  rw [powerText] at first
  cases same : literal.power with
  | none =>
      rw [same] at first
      exact ⟨(ends character first).1, (ends character first).2.1⟩
  | some power =>
      rw [same] at first
      obtain rfl := Option.some.inj first
      rcases power.isMark with mark | mark <;> rw [mark] <;> decide

theorem fractionText_append_head (ends : Json.NumberEnds rest) :
    ∀ character ∈ (Spelling.fractionText literal.fractionDigits ++
      (literal.powerText ++ rest)).head?, character.isDigit = false := by
  intro character first
  cases same : literal.fractionDigits with
  | none =>
      rw [same] at first
      exact (literal.powerText_append_head ends character first).1
  | some digits =>
      rw [same] at first
      obtain rfl := Option.some.inj first
      decide

theorem fractionDigits_wellFormed {digits : List Char}
    (same : literal.fractionDigits = some digits) :
    digits ≠ [] ∧ ∀ digit ∈ digits, digit.isDigit = true := by
  obtain ⟨run, -, rfl⟩ := Option.map_eq_some_iff.mp same
  exact ⟨run.nonempty, run.decimal⟩

theorem decimal_fraction : ∀ digit ∈ literal.decimal.fraction,
    digit.isDigit = true := by
  cases same : literal.fractionDigits with
  | none =>
      rw [decimal, same]
      exact nofun
  | some digits =>
      rw [decimal, same]
      exact (literal.fractionDigits_wellFormed same).2

/-! ## Literals as numbers -/

theorem exists_text_eq_cons : ∃ character more,
    literal.text = character :: more ∧ Json.StartsNumber character := by
  obtain ⟨digit, more, same, isDigit⟩ := literal.whole.exists_eq_cons
  rw [text, same, Json.minusSign]
  split
  · exact ⟨'-', _, rfl, .inl rfl⟩
  · exact ⟨digit, _, rfl, .inr isDigit⟩

theorem readExponent_text (rigor : Json.Rigor) (ends : Json.NumberEnds rest) :
    Json.readExponent rigor (literal.powerText ++ rest) =
      .ok (literal.power.map WrittenPower.value, rest) := by
  rw [powerText]
  cases literal.power with
  | none => exact Json.readExponent_append rigor none ends
  | some power =>
      exact power.readExponent_text rigor fun character first =>
        (ends character first).1

/-- A literal is skimmed, whatever stands behind it, and it is also read as a
number unless it is too large. -/
theorem readNumber_text (rigor : Json.Rigor) (ends : Json.NumberEnds rest) :
    Json.readNumber rigor (literal.text ++ rest) =
      match rigor with
      | .skim => .ok (.integer 0, rest)
      | .full =>
          match literal.number? with
          | some found => .ok (found, rest)
          | none => .error .malformed := by
  have whole := Json.readWhole_append rigor literal.whole.decimal
    literal.whole.nonempty literal.zeroAlone
    (literal.fractionText_append_head ends)
  have fraction := Json.readFraction_append rigor
    (fun _ => literal.fractionDigits_wellFormed)
    (literal.powerText_append_head ends)
  have power := literal.readExponent_text rigor ends
  obtain ⟨digit, more, same, isDigit⟩ := literal.whole.exists_eq_cons
  rw [text, List.append_assoc, List.append_assoc, List.append_assoc, number?]
  cases literal.negative with
  | true =>
      rw [Json.minusSign, if_pos rfl, List.singleton_append, Json.readNumber]
      simp only [whole, fraction, power, bind, Except.bind]
      cases rigor <;> rfl
  | false =>
      rw [Json.minusSign, if_neg Bool.false_ne_true, List.nil_append,
        Json.readNumber]
      · simp only [whole, fraction, power, bind, Except.bind]
        cases rigor <;> rfl
      · intro _ begins
        rw [same, List.cons_append] at begins
        rw [(List.cons.inj begins).1] at isDigit
        exact absurd isDigit (by decide)

/-- A literal is read as a value where a value may stand. -/
theorem readValue_text (depth : Nat) (ends : Json.NumberEnds rest) :
    Json.readValue .full depth (literal.text ++ rest) =
      match literal.number? with
      | some found => .ok (.number found, rest)
      | none => .error .malformed := by
  have read := literal.readNumber_text .full ends
  obtain ⟨character, more, same, starts⟩ := literal.exists_text_eq_cons
  rw [same, List.cons_append] at read ⊢
  have noBracket {bracket : Char} (notSign : bracket ≠ '-')
      (notDigit : bracket.isDigit = false) (behind : List Char) :
      Json.skipSpace (character :: (more ++ rest)) ≠ bracket :: behind := by
    rw [Json.skipSpace_cons starts.shown]
    exact starts.cons_ne notSign notDigit behind
  rw [Json.readValue_of_atom (noBracket (by decide) (by decide))
    (noBracket (by decide) (by decide)), Json.skipSpace_cons starts.shown,
    Json.readAtom_of_starts starts, read]
  cases literal.number? <;> rfl

end NumberLiteral

/-! ## Texts that are read as numbers -/

namespace Json

variable {rigor : Rigor} {text rest digits : List Char}

theorem eq_of_readDigits (read : readDigits rigor text = .ok (digits, rest)) :
    ∃ run : DigitRun, run.digits = digits ∧ text = run.digits ++ rest := by
  unfold readDigits at read
  split at read
  case h_1 => contradiction
  case h_2 character more =>
    split at read
    case isTrue isDigit =>
      cases read
      refine ⟨⟨(character :: more).takeWhile Char.isDigit,
        fun _ => List.mem_takeWhile_imp, ?_⟩, rfl, ?_⟩
      · rw [List.takeWhile_cons_of_pos isDigit]
        exact List.cons_ne_nil _ _
      · exact List.takeWhile_append_dropWhile.symm
    case isFalse => contradiction

theorem eq_of_readWhole (read : readWhole rigor text = .ok (digits, rest)) :
    ∃ run : DigitRun, run.digits = digits ∧ text = run.digits ++ rest ∧
      ∀ rest, run.digits = '0' :: rest → rest = [] := by
  obtain ⟨⟨found, behind⟩, isRun, read⟩ := exists_of_bind_eq_ok read
  obtain ⟨run, rfl, same⟩ := eq_of_readDigits isRun
  simp only [] at read
  split at read
  case h_1 => contradiction
  case h_2 notLonger =>
    cases read
    refine ⟨run, rfl, same, fun more begins => ?_⟩
    cases more with
    | nil => rfl
    | cons => exact absurd begins (notLonger _ _)

theorem eq_of_readFraction {fraction : Option (List Char)}
    (read : readFraction rigor text = .ok (fraction, rest)) :
    ∃ run : Option DigitRun, run.map DigitRun.digits = fraction ∧
      text = Spelling.fractionText fraction ++ rest := by
  unfold readFraction at read
  split at read
  case h_1 =>
    obtain ⟨⟨found, behind⟩, isRun, read⟩ := exists_of_bind_eq_ok read
    obtain ⟨run, rfl, same⟩ := eq_of_readDigits isRun
    cases read
    exact ⟨some run, rfl, congrArg (List.cons '.') same⟩
  case h_2 =>
    cases read
    exact ⟨none, rfl, rfl⟩

theorem eq_of_takeSign {negative : Bool}
    (same : takeSign text = (negative, rest)) :
    ∃ sign : List Char, (sign = [] ∨ sign = ['-'] ∨ sign = ['+']) ∧
      text = sign ++ rest := by
  unfold takeSign at same
  split at same <;> cases same
  · exact ⟨['-'], .inr (.inl rfl), rfl⟩
  · exact ⟨['+'], .inr (.inr rfl), rfl⟩
  · exact ⟨[], .inl rfl, rfl⟩

theorem eq_of_readExponent {found : Option Int}
    (read : readExponent rigor text = .ok (found, rest)) :
    ∃ power : Option WrittenPower,
      text = power.elim [] WrittenPower.text ++ rest := by
  have marked {mark : Char} (isMark : mark = 'e' ∨ mark = 'E')
      {behind behind' : List Char} {negative : Bool}
      (isSign : takeSign behind = (negative, behind')) {digits : List Char}
      (isRun : readDigits rigor behind' = .ok (digits, rest)) :
      ∃ power : Option WrittenPower,
        mark :: behind = power.elim [] WrittenPower.text ++ rest := by
    obtain ⟨sign, signs, rfl⟩ := eq_of_takeSign isSign
    obtain ⟨run, -, rfl⟩ := eq_of_readDigits isRun
    refine ⟨some ⟨mark, sign, run, isMark, signs⟩, ?_⟩
    simp [WrittenPower.text]
  unfold readExponent at read
  split at read
  case h_1 =>
    obtain ⟨⟨_, _⟩, isRun, read⟩ := exists_of_bind_eq_ok read
    cases read
    exact marked (.inl rfl) rfl isRun
  case h_2 =>
    obtain ⟨⟨_, _⟩, isRun, read⟩ := exists_of_bind_eq_ok read
    cases read
    exact marked (.inr rfl) rfl isRun
  case h_3 =>
    cases read
    exact ⟨none, rfl⟩

/-- What is read as a number is the text of a literal. -/
theorem exists_literal_of_readNumber {number : JsonNumber}
    (read : readNumber rigor text = .ok (number, rest)) :
    ∃ literal : NumberLiteral, text = literal.text ++ rest := by
  unfold readNumber at read
  split at read
  case _ negative behind isSign =>
  have begins : text = minusSign negative ++ behind := by
    split at isSign <;> cases isSign <;> rfl
  obtain ⟨⟨whole, _⟩, isWhole, read⟩ := exists_of_bind_eq_ok read
  obtain ⟨⟨fraction, _⟩, isFraction, read⟩ := exists_of_bind_eq_ok read
  obtain ⟨⟨power, behind'⟩, isPower, read⟩ := exists_of_bind_eq_ok read
  have ends : behind' = rest := by
    cases rigor with
    | skim =>
        cases read
        rfl
    | full =>
        simp only [] at read
        split at read
        case h_1 =>
          cases read
          rfl
        case h_2 => contradiction
  obtain ⟨run, rfl, rfl, zeroAlone⟩ := eq_of_readWhole isWhole
  obtain ⟨fraction, rfl, rfl⟩ := eq_of_readFraction isFraction
  obtain ⟨power, rfl⟩ := eq_of_readExponent isPower
  refine ⟨⟨negative, run, fraction, power, zeroAlone⟩, ?_⟩
  simp [begins, ends, NumberLiteral.text, NumberLiteral.fractionDigits,
    NumberLiteral.powerText]

/-- The literals are all texts that can be skimmed as a number. -/
theorem isNumber_iff_literal :
    (∃ number, readNumber .skim text = .ok (number, [])) ↔
      ∃ literal : NumberLiteral, text = literal.text := by
  constructor
  · rintro ⟨number, read⟩
    obtain ⟨literal, same⟩ := exists_literal_of_readNumber read
    exact ⟨literal, same.trans (List.append_nil _)⟩
  · rintro ⟨literal, rfl⟩
    have read := literal.readNumber_text .skim numberEnds_nil
    rw [List.append_nil] at read
    exact ⟨_, read⟩

end Json

/-! ## Literals between quotes -/

/-- A character that needs no escape and that is no white space. -/
def IsPlain (character : Char) : Prop :=
  Json.escapeCharacter character = [character] ∧ isWhitespace character = false

instance (character : Char) : Decidable (IsPlain character) :=
  inferInstanceAs (Decidable (_ ∧ _))

theorem isPlain_of_isDigit {digit : Char} (isDigit : digit.isDigit = true) :
    IsPlain digit := by
  have plain : ∀ code < 58, 48 ≤ code → IsPlain (.ofNat code) := by decide
  simp only [Char.isDigit, Bool.and_eq_true, decide_eq_true_eq,
    UInt32.le_iff_toNat_le] at isDigit
  rw [← Char.ofNat_toNat digit]
  exact plain _ (Nat.lt_succ_of_le isDigit.2) isDigit.1

theorem trimWhitespace_eq {text : List Char}
    (plain : ∀ character ∈ text, IsPlain character) :
    trimWhitespace text = text := by
  have kept {text : List Char} (plain : ∀ character ∈ text, IsPlain character) :
      text.dropWhile isWhitespace = text := by
    cases text with
    | nil => rfl
    | cons character more =>
        exact List.dropWhile_cons_of_neg
          (by rw [(plain _ List.mem_cons_self).2]; exact Bool.false_ne_true)
  rw [trimWhitespace, kept plain, kept fun character isMember =>
    plain character (List.mem_reverse.mp isMember), List.reverse_reverse]

theorem flatMap_escapeCharacter_eq {text : List Char}
    (plain : ∀ character ∈ text, IsPlain character) :
    text.flatMap Json.escapeCharacter = text := by
  induction text with
  | nil => rfl
  | cons character more ih =>
      obtain ⟨first, plain⟩ := List.forall_mem_cons.mp plain
      rw [List.flatMap_cons, first.1, ih plain, List.singleton_append]

namespace WrittenPower

theorem isPlain_of_mem_text (power : WrittenPower) :
    ∀ character ∈ power.text, IsPlain character := by
  have mark : IsPlain power.mark := by
    rcases power.isMark with same | same <;> rw [same] <;> decide
  have sign : ∀ character ∈ power.sign, IsPlain character := by
    rcases power.isSign with same | same | same <;> rw [same]
    · exact nofun
    · exact List.forall_mem_singleton.mpr (by decide)
    · exact List.forall_mem_singleton.mpr (by decide)
  exact List.forall_mem_cons.mpr ⟨mark, List.forall_mem_append.mpr ⟨sign,
    fun digit isMember => isPlain_of_isDigit (power.run.decimal _ isMember)⟩⟩

end WrittenPower

namespace NumberLiteral

variable (literal : NumberLiteral)

theorem isPlain_of_mem_text :
    ∀ character ∈ literal.text, IsPlain character := by
  have sign : ∀ character ∈ Json.minusSign literal.negative,
      IsPlain character := by
    cases literal.negative with
    | false => exact nofun
    | true => exact List.forall_mem_singleton.mpr (by decide)
  have fraction : ∀ character ∈ Spelling.fractionText literal.fractionDigits,
      IsPlain character := by
    cases same : literal.fractionDigits with
    | none => exact nofun
    | some digits =>
        exact List.forall_mem_cons.mpr ⟨by decide, fun digit isMember =>
          isPlain_of_isDigit
            ((literal.fractionDigits_wellFormed same).2 _ isMember)⟩
  have power : ∀ character ∈ literal.powerText, IsPlain character := by
    rw [powerText]
    cases literal.power with
    | none => exact nofun
    | some power => exact power.isPlain_of_mem_text
  exact List.forall_mem_append.mpr ⟨sign, List.forall_mem_append.mpr
    ⟨fun digit isMember => isPlain_of_isDigit (literal.whole.decimal _ isMember),
      List.forall_mem_append.mpr ⟨fraction, power⟩⟩⟩

/-- The text between quotes is what its string is written as. -/
theorem writeString_text :
    Json.writeString (.ofList literal.text) = '"' :: (literal.text ++ ['"']) := by
  rw [Json.writeString, String.toList_ofList,
    flatMap_escapeCharacter_eq literal.isPlain_of_mem_text]

theorem takeFraction_text :
    takeFraction (Spelling.fractionText literal.fractionDigits ++
      literal.powerText) =
        (literal.fractionDigits.getD [], literal.powerText) := by
  have ends := literal.powerText_append_head Json.numberEnds_nil
  rw [List.append_nil] at ends
  cases same : literal.fractionDigits with
  | none =>
      rw [Spelling.fractionText, List.nil_append, takeFraction.eq_def]
      split
      case h_1 begins =>
        rw [begins] at ends
        exact absurd rfl (ends '.' rfl).2
      case h_2 => rfl
  | some digits =>
      exact Json.spanDigits_append (literal.fractionDigits_wellFormed same).2
        fun character first => (ends character first).1

theorem exponentOf?_powerText :
    exponentOf? literal.powerText =
      some ((literal.power.map WrittenPower.value).getD 0) := by
  rw [powerText]
  cases literal.power with
  | none => rfl
  | some power => exact power.exponentOf?_text

/-- The text of a literal is a written value, and it is rounded once. -/
theorem ofText_text :
    Binary.ofText .single literal.text = .ok literal.toSingle := by
  have ends := literal.fractionText_append_head Json.numberEnds_nil
  rw [List.append_nil] at ends
  obtain ⟨digit, more, same, -⟩ := literal.whole.exists_eq_cons
  have sign : takeSign literal.text = (literal.negative,
      literal.whole.digits ++
        (Spelling.fractionText literal.fractionDigits ++
          literal.powerText)) := by
    rw [text]
    cases literal.negative with
    | true => rfl
    | false => exact literal.whole.takeSign_append _
  have number : decimalOf? literal.negative (literal.whole.digits ++
      (Spelling.fractionText literal.fractionDigits ++ literal.powerText)) =
        some literal.decimal := by
    rw [decimalOf?, Json.spanDigits_append literal.whole.decimal ends]
    simp only [literal.takeFraction_text, literal.exponentOf?_powerText, same]
    rw [decimal, same]
    rfl
  have nonempty : ¬ literal.text.isEmpty = true := by
    obtain ⟨_, _, same, -⟩ := literal.exists_text_eq_cons
    rw [same]
    exact Bool.false_ne_true
  rw [Binary.ofText, if_neg nonempty, sign]
  simp only [number]
  rfl

end NumberLiteral

end SignatureVeil
