import SignatureVeil.Json.Printer
import SignatureVeil.Json.Reader
import SignatureVeil.Proofs.Text.Places

/-!
# Strings that are written and read again

Whatever characters a string has, it is read as it was written.  Characters
that need an escape are read one at a time, and the others stand for
themselves.
-/

namespace SignatureVeil

namespace Json

theorem hexValue?_digitChar : ∀ value < 16,
    hexValue? (Nat.digitChar value) = some value := by
  decide

variable (rest : List Char)

/-- Four hexadecimal digits with two zeros in front name an ASCII character. -/
theorem readCharacters_unit {high low : Nat} (small : high < 2)
    (digit : low < 16) :
    readCharacters .full (.hex none 4 0)
        ('0' :: '0' :: Nat.digitChar high :: Nat.digitChar low :: rest) =
      push (.ofNat (16 * high + low)) (readCharacters .full .plain rest) := by
  have high' := hexValue?_digitChar high (by omega)
  have low' := hexValue?_digitChar low digit
  have zero := hexValue?_digitChar 0 (by omega)
  change hexValue? '0' = some 0 at zero
  have alone : EscapeMeaning.ofUnit .full none (16 * high + low) =
      .character (.ofNat (16 * high + low)) := by
    have notLead : isLead (16 * high + low) = false := by
      simp [isLead]
      omega
    have notTrail : isTrail (16 * high + low) = false := by
      simp [isTrail]
      omega
    simp [EscapeMeaning.ofUnit, notLead, notTrail]
  simp [readCharacters, zero, high', low', alone]

theorem readCharacters_unicode (first second third fourth : Char) :
    readCharacters .full .plain
        ('\\' :: 'u' :: first :: second :: third :: fourth :: rest) =
      readCharacters .full (.hex none 4 0)
        (first :: second :: third :: fourth :: rest) := by
  have enough : ¬ lacksHexDigits
      (first :: second :: third :: fourth :: rest) = true := by
    have := length_le_utf8Width [first, second, third, fourth]
    rw [lacksHexDigits, decide_eq_true_eq]
    exact Nat.not_lt.mpr this
  exact if_neg enough

theorem readCharacters_escapeCharacter (character : Char) :
    readCharacters .full .plain (escapeCharacter character ++ rest) =
      push character (readCharacters .full .plain rest) := by
  unfold escapeCharacter
  split
  case h_8 notQuote notBackslash _ _ _ _ _ =>
    split
    case isTrue control =>
      have same : Char.ofNat (16 * (character.toNat / 16) +
          character.toNat % 16) = character := by
        rw [Nat.div_add_mod, Char.ofNat_toNat]
      exact (readCharacters_unicode rest _ _ _ _).trans
        ((readCharacters_unit rest (by omega) (by omega)).trans (by rw [same]))
    case isFalse printed =>
      exact (if_neg notQuote).trans
        ((if_neg notBackslash).trans (if_neg printed))
  all_goals simp [readCharacters, unescape?]

theorem readCharacters_flatMap (characters : List Char) :
    readCharacters .full .plain
        (characters.flatMap escapeCharacter ++ '"' :: rest) =
      .ok (characters, rest) := by
  induction characters with
  | nil => rfl
  | cons character characters ih =>
      rw [List.flatMap_cons, List.append_assoc, readCharacters_escapeCharacter,
        ih, push]

/-- What a string is written as, behind its opening quote, is read as that
string. -/
theorem readString_write (value : String) :
    readString .full (value.toList.flatMap escapeCharacter ++ '"' :: rest) =
      .ok (value, rest) := by
  rw [readString, readCharacters_flatMap]
  simp only [String.ofList_toList]

end Json

end SignatureVeil
