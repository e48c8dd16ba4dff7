import SignatureVeil.Binary.Format
import SignatureVeil.Text.DecimalLiteral

/-!
# Floating-point values from text

A written value has an optional sign, followed by a decimal number or by one
of the words for infinity and for no number, in letters of either case.  A
decimal number has digits before or behind an optional point, at least one in
all, and an optional exponent.  It is rounded once, directly from the decimal.
-/

namespace SignatureVeil

/-- Why a text is not a written value. -/
inductive FloatFault where
  | empty
  | invalid
  deriving DecidableEq, Repr

def FloatFault.message : FloatFault → String
  | .empty => "cannot parse float from empty string"
  | .invalid => "invalid float literal"

/-- The digits behind an optional point, and what follows them. -/
def takeFraction : List Char → List Char × List Char
  | '.' :: rest => spanDigits rest
  | text => ([], text)

/-- The exponent that makes up the whole rest of a text.  No text stands for
the exponent zero. -/
def exponentOf? : List Char → Option Int
  | [] => some 0
  | mark :: rest =>
      let (negative, rest) := takeSign rest
      if (mark = 'e' ∨ mark = 'E') ∧ rest ≠ [] ∧ rest.all Char.isDigit then
        some (signedNumber negative rest)
      else
        none

/-- The decimal number that makes up a whole text. -/
def decimalOf? (negative : Bool) (text : List Char) : Option DecimalLiteral :=
  let (whole, rest) := spanDigits text
  let (fraction, rest) := takeFraction rest
  if whole.isEmpty && fraction.isEmpty then
    none
  else
    (exponentOf? rest).map fun power => ⟨negative, whole, fraction, power⟩

namespace Binary

/-- The value without digits that a word stands for. -/
def ofWord? (format : BinaryFormat) (negative : Bool) (word : List Char) :
    Option (Binary format) :=
  let lower := word.map Char.toLower
  if lower = "inf".toList || lower = "infinity".toList then
    some ⟨negative, format.infinity⟩
  else if lower = "nan".toList then
    some ⟨negative, format.infinity + format.hiddenBit / 2⟩
  else
    none

def ofText (format : BinaryFormat) (text : List Char) :
    Except FloatFault (Binary format) :=
  if text.isEmpty then
    .error .empty
  else
    let (negative, rest) := takeSign text
    match decimalOf? negative rest with
    | some literal =>
        .ok (.ofDecimal negative literal.digits literal.exponent)
    | none =>
        match ofWord? format negative rest with
        | some value => .ok value
        | none => .error .invalid

end Binary

end SignatureVeil
