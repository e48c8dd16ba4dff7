/-!
# Decimal literals

The parts that written numbers are made of: a sign, digits before and behind a
point, and a power of ten.  What a literal stands for is the whole number that
all its digits spell, scaled by a power of ten.
-/

namespace SignatureVeil

/-- The digits at the beginning of a text, and what follows them. -/
def spanDigits (text : List Char) : List Char × List Char :=
  (text.takeWhile Char.isDigit, text.dropWhile Char.isDigit)

/-- An optional sign, and what follows it.  The flag says whether it is a
minus sign. -/
def takeSign : List Char → Bool × List Char
  | '-' :: rest => (true, rest)
  | '+' :: rest => (false, rest)
  | text => (false, text)

/-- The whole number that a sign and digits spell. -/
def signedNumber (negative : Bool) (digits : List Char) : Int :=
  if negative then
    -(Nat.ofDigitChars 10 digits 0 : Int)
  else
    Nat.ofDigitChars 10 digits 0

structure DecimalLiteral where
  negative : Bool
  whole : List Char
  fraction : List Char
  /-- The power of ten that the number is scaled by. -/
  power : Int
  deriving DecidableEq, Repr

namespace DecimalLiteral

/-- The whole number that the digits of a literal spell. -/
def digits (literal : DecimalLiteral) : Nat :=
  Nat.ofDigitChars 10 (literal.whole ++ literal.fraction) 0

/-- The power of ten that belongs to `digits`. -/
def exponent (literal : DecimalLiteral) : Int :=
  literal.power - literal.fraction.length

/-- Collect digits behind a number as long as it stays below `2 ^ 64`, and
return it with the digits that are left. -/
def collect (number : Nat) : List Char → Nat × List Char
  | [] => (number, [])
  | digit :: rest =>
      let longer := 10 * number + (digit.toNat - '0'.toNat)
      if longer < Nat.pow 2 64 then
        collect longer rest
      else
        (number, digit :: rest)

/-- The leading digits of a literal, as many as fit into 64 bits, and the
power of ten that belongs to them.  Digits before the point that do not fit
count in the power; digits behind the point that do not fit are dropped. -/
def leading (literal : DecimalLiteral) : Nat × Int :=
  let (number, dropped) := collect 0 literal.whole
  let (number, unused) := collect number literal.fraction
  let used := literal.fraction.length - unused.length
  (number, literal.power + dropped.length - used)

end DecimalLiteral

end SignatureVeil
