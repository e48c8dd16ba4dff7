/-!
# Binary floating-point values

A floating-point value is a sign and a magnitude.  The magnitude is the bit
pattern without its sign bit, so that magnitudes of numbers are ordered as the
numbers are; the largest one that is not a number stands for infinity, and
everything above it is not a number.  A format says how many bits the
exponent and the fraction have.  This file reads a magnitude as a whole number
of units `significand · 2 ^ scale`, and rounds a quotient of whole numbers to
the nearest magnitude.
-/

namespace SignatureVeil

/-- The widths of the two fields of a magnitude. -/
structure BinaryFormat where
  fractionBits : Nat
  exponentBits : Nat
  deriving DecidableEq, Repr

namespace BinaryFormat

def single : BinaryFormat :=
  ⟨23, 8⟩

def double : BinaryFormat :=
  ⟨52, 11⟩

/-- The significand of the least normal number. -/
def hiddenBit (format : BinaryFormat) : Nat :=
  Nat.pow 2 format.fractionBits

/-- The magnitude of infinity: all exponent bits set, and no fraction. -/
def infinity (format : BinaryFormat) : Nat :=
  (Nat.pow 2 format.exponentBits - 1) * format.hiddenBit

/-- The weight of the sign bit. -/
def signWeight (format : BinaryFormat) : Nat :=
  Nat.pow 2 (format.exponentBits + format.fractionBits)

/-- The exponent of the least positive number. -/
def leastScale (format : BinaryFormat) : Int :=
  2 - (Nat.pow 2 (format.exponentBits - 1) : Int) - (format.fractionBits : Int)

/-- The significand of a finite magnitude. -/
def significand (format : BinaryFormat) (magnitude : Nat) : Nat :=
  if magnitude < format.hiddenBit then
    magnitude
  else
    format.hiddenBit + magnitude % format.hiddenBit

/-- The exponent of two that the significand of a finite magnitude is scaled
by. -/
def scale (format : BinaryFormat) (magnitude : Nat) : Int :=
  if magnitude < format.hiddenBit then
    format.leastScale
  else
    format.leastScale + (magnitude / format.hiddenBit : Nat) - 1

end BinaryFormat

/-- The whole number that is nearest to a quotient; of two that are equally
near, the even one. -/
def roundQuotient (numerator denominator : Nat) : Nat :=
  let whole := numerator / denominator
  let rest := numerator % denominator
  if 2 * rest < denominator then
    whole
  else if denominator < 2 * rest then
    whole + 1
  else
    whole + whole % 2

/-- The largest exponent of two that is not above a quotient of positive
numbers. -/
def quotientLog2 (numerator denominator : Nat) : Int :=
  let guess : Int := numerator.log2 - denominator.log2
  if denominator * Nat.pow 2 guess.toNat ≤
      numerator * Nat.pow 2 (-guess).toNat then
    guess
  else
    guess - 1

namespace BinaryFormat

/-- The magnitude that is nearest to a quotient, a tie going to the even one.
Quotients that are too large give infinity. -/
def nearest (format : BinaryFormat) (numerator denominator : Nat) : Nat :=
  if numerator = 0 then
    0
  else
    let scale := max format.leastScale
      (quotientLog2 numerator denominator - format.fractionBits)
    let significand := roundQuotient
      (numerator * Nat.pow 2 (-scale).toNat)
      (denominator * Nat.pow 2 scale.toNat)
    min format.infinity
      ((scale - format.leastScale).toNat * format.hiddenBit + significand)

/-- Powers of ten outside this bound are beyond both formats: `10 ^ 400` is
far above all finite numbers, and `10 ^ (-400)` is far below half of the least
positive one. -/
def decimalBound : Nat :=
  400

/-- The magnitude that is nearest to `digits · 10 ^ exponent`.  Values whose
leading digit stands outside `decimalBound` are settled without computing the
power of ten. -/
def ofDecimal (format : BinaryFormat) (digits : Nat) (exponent : Int) : Nat :=
  if digits = 0 then
    0
  else
    let leading : Int := (Nat.toDigits 10 digits).length + exponent
    if (decimalBound : Int) < leading then
      format.infinity
    else if leading < -(decimalBound : Int) then
      0
    else
      format.nearest (digits * Nat.pow 10 exponent.toNat)
        (Nat.pow 10 (-exponent).toNat)

end BinaryFormat

structure Binary (format : BinaryFormat) where
  negative : Bool
  magnitude : Nat
  deriving DecidableEq, Repr

abbrev Single := Binary .single

abbrev Double := Binary .double

namespace Binary

variable {format : BinaryFormat}

/-- A value is finite if it is neither infinite nor no number at all. -/
def isFinite (value : Binary format) : Bool :=
  value.magnitude < format.infinity

/-- Some bit patterns stand for no number. -/
def isNaN (value : Binary format) : Bool :=
  format.infinity < value.magnitude

def ofBits (bits : Nat) : Binary format :=
  ⟨bits / format.signWeight % 2 = 1, bits % format.signWeight⟩

def toBits (value : Binary format) : Nat :=
  (if value.negative then format.signWeight else 0) + value.magnitude

def ofInt (number : Int) : Binary format :=
  ⟨number < 0, format.nearest number.natAbs 1⟩

/-- The value that is nearest to `± digits · 10 ^ exponent`. -/
def ofDecimal (negative : Bool) (digits : Nat) (exponent : Int) :
    Binary format :=
  ⟨negative, format.ofDecimal digits exponent⟩

/-- The nearest value of another format.  Infinities stay infinite, and what
is not a number stays so. -/
def convert (target : BinaryFormat) (value : Binary format) : Binary target :=
  if value.isNaN then
    ⟨value.negative, target.infinity + target.hiddenBit / 2⟩
  else if value.magnitude = format.infinity then
    ⟨value.negative, target.infinity⟩
  else
    let scale := format.scale value.magnitude
    ⟨value.negative, target.nearest
      (format.significand value.magnitude * Nat.pow 2 scale.toNat)
      (Nat.pow 2 (-scale).toNat)⟩

def oneMagnitude (format : BinaryFormat) : Nat :=
  format.nearest 1 1

/-- Limit a value to the numbers from zero to one.  Negative numbers become
zero and large ones become one; a negative zero is not below zero, and what is
not a number is neither below nor above. -/
def clampToUnit (value : Binary format) : Binary format :=
  if value.isNaN then
    value
  else if value.negative && value.magnitude != 0 then
    ⟨false, 0⟩
  else if oneMagnitude format < value.magnitude then
    ⟨false, oneMagnitude format⟩
  else
    value

end Binary

end SignatureVeil
