import SignatureVeil.Binary.Format

/-!
# Scaling by powers of ten

A product or quotient of two magnitudes is rounded to the nearest magnitude.
Scaling a magnitude by a power of ten multiplies or divides it by the rounded
power, so the result is rounded once more than the exact value would be.
Powers that are too small to be written as one magnitude are applied in
several steps; with those that are too large nothing but zero can be scaled.
-/

namespace SignatureVeil

namespace BinaryFormat

/-- The product of two finite magnitudes. -/
def multiply (format : BinaryFormat) (first second : Nat) : Nat :=
  let scale := format.scale first + format.scale second
  format.nearest
    (format.significand first * format.significand second *
      Nat.pow 2 scale.toNat)
    (Nat.pow 2 (-scale).toNat)

/-- The quotient of two finite magnitudes, of which the second is not zero. -/
def divide (format : BinaryFormat) (first second : Nat) : Nat :=
  let scale := format.scale first - format.scale second
  format.nearest
    (format.significand first * Nat.pow 2 scale.toNat)
    (format.significand second * Nat.pow 2 (-scale).toNat)

/-- The largest power of ten that is a finite magnitude with 64 bits. -/
def largestPower : Nat :=
  308

def powerOfTen (format : BinaryFormat) (power : Nat) : Nat :=
  format.nearest (Nat.pow 10 power) 1

/-- Scale a magnitude by a power of ten.  There is no result if it would be
too large. -/
def scaleByTen? (format : BinaryFormat) (magnitude : Nat) (power : Int) :
    Option Nat :=
  if power < -(largestPower : Int) then
    if magnitude = 0 then
      some 0
    else
      format.scaleByTen?
        (format.divide magnitude (format.powerOfTen largestPower))
        (power + largestPower)
  else if power < 0 then
    some (format.divide magnitude (format.powerOfTen (-power).toNat))
  else if power ≤ largestPower then
    let product := format.multiply magnitude (format.powerOfTen power.toNat)
    if product < format.infinity then some product else none
  else if magnitude = 0 then
    some 0
  else
    none
termination_by (-power).toNat
decreasing_by
  simp only [largestPower] at *
  omega

end BinaryFormat

end SignatureVeil
