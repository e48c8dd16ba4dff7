import SignatureVeil.Binary.Format

/-!
# Shortest decimal digits

The decimal that names a finite magnitude is the one with the fewest digits
among those that round to it, and of these the one nearest to it.  The numbers
that round to a magnitude form an interval around it, whose ends belong to it
if the significand is even.  For each number of digits, from one upwards, only
the two neighbours of the magnitude on that decimal grid need to be tried,
because a point of the grid that lies in the interval has one of them between
itself and the magnitude.
-/

namespace SignatureVeil

/-- The number `digits · 10 ^ exponent`. -/
structure Decimal where
  digits : Nat
  exponent : Int
  deriving DecidableEq, Repr

/-- The largest exponent of ten that is not above a quotient of positive
numbers. -/
def quotientLog10 (numerator denominator : Nat) : Int :=
  if denominator ≤ numerator then
    (Nat.toDigits 10 (numerator / denominator)).length - 1
  else
    -((Nat.toDigits 10
      ((denominator + numerator - 1) / numerator - 1)).length : Int)

/-- A magnitude together with the numbers that round to it, in quarter units
of `2 ^ scale` over one denominator. -/
structure RoundingInterval where
  low : Nat
  value : Nat
  high : Nat
  denominator : Nat
  /-- Whether the two ends round to the magnitude too. -/
  closed : Bool
  deriving DecidableEq, Repr

namespace RoundingInterval

/-- The numbers that round to a finite magnitude.  Below the first number of a
binade the spacing is half as wide. -/
def ofMagnitude (format : BinaryFormat) (magnitude : Nat) :
    RoundingInterval :=
  let significand := format.significand magnitude
  let scale := format.scale magnitude - 2
  let weight := Nat.pow 2 scale.toNat
  let narrow := magnitude % format.hiddenBit = 0 ∧
    2 * format.hiddenBit ≤ magnitude
  { low := (4 * significand - if narrow then 1 else 2) * weight
    value := 4 * significand * weight
    high := (4 * significand + 2) * weight
    denominator := Nat.pow 2 (-scale).toNat
    closed := significand % 2 = 0 }

/-- Whether `candidate · 10 ^ exponent` lies in the interval. -/
def holds (interval : RoundingInterval) (candidate : Nat) (exponent : Int) :
    Bool :=
  let point := candidate * Nat.pow 10 exponent.toNat * interval.denominator
  let lower := Nat.pow 10 (-exponent).toNat
  if interval.closed then
    interval.low * lower ≤ point && point ≤ interval.high * lower
  else
    interval.low * lower < point && point < interval.high * lower

/-- The point of the grid of multiples of `10 ^ exponent` that lies in the
interval and is nearest to its value, if there is one; of two that are equally
near, the even one. -/
def gridPoint? (interval : RoundingInterval) (exponent : Int) :
    Option Decimal :=
  let numerator := interval.value * Nat.pow 10 (-exponent).toNat
  let denominator := interval.denominator * Nat.pow 10 exponent.toNat
  let below := numerator / denominator
  let nearer := roundQuotient numerator denominator
  if interval.holds nearer exponent then
    some ⟨nearer, exponent⟩
  else if interval.holds below exponent then
    some ⟨below, exponent⟩
  else if interval.holds (below + 1) exponent then
    some ⟨below + 1, exponent⟩
  else
    none

/-- Try ever finer grids, at most `tries` of them. -/
def searchGrid (interval : RoundingInterval) : Nat → Int → Decimal
  | 0, exponent =>
      ⟨interval.value * Nat.pow 10 (-exponent).toNat /
        (interval.denominator * Nat.pow 10 exponent.toNat), exponent⟩
  | tries + 1, exponent =>
      match interval.gridPoint? exponent with
      | some found => found
      | none => interval.searchGrid tries (exponent - 1)

end RoundingInterval

/-- The shortest decimal of a finite positive magnitude.  Seventeen digits
tell all magnitudes of both formats apart. -/
def BinaryFormat.shortest (format : BinaryFormat) (magnitude : Nat) :
    Decimal :=
  let interval := RoundingInterval.ofMagnitude format magnitude
  interval.searchGrid 17
    (quotientLog10 interval.value interval.denominator)

end SignatureVeil
