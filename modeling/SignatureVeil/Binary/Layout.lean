import SignatureVeil.Binary.Shortest

/-!
# Floating-point values as text

A finite value is written with its shortest digits.  If the exponent of its
first digit is within the bounds of the layout, it is written in positional
notation with a point and at least one digit on each side; otherwise in
scientific notation, where the exponent always has a sign and the point is
written only between digits.
-/

namespace SignatureVeil

/-- The exponents of the first digit for which positional notation is used. -/
structure FloatLayout where
  lowest : Int
  highest : Int
  deriving DecidableEq, Repr

namespace FloatLayout

def single : FloatLayout :=
  ⟨-6, 12⟩

def double : FloatLayout :=
  ⟨-5, 15⟩

/-- Positional notation: the point stands behind the digit of weight one. -/
def positional (digits : List Char) (leading : Int) : List Char :=
  if leading < 0 then
    '0' :: '.' :: (List.replicate ((-leading).toNat - 1) '0' ++ digits)
  else
    let whole := leading.toNat + 1
    let padding := List.replicate (whole - digits.length) '0'
    let fraction := digits.drop whole
    digits.take whole ++ padding ++
      '.' :: (if fraction.isEmpty then ['0'] else fraction)

/-- Scientific notation: one digit before the point. -/
def scientific (digits : List Char) (leading : Int) : List Char :=
  let sign := if leading < 0 then '-' else '+'
  let power := 'e' :: sign :: Nat.toDigits 10 leading.natAbs
  match digits with
  | [] => power
  | [digit] => digit :: power
  | digit :: fraction => digit :: '.' :: (fraction ++ power)

/-- Write a decimal.  Zeros at the end of its digits are not written. -/
def write (layout : FloatLayout) (decimal : Decimal) : List Char :=
  let written := Nat.toDigits 10 decimal.digits
  let leading := decimal.exponent + written.length - 1
  let digits := (written.reverse.dropWhile (· = '0')).reverse
  if layout.lowest ≤ leading && leading ≤ layout.highest then
    positional digits leading
  else
    scientific digits leading

/-- Write a finite value.  Zero keeps its sign. -/
def writeFinite (layout : FloatLayout) {format : BinaryFormat}
    (value : Binary format) : List Char :=
  let magnitude :=
    if value.magnitude = 0 then
      ['0', '.', '0']
    else
      layout.write (format.shortest value.magnitude)
  if value.negative then '-' :: magnitude else magnitude

end FloatLayout

end SignatureVeil
