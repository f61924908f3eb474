import ShapeMatch.Number.Shortest

/-!
# Layouts of numbers

A `Layout` is a style of writing a number: between two powers of ten the digits are written around a
point in their place, outside them with an exponent of ten that carries its sign.
-/

namespace ShapeMatch

/-- A style of writing numbers by their shortest digits. -/
structure Layout where
  /-- The exponent of the least power of ten that is written without an exponent. -/
  plainFrom : Int
  /-- The exponent of the least power of ten, above that, that needs an exponent again. -/
  plainBelow : Int
  /-- Which of two equally near shortest decimals is written. -/
  tie : Tie
deriving DecidableEq, Repr

namespace Decimal

/-- The exponent of the power of ten of the first digit. -/
def magnitude (d : Decimal) : Int := d.point - 1

/-- The digits around the point in its place, filled up with zeros. -/
def plain (d : Decimal) : List Char :=
  if d.point ≤ 0 then
    '0' :: '.' :: (List.replicate (-d.point).toNat '0' ++ d.digits)
  else
    let before := d.point.toNat
    if d.digits.length ≤ before then
      d.digits ++ List.replicate (before - d.digits.length) '0'
    else
      d.digits.take before ++ '.' :: d.digits.drop before

/-- The first digit, the others behind a point, and the exponent with its sign. -/
def scientific (d : Decimal) : List Char :=
  let mantissa := match d.digits with
    | [] => []
    | [c] => [c]
    | c :: rest => c :: '.' :: rest
  let sign := if d.magnitude < 0 then '-' else '+'
  mantissa ++ 'e' :: sign :: digitsOf d.magnitude.natAbs

end Decimal

namespace Layout

/-- A decimal in this style. -/
def write (l : Layout) (d : Decimal) : List Char :=
  if l.plainFrom ≤ d.magnitude ∧ d.magnitude < l.plainBelow then d.plain else d.scientific

/-- A finite double other than zero in this style. -/
def writeDouble (l : Layout) (x : Double) : List Char :=
  let digits := l.write (x.reading.shortest l.tie)
  if x.negative then '-' :: digits else digits

end Layout

end ShapeMatch
