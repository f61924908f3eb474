import ShapeMatch.Number.Double

/-!
# Shortest decimals

The shortest decimal of a double is the one with the fewest digits among those that are nearer to the
double than to any other. It is found by exact arithmetic: for one digit, two digits and so on, the
two decimals of that many digits next to the value are tested, and the first number of digits with a
hit wins. Of two hits the nearer is taken; a `Tie` says which one if they are equally near.
-/

namespace ShapeMatch

/-- Which of two equally near decimals is taken. -/
inductive Tie where
  /-- The greater one. -/
  | up
  /-- The one whose last digit is even. -/
  | even
deriving DecidableEq, Repr

/-- A positive decimal `0.d₁d₂… * 10 ^ point`, whose first and last digits are not zero. -/
structure Decimal where
  /-- The digits, from the first to the last. -/
  digits : List Char
  /-- The number of digits before the point, negative if zeros follow the point. -/
  point : Int
deriving DecidableEq, Repr

namespace Decimal

/-- The digits of a natural number. -/
def digitsOf (n : Nat) : List Char := Nat.toDigits 10 n

/-- The decimal `n * 10 ^ position`. -/
def ofNat (n : Nat) (position : Int) : Decimal where
  digits := ((digitsOf n).reverse.dropWhile (· == '0')).reverse
  point := (digitsOf n).length + position

end Decimal

/-- A positive fraction `value / den` together with the fractions that are read back as the same
number: those between `low / den` and `high / den`, with the ends if the interval is closed. -/
structure Reading where
  /-- The numerator of the number itself. -/
  value : Nat
  /-- The numerator of the lower end. -/
  low : Nat
  /-- The numerator of the upper end. -/
  high : Nat
  /-- The common denominator. -/
  den : Nat
  /-- Whether the ends are read back as the number. -/
  closed : Bool

namespace Reading

/-- Whether `d * 10 ^ position` is read back as the number. -/
def accepts (r : Reading) (position : Int) (d : Nat) : Bool :=
  let x := d * (pow10 position.toNat * r.den)
  let low := r.low * pow10 (-position).toNat
  let high := r.high * pow10 (-position).toNat
  if r.closed then decide (low ≤ x) && decide (x ≤ high) else decide (low < x) && decide (x < high)

/-- The number in units of `10 ^ position`, as a quotient with its remainder and its divisor. -/
def divide (r : Reading) (position : Int) : Nat × Nat × Nat :=
  let divisor := pow10 position.toNat * r.den
  let dividend := r.value * pow10 (-position).toNat
  (dividend / divisor, dividend % divisor, divisor)

/-- The multiple of `10 ^ position` that is nearest to the number among its two neighbours, if one of
them is read back as the number. -/
def nearest? (tie : Tie) (r : Reading) (position : Int) : Option Nat :=
  let (below, rest, divisor) := r.divide position
  match r.accepts position below, r.accepts position (below + 1) with
  | false, false => none
  | true, false => some below
  | false, true => some (below + 1)
  | true, true =>
    if 2 * rest < divisor then some below
    else if divisor < 2 * rest then some (below + 1)
    else
      match tie with
      | .up => some (below + 1)
      | .even => some (if below % 2 = 0 then below else below + 1)

/-- The number of digits before the point, negative if zeros follow the point. -/
def point (r : Reading) : Int :=
  if r.den ≤ r.value then (Decimal.digitsOf (r.value / r.den)).length
  else 1 - ((Decimal.digitsOf ((r.den - 1) / r.value)).length : Int)

/-- The most digits that a double needs. -/
def maxDigits : Nat := 17

/-- The decimal with the fewest digits that is read back as the number, the nearest of those. -/
def shortest (tie : Tie) (r : Reading) : Decimal :=
  let found := (List.range maxDigits).findSome? fun i =>
    let position := r.point - (i + 1 : Nat)
    (r.nearest? tie position).map fun d => Decimal.ofNat d position
  found.getD (Decimal.ofNat (r.divide (r.point - maxDigits)).1 (r.point - maxDigits))

end Reading

namespace Double

/-- The reading of a finite double other than zero. The ends lie half way to the two neighbours, and
they are read back as the double when its significand is even. Below a power of two the spacing is
half of what it is above. -/
def reading (x : Double) : Reading :=
  let spacing := pow2 x.scale
  { value := 4 * x.units
    low := 4 * x.units - (if x.fraction = 0 && decide (1 < x.exponent) then spacing else 2 * spacing)
    high := 4 * x.units + 2 * spacing
    den := 4 * unitsPerOne
    closed := x.significand % 2 == 0 }

end Double

end ShapeMatch
