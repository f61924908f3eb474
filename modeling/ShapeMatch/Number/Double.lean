/-!
# Double precision numbers

A `Double` is a number of 64 bits: a sign, an exponent of eleven bits and a fraction of 52 bits. All
operations are integer arithmetic on these parts. A finite double has the magnitude
`significand * 2 ^ (scale - 1074)`, where `scale` is a natural number, so every question about its
value is a question about natural numbers.
-/

namespace ShapeMatch

/-! ## Places of binary and decimal numbers -/

/-- The power of two with the exponent `n`. -/
def pow2 (n : Nat) : Nat := Nat.pow 2 n

/-- The power of ten with the exponent `n`. -/
def pow10 (n : Nat) : Nat := Nat.pow 10 n

/-- A double precision number, given by its bits. -/
structure Double where
  /-- The sign bit, eleven bits of exponent and 52 bits of fraction, from the highest bit down. -/
  bits : UInt64
deriving DecidableEq, Hashable, Repr

namespace Double

/-! ## The parts of a double -/

/-- Whether the sign bit is set. -/
def negative (x : Double) : Bool := decide (pow2 63 ≤ x.bits.toNat)

/-- The bits below the sign, as a number. Among doubles of one sign it grows with the value. -/
def unsigned (x : Double) : Nat := x.bits.toNat % pow2 63

/-- The biased exponent, from 0 to 2047. -/
def exponent (x : Double) : Nat := x.unsigned / pow2 52

/-- The fraction bits, below `2 ^ 52`. -/
def fraction (x : Double) : Nat := x.unsigned % pow2 52

/-- The bits of infinity without its sign. Whatever lies above is not a number. -/
def infinityBits : Nat := 2047 * pow2 52

/-- Whether the double is not a number. -/
def isNaN (x : Double) : Bool := decide (infinityBits < x.unsigned)

/-- Whether the double is one of the two infinities. -/
def isInfinite (x : Double) : Bool := decide (x.unsigned = infinityBits)

/-- Whether the double stands for a real number. -/
def isFinite (x : Double) : Bool := decide (x.unsigned < infinityBits)

/-- Whether the double is one of the two zeros. -/
def isZero (x : Double) : Bool := decide (x.unsigned = 0)

/-- The significand of a finite double: the fraction, with the hidden bit unless it is subnormal. -/
def significand (x : Double) : Nat :=
  if x.exponent = 0 then x.fraction else pow2 52 + x.fraction

/-- The power of two of a finite double, counted from `2 ^ (-1074)`. -/
def scale (x : Double) : Nat := x.exponent - 1

/-- The magnitude of a finite double in units of `2 ^ (-1074)`. -/
def units (x : Double) : Nat := x.significand * pow2 x.scale

/-- The number of units of `2 ^ (-1074)` in one. -/
def unitsPerOne : Nat := pow2 1074

/-! ## Comparison -/

/-- The equality of real numbers, for which the two zeros are one and no NaN equals anything. -/
def ieeeEq (x y : Double) : Bool :=
  !x.isNaN && !y.isNaN && (x.bits == y.bits || x.isZero && y.isZero)

/-- The place of a double that is a number on the line of all of them. -/
def place (x : Double) : Int := if x.negative then -(x.unsigned : Int) else x.unsigned

/-- The order of real numbers, in which no NaN takes part. -/
def lt (x y : Double) : Bool := !x.isNaN && !y.isNaN && decide (x.place < y.place)

/-! ## Whole numbers -/

/-- The whole number that the double is, if it is one. -/
def toInt? (x : Double) : Option Int :=
  if x.isFinite && x.units % unitsPerOne == 0 then
    let n : Int := (x.units / unitsPerOne : Nat)
    some (if x.negative then -n else n)
  else none

/-- A natural number over `2 ^ shift`, rounded to the nearest whole number, a half to the even one. -/
def roundShift (n shift : Nat) : Nat :=
  let divisor := pow2 shift
  let quotient := n / divisor
  let twice := 2 * (n % divisor)
  if divisor < twice || (twice == divisor && quotient % 2 == 1) then quotient + 1 else quotient

/-- The bits of the double nearest to a natural number. The rounded significand is added to the
exponent bits, so a carry out of the significand moves to the next exponent by itself. -/
def bitsOfNat (n : Nat) : Nat :=
  if n = 0 then 0
  else
    let width := n.log2 + 1
    let significand := roundShift (n * pow2 (53 - width)) (width - 53)
    min infinityBits ((width + 1021) * pow2 52 + significand)

/-- The double nearest to an integer, a half going to the even significand. -/
def ofInt (n : Int) : Double :=
  let magnitude := bitsOfNat n.natAbs
  ⟨UInt64.ofNat (if n < 0 then pow2 63 + magnitude else magnitude)⟩

/-- The double nearest to a natural number. -/
def ofNat (n : Nat) : Double := ofInt n

/-- The zero without a sign. -/
def zero : Double := ⟨0⟩

/-- The NaN that stands for all of them. -/
def nan : Double := ⟨0x7ff8000000000000⟩

end Double

end ShapeMatch
