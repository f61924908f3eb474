import ShapeMatch.Identity
import ShapeMatch.Number.Double

/-!
# Keys

A `Key` is what makes a value the same as another one when values are the keys of a map or the members
of a set: the content of a primitive, the identity of a symbol or a container.
-/

namespace ShapeMatch

/-- The identity of a value as a key of a map and as a member of a set. -/
inductive Key where
  /-- The key of `undefined`. -/
  | undefined
  /-- The key of `null`. -/
  | null
  /-- The key of a truth value. -/
  | bool (b : Bool)
  /-- The key of a number, by its canonical double. -/
  | number (x : Double)
  /-- The key of a big integer. -/
  | bigint (n : Int)
  /-- The key of a text. -/
  | string (s : String)
  /-- The key of a symbol. -/
  | symbol (r : Ref)
  /-- The key of a container. -/
  | container (r : Ref)
deriving DecidableEq, Hashable

/-- The double that stands for all that are the same number, with one NaN and one zero. -/
def Double.canonical (x : Double) : Double :=
  if x.isNaN then nan else if x.isZero then zero else x

end ShapeMatch
