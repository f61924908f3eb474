import ShapeMatch.Value.Basic

/-!
# Properties

Records and instances have their fields as properties, arrays their length and their elements under
the numerals of their positions, and maps and sets their size. Primitives have none.
-/

namespace ShapeMatch

/-- The value of a digit. -/
def digit? (c : Char) : Option Nat := if c.isDigit then some (c.toNat - '0'.toNat) else none

/-- The number that digits stand for, leading zeros included. -/
def readDigits? (cs : List Char) : Option Nat :=
  if cs.isEmpty then none else cs.foldlM (fun n c => (digit? c).map (10 * n + ·)) 0

/-- The number that is read from a text: digits, which a plus sign may precede. -/
def readNumber? : List Char → Option Nat
  | '+' :: cs => readDigits? cs
  | cs => readDigits? cs

/-- The position below `size` whose numeral is the key. Not every key that reads as a position is its
numeral: writing the position again tells a plus sign or leading zeros. -/
def position? (key : String) (size : Nat) : Option Nat := do
  let i ← readNumber? key.toList
  if i < size ∧ toString i = key then some i else none

namespace Value

/-- Whether the value has the property. -/
def hasProperty (key : String) : Value → Bool
  | object _ fields | inst _ _ fields => fields.contains key
  | array _ items => key == "length" || (position? key items.size).isSome
  | map .. | set .. => key == "size"
  | _ => false

/-- The property, if the value has it. -/
def property? (key : String) : Value → Option Value
  | object _ fields | inst _ _ fields => (fields.get? key).map Prod.snd
  | array _ items =>
    if key = "length" then some (ofSize items.size)
    else (position? key items.size).bind (items[·]?)
  | map _ entries => if key = "size" then some (ofSize entries.size) else none
  | set _ members => if key = "size" then some (ofSize members.size) else none
  | _ => none

end Value

end ShapeMatch
