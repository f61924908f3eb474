import ShapeMatch.Selection.Basic
import ShapeMatch.Value.Container

/-!
# Selections as values

A capture becomes a value by giving each collected sequence the identity of a new array. The named
selections become a record, in their order; the anonymous selection is not a part of it.
-/

namespace ShapeMatch

namespace Capture

mutual

/-- The capture as a value, with a new array for each collected sequence. -/
def toValue : Capture → Fresh Value
  | value v => return v
  | collected items => do Value.newArray (← toValues items)

/-- The captures as values. -/
def toValues : List Capture → Fresh (List Value)
  | [] => return []
  | c :: cs => return (← c.toValue) :: (← toValues cs)

end

end Capture

namespace Selections

/-- The named selections, in their order. -/
def named (s : Selections) : List (String × Capture) :=
  s.entries.filterMap fun (k, c) => k.name?.map (·, c)

/-- The named selections as a record. -/
def toValue (s : Selections) : Fresh Value := do
  let values ← Capture.toValues (s.named.map Prod.snd)
  Value.newObject ((s.named.map Prod.fst).zip values)

end Selections

end ShapeMatch
