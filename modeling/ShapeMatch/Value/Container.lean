import ShapeMatch.Value.Same

/-!
# Making containers

Arrays, records, maps, sets and instances are made from a list of their contents, each with a new
identity. A key that comes again takes the new value in the place of the first one, and a member that
comes again is dropped.
-/

namespace ShapeMatch.Value

/-- Makes an array. -/
def newArray (items : List Value) : Fresh Value := return array (← Fresh.ref) items.toArray

/-- Makes a record. -/
def newObject (fields : List (String × Value)) : Fresh Value :=
  return object (← Fresh.ref) (Table.ofList fields)

/-- Makes a map. -/
def newMap (entries : List (Value × Value)) : Fresh Value :=
  return map (← Fresh.ref) (Table.ofList entries)

/-- Makes a set. -/
def newSet (members : List Value) : Fresh Value :=
  return set (← Fresh.ref) (Table.ofList members)

/-- Makes an instance of a class. -/
def newInstance (c : Class) (fields : List (String × Value)) : Fresh Value :=
  return inst (← Fresh.ref) c (Table.ofList fields)

end ShapeMatch.Value
