import ShapeMatch.Pattern.Basic

/-!
# Lifting values to patterns

The pattern of a value asks for its contents instead of the value itself: arrays become tuples,
records and instances become objects, and maps become maps, with their parts lifted in turn. The
members of a set stay literals, and a primitive is a literal.
-/

namespace ShapeMatch.Pattern

mutual

/-- The pattern that asks for the contents of a value. -/
def lift : Value → Pattern
  | .array _ ⟨items⟩ => tuple (liftItems items).toArray
  | .object _ ⟨⟨fields⟩, _⟩ | .inst _ _ ⟨⟨fields⟩, _⟩ => object (liftFields fields)
  | .map _ ⟨⟨entries⟩, _⟩ => map (liftEntries entries)
  | .set _ members => set (members.toList.map literal)
  | v => literal v

/-- The patterns of elements. -/
def liftItems : List Value → List Pattern
  | [] => []
  | v :: vs => lift v :: liftItems vs

/-- The patterns of fields, under the same names. -/
def liftFields : List (String × Value) → List (String × Pattern)
  | [] => []
  | (k, v) :: fields => (k, lift v) :: liftFields fields

/-- The patterns of the values of a map, under the same keys. -/
def liftEntries : List (Value × Value) → List (Value × Pattern)
  | [] => []
  | (k, v) :: entries => (k, lift v) :: liftEntries entries

end

end ShapeMatch.Pattern
