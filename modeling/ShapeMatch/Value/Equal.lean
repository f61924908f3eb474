import ShapeMatch.Value.Same

/-!
# Deep equality

`Value.equal` compares containers by their contents instead of their identity. Neither the order of
fields, entries and members nor the identity of a container plays a part; keys of maps and members of
sets are still found by identity.
-/

namespace ShapeMatch

/-- Whether two sets have the same members. -/
def Members.equal (s t : Members) : Bool :=
  s.size == t.size && s.entries.all fun v => t.contains v.key

namespace Value

mutual

/-- Whether two values have the same contents. -/
def equal : Value → Value → Bool
  | array _ xs, array _ ys => xs.size == ys.size && match xs with | ⟨xs⟩ => equalItems xs ys.toList
  | object _ fs, object _ gs => fs.size == gs.size && match fs with | ⟨⟨fs⟩, _⟩ => equalFields fs gs
  | map _ es, map _ ds => es.size == ds.size && match es with | ⟨⟨es⟩, _⟩ => equalEntries es ds
  | set _ xs, set _ ys => Members.equal xs ys
  | inst _ c fs, inst _ d gs =>
    c.same d && (fs.size == gs.size && match fs with | ⟨⟨fs⟩, _⟩ => equalFields fs gs)
  | a, b => a.sameValue b

/-- Whether values in the same places are equal. -/
def equalItems : List Value → List Value → Bool
  | x :: xs, y :: ys => x.equal y && equalItems xs ys
  | _, _ => true

/-- Whether every field is in the record, with an equal value. -/
def equalFields : List (String × Value) → Record → Bool
  | [], _ => true
  | (k, v) :: fs, gs =>
    (match gs.get? k with
      | some g => v.equal g.2
      | none => false) && equalFields fs gs

/-- Whether every entry is in the map, with an equal value. -/
def equalEntries : List (Value × Value) → Mapping → Bool
  | [], _ => true
  | (k, v) :: es, ds =>
    (match ds.get? k.key with
      | some d => v.equal d.2
      | none => false) && equalEntries es ds

end

end Value

/-- Whether two records have the same fields with equal values. -/
def Record.equal (s t : Record) : Bool := s.size == t.size && Value.equalFields s.toList t

/-- Whether two maps have the same keys with equal values. -/
def Mapping.equal (s t : Mapping) : Bool := s.size == t.size && Value.equalEntries s.toList t

end ShapeMatch
