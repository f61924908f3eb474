import ShapeMatch.Selection.Record

/-!
# The argument of a handler

The handler of a case gets the subject if the case selected nothing, the anonymous selection if there
is one, and else the named selections.
-/

namespace ShapeMatch

/-- The argument of a handler. -/
inductive Selected where
  /-- Nothing was selected: the subject itself. -/
  | subject (v : Value)
  /-- The anonymous selection; named ones beside it are dropped. -/
  | anonymous (c : Capture)
  /-- The named selections. -/
  | named (s : Selections)

namespace Selected

/-- The argument that a match hands on. -/
def ofSelections (subject : Value) (s : Selections) : Selected :=
  if s.isEmpty then .subject subject
  else
    match s.anonymous? with
    | some c => .anonymous c
    | none => .named s

/-- A named selection. -/
def get? (name : String) : Selected → Option Capture
  | named s => s.getNamed? name
  | subject _ | anonymous _ => none

/-- The argument as one value; named selections become a record. -/
def toValue : Selected → Fresh Value
  | subject v => return v
  | anonymous c => c.toValue
  | named s => s.toValue

end Selected

end ShapeMatch
