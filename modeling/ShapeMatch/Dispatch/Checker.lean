import ShapeMatch.Dispatch.Error
import ShapeMatch.Pattern.Matching

/-!
# Checks

A `Checker` is a pattern that is kept for testing values. `Checker.ofArguments` takes a pattern with a
list of values: without a value it answers a checker, with one the outcome of the test.
-/

namespace ShapeMatch

/-- A pattern that is kept for testing values. -/
structure Checker where
  /-- The pattern. -/
  pattern : Pattern

/-- Whether the value matches. -/
def Checker.check (c : Checker) (v : Value) : Bool := c.pattern.isMatch v

/-- The answer to a check with any number of arguments. -/
inductive CheckAnswer where
  /-- The pattern came alone. -/
  | checker (c : Checker)
  /-- The pattern came with a value. -/
  | outcome (isMatch : Bool)

/-- Checks the values against the pattern, if there is at most one. -/
def Checker.ofArguments (p : Pattern) : List Value → Except MatchError CheckAnswer
  | [] => .ok (.checker ⟨p⟩)
  | [v] => .ok (.outcome (p.isMatch v))
  | vs => .error (.argumentCount (vs.length + 1))

end ShapeMatch
