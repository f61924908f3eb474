import ShapeMatch.Value.Display
import ShapeMatch.Value.Json

/-!
# Rendering

A value is rendered for an error message as its JSON text, or as its display if it has no JSON text.
Rendering never fails, and may be limited to a number of characters.
-/

namespace ShapeMatch

/-- How a value is rendered. -/
structure RenderConfig where
  /-- The most characters that are kept; a longer text is cut and ends with an ellipsis. -/
  maxChars : Option Nat := none
deriving DecidableEq, Repr

/-- The text, cut after so many characters if it is longer. -/
def truncate (maxChars : Option Nat) (text : String) : String :=
  match maxChars with
  | none => text
  | some n => if text.length ≤ n then text else String.ofList (text.toList.take n ++ ['…'])

namespace Value

/-- The rendering of a value without a limit. -/
def renderWhole (v : Value) : String :=
  if v.isHidden then "undefined"
  else
    match v.jsonText with
    | .ok text => text
    | .error _ => v.display

/-- The rendering of a value. -/
def render (config : RenderConfig) (v : Value) : String := truncate config.maxChars v.renderWhole

end Value

end ShapeMatch
