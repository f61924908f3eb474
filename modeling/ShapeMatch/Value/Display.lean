import ShapeMatch.Number.Layout
import ShapeMatch.Value.Basic

/-!
# Display

The display of a value is a text for readers. It shows the whole value and never fails; texts stand
between quotes as they are.
-/

namespace ShapeMatch

/-- Displayed numbers are written out from `0.000001` up and below `10 ^ 21`, and of two equally near
shortest decimals the greater one is taken. -/
def Layout.display : Layout := ⟨-6, 21, .up⟩

/-- The display of a number. The sign of zero is not shown. -/
def Double.display (x : Double) : String :=
  if x.isNaN then "NaN"
  else if x.isInfinite then if x.negative then "-Infinity" else "Infinity"
  else if x.isZero then "0"
  else String.ofList (Layout.display.writeDouble x)

namespace Value

/-- Texts between brackets, with commas. -/
def bracket (left : String) (parts : List String) (right : String) : String :=
  left ++ ", ".intercalate parts ++ right

mutual

/-- The display of a value. -/
def display : Value → String
  | undefined => "undefined"
  | null => "null"
  | bool b => if b then "true" else "false"
  | number x => x.display
  | bigint n => toString n ++ "n"
  | string s => "\"" ++ s ++ "\""
  | symbol s => s.text
  | array _ ⟨items⟩ => bracket "[" (displayItems items) "]"
  | object _ ⟨⟨fields⟩, _⟩ => bracket "\x7b" (displayFields fields) "\x7d"
  | map _ ⟨⟨entries⟩, _⟩ => bracket "Map \x7b" (displayEntries entries) "\x7d"
  | set _ ⟨⟨members⟩, _⟩ => bracket "Set \x7b" (displayItems members) "\x7d"
  | inst _ c ⟨⟨fields⟩, _⟩ => c.name ++ " " ++ bracket "\x7b" (displayFields fields) "\x7d"

/-- The displays of elements or members. -/
def displayItems : List Value → List String
  | [] => []
  | v :: vs => v.display :: displayItems vs

/-- The displays of fields, with their names. -/
def displayFields : List (String × Value) → List String
  | [] => []
  | (k, v) :: fs => (k ++ ": " ++ v.display) :: displayFields fs

/-- The displays of entries, with their keys. -/
def displayEntries : List (Value × Value) → List String
  | [] => []
  | (k, v) :: es => (k.display ++ " => " ++ v.display) :: displayEntries es

end

end Value

end ShapeMatch
