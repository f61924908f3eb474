import ShapeMatch.Text.Quoted
import ShapeMatch.Value.Display

/-!
# Inspection

The inspection of a value is a text for developers. It names the kind of each part and quotes texts.
-/

namespace ShapeMatch.Value

mutual

/-- The inspection of a value. Of a symbol it shows the description alone. The inspection that a program
prints has the number of the symbol as well, `Symbol#id(description)`, which counts all symbols that
were made before; it is left out here, so symbols of one description look alike. -/
def inspect : Value → String
  | undefined => "Undefined"
  | null => "Null"
  | bool b => "Bool(" ++ (if b then "true" else "false") ++ ")"
  | number x => "Number(" ++ x.display ++ ")"
  | bigint n => "BigInt(" ++ toString n ++ ")"
  | string s => "Str(" ++ Quoted.quote s ++ ")"
  | symbol s => s.text
  | array _ ⟨items⟩ => bracket "Array([" (inspectItems items) "])"
  | object _ ⟨⟨fields⟩, _⟩ => bracket "\x7b" (inspectFields fields) "\x7d"
  | map _ ⟨⟨entries⟩, _⟩ => bracket "Map\x7b" (inspectEntries entries) "\x7d"
  | set _ ⟨⟨members⟩, _⟩ => bracket "Set\x7b" (inspectItems members) "\x7d"
  | inst _ c ⟨⟨fields⟩, _⟩ => c.name ++ bracket "\x7b" (inspectFields fields) "\x7d"

/-- The inspections of elements or members. -/
def inspectItems : List Value → List String
  | [] => []
  | v :: vs => v.inspect :: inspectItems vs

/-- The inspections of fields, with their quoted names. -/
def inspectFields : List (String × Value) → List String
  | [] => []
  | (k, v) :: fs => (Quoted.quote k ++ ": " ++ v.inspect) :: inspectFields fs

/-- The inspections of entries, with their keys. -/
def inspectEntries : List (Value × Value) → List String
  | [] => []
  | (k, v) :: es => (k.inspect ++ ": " ++ v.inspect) :: inspectEntries es

end

end ShapeMatch.Value
