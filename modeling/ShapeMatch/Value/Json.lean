import ShapeMatch.Json.Basic
import ShapeMatch.Value.Basic

/-!
# The JSON view of a value

Records and instances show their fields, without those that hold `undefined` or a symbol; in an array
these leave a `null` in their place. Maps and sets have no fields and show as empty objects. A big
integer has no JSON form, and a value that shows one has none either.
-/

namespace ShapeMatch

/-- Why a value has no JSON form. -/
inductive RenderError where
  /-- The value shows a big integer. -/
  | bigint
deriving DecidableEq, Repr

/-- The text of the error. -/
def RenderError.message : RenderError → String
  | bigint => "cannot render value as JSON: Do not know how to serialize a BigInt"

/-- The JSON view of a number: whole numbers below `10 ^ 21` are shown exactly, and what is not finite
is shown as `null`. -/
def Double.toJson (x : Double) : Json :=
  if x.isFinite then
    match x.toInt? with
    | some n => if n.natAbs < pow10 21 then .whole n else .double x
    | none => .double x
  else .null

namespace Value

/-- Whether a field that holds the value is left out. -/
def isHidden : Value → Bool
  | undefined | symbol _ => true
  | _ => false

mutual

/-- The JSON view of a value. -/
def toJson : Value → Except RenderError Json
  | undefined | null | symbol _ => .ok .null
  | bool b => .ok (.bool b)
  | number x => .ok x.toJson
  | bigint _ => .error .bigint
  | string s => .ok (.string s)
  | array _ ⟨items⟩ => do return .array (← toJsonItems items)
  | object _ ⟨⟨fields⟩, _⟩ | inst _ _ ⟨⟨fields⟩, _⟩ => do return .object (← toJsonFields fields)
  | map .. | set .. => .ok (.object [])

/-- The JSON views of the elements of an array. -/
def toJsonItems : List Value → Except RenderError (List Json)
  | [] => .ok []
  | v :: vs => do return (← v.toJson) :: (← toJsonItems vs)

/-- The JSON views of the fields that are not left out. -/
def toJsonFields : List (String × Value) → Except RenderError (List (String × Json))
  | [] => .ok []
  | (k, v) :: fs => do
    if v.isHidden then toJsonFields fs
    else return (k, ← v.toJson) :: (← toJsonFields fs)

end

/-- The JSON text of a value. -/
def jsonText (v : Value) : Except RenderError String := v.toJson.map Json.text

end Value

end ShapeMatch
