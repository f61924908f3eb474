import ShapeMatch.Dictionary.Table
import ShapeMatch.Value.Key

/-!
# Values

A `Value` is what patterns are matched against: a primitive, or a container of other values. A
container carries its identity, so that two arrays with the same elements can still be told apart.
Records, maps and sets keep their contents in tables. That the index of a table is right is not part
of the type, but it is in every value made by `Value.newObject`, `Value.newMap`, `Value.newSet` and
`Value.newInstance`.
-/

namespace ShapeMatch

/-! ## Symbols and classes -/

/-- A symbol: it equals no other, whatever its description. -/
structure Symbol where
  /-- The identity of the symbol. -/
  ref : Ref
  /-- The description, which identifies nothing. -/
  description : Option String

namespace Symbol

/-- Makes a symbol that is distinct from every other. -/
def declare (description : Option String) : Fresh Symbol := return ⟨← Fresh.ref, description⟩

/-- The symbol as text. -/
def text (s : Symbol) : String := "Symbol(" ++ s.description.getD "" ++ ")"

end Symbol

/-- A class of instances. Classes are told apart by their declaration and may share a name. -/
inductive Class where
  /-- A class without a parent. -/
  | root (ref : Ref) (name : String)
  /-- A class that extends another. -/
  | extending (ref : Ref) (name : String) (parent : Class)

namespace Class

/-- Declares a class, with or without a parent. -/
def declare (name : String) (parent : Option Class) : Fresh Class := do
  let ref ← Fresh.ref
  return match parent with
    | none => .root ref name
    | some parent => .extending ref name parent

/-- The identity of the declaration. -/
def ref : Class → Ref
  | root r _ => r
  | extending r _ _ => r

/-- The name, which identifies nothing. -/
def name : Class → String
  | root _ n => n
  | extending _ n _ => n

/-- The class that this one extends. -/
def parent? : Class → Option Class
  | root _ _ => none
  | extending _ _ p => some p

/-- Whether two classes are the same declaration. -/
def same (c d : Class) : Bool := c.ref == d.ref

/-- Whether the class is `ancestor` or extends a class that derives from it. -/
def derivesFrom : Class → Class → Bool
  | root r _, ancestor => r == ancestor.ref
  | extending r _ p, ancestor => r == ancestor.ref || p.derivesFrom ancestor

/-- The head of the declaration. -/
def text (c : Class) : String :=
  match c.parent? with
  | none => "class " ++ c.name
  | some p => "class " ++ c.name ++ " extends " ++ p.name

end Class

/-! ## Values -/

/-- A value that patterns are matched against. -/
inductive Value where
  /-- The absent value, which also marks a selection that was not captured. -/
  | undefined
  /-- The empty value. -/
  | null
  /-- A truth value. -/
  | bool (b : Bool)
  /-- A number. -/
  | number (x : Double)
  /-- An integer of any size, which is not a number. -/
  | bigint (n : Int)
  /-- A text. -/
  | string (s : String)
  /-- A symbol. -/
  | symbol (s : Symbol)
  /-- An array. -/
  | array (ref : Ref) (items : Array Value)
  /-- A record: fields with distinct names. -/
  | object (ref : Ref) (fields : Table String (String × Value))
  /-- A map: entries with distinct keys, which may be any values. -/
  | map (ref : Ref) (entries : Table Key (Value × Value))
  /-- A set: distinct values. -/
  | set (ref : Ref) (members : Table Key Value)
  /-- An instance of a class: its own fields, with distinct names. -/
  | inst (ref : Ref) (cls : Class) (fields : Table String (String × Value))

/-- The fields of a record. -/
abbrev Record := Table String (String × Value)

/-- The entries of a map. -/
abbrev Mapping := Table Key (Value × Value)

/-- The members of a set. -/
abbrev Members := Table Key Value

namespace Value

instance : Inhabited Value := ⟨undefined⟩

/-! ## Classification -/

/-- Whether the value is `undefined`. -/
def isUndefined : Value → Bool
  | undefined => true
  | _ => false

/-- Whether the value is `null` or `undefined`. -/
def isNullish : Value → Bool
  | undefined | null => true
  | _ => false

/-- The identity of a container; the primitives have none. -/
def ref? : Value → Option Ref
  | array r _ | object r _ | map r _ | set r _ | inst r _ _ => some r
  | _ => none

/-- The elements of an array. -/
def items? : Value → Option (Array Value)
  | array _ items => some items
  | _ => none

/-- The entries of a map. -/
def entries? : Value → Option Mapping
  | map _ entries => some entries
  | _ => none

/-- The members of a set. -/
def members? : Value → Option Members
  | set _ members => some members
  | _ => none

/-- Whether the value is a container, into which structural patterns can look. -/
def isObjectLike (v : Value) : Bool := v.ref?.isSome

/-- The coarse type of the value. -/
def typeOf : Value → String
  | undefined => "undefined"
  | bool _ => "boolean"
  | number _ => "number"
  | bigint _ => "bigint"
  | string _ => "string"
  | symbol _ => "symbol"
  | null | array .. | object .. | map .. | set .. | inst .. => "object"

/-- The type of the value, with the containers and `null` told apart. -/
def typeName : Value → String
  | null => "null"
  | array .. => "array"
  | map .. => "map"
  | set .. => "set"
  | inst .. => "instance"
  | v => v.typeOf

/-- Whether the value is an instance of the class or of one that derives from it. -/
def isInstanceOf : Value → Class → Bool
  | inst _ c _, ancestor => c.derivesFrom ancestor
  | _, _ => false

/-- The number that an integer stands for. -/
def ofInt (n : Int) : Value := number (.ofInt n)

/-- The number of a size. -/
def ofSize (n : Nat) : Value := number (.ofNat n)

end Value

end ShapeMatch
