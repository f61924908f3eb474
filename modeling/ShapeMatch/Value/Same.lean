import ShapeMatch.Value.Basic

/-!
# Identity of values

Two relations say when two values are the same one. Under both, containers and symbols are the same by
identity, and other primitives by content, with one NaN. They differ on the two zeros, which
`sameValue` keeps apart and `sameValueZero` takes for one. `Value.key` is the second relation as data:
the keys of two values are equal exactly when the values are the same, so that a table can find them.
-/

namespace ShapeMatch

namespace Double

/-- Whether two doubles are the same number, with one NaN and two zeros. -/
def same (x y : Double) : Bool := x.isNaN && y.isNaN || x == y

/-- Whether two doubles are the same number, with one NaN and one zero. -/
def sameZero (x y : Double) : Bool := x.isNaN && y.isNaN || x.ieeeEq y

end Double

namespace Value

/-- Whether two values are the same one, where the two zeros are one number. -/
def sameValueZero : Value → Value → Bool
  | undefined, undefined | null, null => true
  | bool a, bool b => a == b
  | number x, number y => x.sameZero y
  | bigint m, bigint n => m == n
  | string s, string t => s == t
  | symbol s, symbol t => s.ref == t.ref
  | array r _, array s _ | object r _, object s _ | map r _, map s _ | set r _, set s _
  | inst r _ _, inst s _ _ => r == s
  | _, _ => false

/-- Whether two values are the same one, where the two zeros are two numbers. -/
def sameValue : Value → Value → Bool
  | number x, number y => x.same y
  | a, b => a.sameValueZero b

/-- The identity of a value as a key. -/
def key : Value → Key
  | undefined => .undefined
  | null => .null
  | bool b => .bool b
  | number x => .number x.canonical
  | bigint n => .bigint n
  | string s => .string s
  | symbol s => .symbol s.ref
  | array r _ | object r _ | map r _ | set r _ | inst r _ _ => .container r

/-- Entries of a map are found by the identity of their key, and take over the value of the other
entry. -/
instance : Keyed (Value × Value) Key where
  key e := e.1.key
  overwrite old new := (old.1, new.2)
  key_overwrite _ _ := rfl

/-- Members of a set are found by their identity, and are not changed by another one. -/
instance : Keyed Value Key where
  key := key
  overwrite old _ := old
  key_overwrite _ _ := rfl

end Value

end ShapeMatch
