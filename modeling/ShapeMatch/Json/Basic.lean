import ShapeMatch.Number.Layout

/-!
# JSON

`Json` is a JSON text before it is written. Whole numbers and doubles are kept apart, since a whole
number is written with all its digits and a double with its shortest ones. `Json.write` writes without
blanks.

The text itself is written by a library that is not a part of the program. Its separators and escapes
(`Json.write`, `Json.escapeChar`) and its style of writing doubles (`Layout.json`) are assumed here, as
that library documents them.
-/

namespace ShapeMatch

/-- A JSON text before it is written. -/
inductive Json where
  /-- The empty value. -/
  | null
  /-- A truth value. -/
  | bool (b : Bool)
  /-- A whole number, written with all its digits. -/
  | whole (n : Int)
  /-- A finite double other than zero, written with its shortest digits. -/
  | double (x : Double)
  /-- A text. -/
  | string (s : String)
  /-- An array. -/
  | array (items : List Json)
  /-- An object, whose fields keep their order. -/
  | object (fields : List (String × Json))

/-- Doubles in JSON are written out from `0.00001` up and below `10 ^ 21`, and of two equally near
shortest decimals the one with the even last digit is taken. Both the range and the rule for ties are
assumed of the library that writes JSON. -/
def Layout.json : Layout := ⟨-5, 21, .even⟩

namespace Json

instance : Inhabited Json := ⟨null⟩

/-- The digit of a number below 16, in lower case. -/
def hexDigit (n : Nat) : Char := Nat.digitChar n

/-- A character inside a JSON string: quotes and backslashes are escaped, control characters have a
short escape or one with four hexadecimal digits, and all others stand for themselves. Which escapes are
used is assumed of the library that writes JSON. -/
def escapeChar (c : Char) : List Char :=
  match c with
  | '"' => ['\\', '"']
  | '\\' => ['\\', '\\']
  | '\x08' => ['\\', 'b']
  | '\x0c' => ['\\', 'f']
  | '\n' => ['\\', 'n']
  | '\r' => ['\\', 'r']
  | '\t' => ['\\', 't']
  | c =>
    if c.toNat < 32 then
      ['\\', 'u', '0', '0', hexDigit (c.toNat / 16), hexDigit (c.toNat % 16)]
    else [c]

/-- A JSON string, in front of the rest of a text. -/
def writeString (s : String) (rest : List Char) : List Char :=
  '"' :: (s.toList.flatMap escapeChar ++ '"' :: rest)

/-- A whole number. -/
def writeWhole (n : Int) : List Char :=
  if n < 0 then '-' :: Decimal.digitsOf n.natAbs else Decimal.digitsOf n.natAbs

mutual

/-- A JSON text, in front of the rest of a text. That it has no blanks, and separators only where the
grammar asks for them, is assumed of the library that writes JSON. -/
def write : Json → List Char → List Char
  | null, rest => "null".toList ++ rest
  | bool true, rest => "true".toList ++ rest
  | bool false, rest => "false".toList ++ rest
  | whole n, rest => writeWhole n ++ rest
  | double x, rest => Layout.json.writeDouble x ++ rest
  | string s, rest => writeString s rest
  | array [], rest => '[' :: ']' :: rest
  | array (j :: items), rest => '[' :: j.write (writeItems items rest)
  | object [], rest => '\x7b' :: '\x7d' :: rest
  | object ((k, j) :: fields), rest =>
    '\x7b' :: writeString k (':' :: j.write (writeFields fields rest))

/-- The elements of an array after the first, and the closing bracket. -/
def writeItems : List Json → List Char → List Char
  | [], rest => ']' :: rest
  | j :: items, rest => ',' :: j.write (writeItems items rest)

/-- The fields of an object after the first, and the closing brace. -/
def writeFields : List (String × Json) → List Char → List Char
  | [], rest => '\x7d' :: rest
  | (k, j) :: fields, rest =>
    ',' :: writeString k (':' :: j.write (writeFields fields rest))

end

/-- The JSON text. -/
def text (j : Json) : String := String.ofList (j.write [])

end Json

end ShapeMatch
