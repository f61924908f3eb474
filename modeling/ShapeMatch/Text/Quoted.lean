import ShapeMatch.Text.CodeRanges

/-!
# Quoted texts

A text is quoted so that every character of it can be seen: what has no picture of its own, or is
drawn as a part of the character before it, is written as its code point.
-/

namespace ShapeMatch.Quoted

/-- A character by its code point, in hexadecimal digits. -/
def codePoint (c : Char) : List Char :=
  '\\' :: 'u' :: '\x7b' :: (Nat.toDigits 16 c.toNat ++ ['\x7d'])

/-- A character between quotes. -/
def escapeChar (c : Char) : List Char :=
  match c with
  | '\x00' => ['\\', '0']
  | '\t' => ['\\', 't']
  | '\n' => ['\\', 'n']
  | '\r' => ['\\', 'r']
  | '"' => ['\\', '"']
  | '\\' => ['\\', '\\']
  | c =>
    if ' ' ≤ c ∧ c ≤ '~' then [c]
    else if isGraphemeExtend c || isUnprintable c then codePoint c
    else [c]

/-- A text between quotes. -/
def quote (s : String) : String :=
  String.ofList ('"' :: (s.toList.flatMap escapeChar ++ ['"']))

end ShapeMatch.Quoted
