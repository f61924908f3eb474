import ShapeMatch.Proofs.Value.Numerals

/-!
# Proofs: the grammar of JSON

A `Document` is what a JSON text says. The grammar tells which texts say what. Each of its rules is a
relation between a text, what a piece at the front of it says, and the rest of the text behind that
piece; nothing is said about which rule to try where (`Document.IsText`).
-/

namespace ShapeMatch

/-- What a JSON text says. A number is exact, in whatever notation it stands in the text, and the
members of an object keep their order. -/
inductive Document where
  | null
  | bool (b : Bool)
  | number (q : Rat)
  | string (s : String)
  | array (items : List Document)
  | object (members : List (String × Document))

namespace Document

/-! ## Blanks and numbers -/

def isBlank (c : Char) : Bool := c == ' ' || c == '\t' || c == '\n' || c == '\r'

/-- Blanks in front of the rest, or none. -/
inductive IsBlanks : List Char → List Char → Prop where
  | nil {r : List Char} : IsBlanks r r
  | cons {c : Char} {s r : List Char} (hc : isBlank c) (h : IsBlanks s r) : IsBlanks (c :: s) r

/-- One digit or more. -/
inductive IsDigits : List Char → List Char → List Char → Prop where
  | intro {ds r : List Char} (hne : ds ≠ []) (h : ∀ c ∈ ds, c.isDigit) : IsDigits (ds ++ r) ds r

/-- The number that digits stand for. -/
def natOf (ds : List Char) : Nat := Nat.ofDigitChars 10 ds 0

inductive IsFraction : List Char → Rat → List Char → Prop where
  | none {r : List Char} : IsFraction r 0 r
  | digits {s ds r : List Char} (h : IsDigits s ds r) :
    IsFraction ('.' :: s) (natOf ds / 10 ^ ds.length) r

inductive IsExponent : List Char → Int → List Char → Prop where
  | none {r : List Char} : IsExponent r 0 r
  | bare {c : Char} {s ds r : List Char} (hc : c = 'e' ∨ c = 'E') (h : IsDigits s ds r) :
    IsExponent (c :: s) (natOf ds) r
  | plus {c : Char} {s ds r : List Char} (hc : c = 'e' ∨ c = 'E') (h : IsDigits s ds r) :
    IsExponent (c :: '+' :: s) (natOf ds) r
  | minus {c : Char} {s ds r : List Char} (hc : c = 'e' ∨ c = 'E') (h : IsDigits s ds r) :
    IsExponent (c :: '-' :: s) (-(natOf ds : Int)) r

/-- A number without its sign. The digits before the point do not start with a needless zero. -/
inductive IsMagnitude : List Char → Rat → List Char → Prop where
  | intro {s ds s₁ s₂ r : List Char} {f : Rat} {e : Int} (hd : IsDigits s ds s₁)
      (hn : IsNumeral (String.ofList ds)) (hf : IsFraction s₁ f s₂) (he : IsExponent s₂ e r) :
    IsMagnitude s ((natOf ds + f) * 10 ^ e) r

inductive IsNumber : List Char → Rat → List Char → Prop where
  | plus {s r : List Char} {q : Rat} (h : IsMagnitude s q r) : IsNumber s q r
  | minus {s r : List Char} {q : Rat} (h : IsMagnitude s q r) : IsNumber ('-' :: s) (-q) r

/-! ## Strings -/

/-- The value of a hexadecimal digit, in lower or upper case. -/
def hexValue? (c : Char) : Option Nat :=
  if c.isDigit then some (c.toNat - '0'.toNat)
  else if 'a' ≤ c ∧ c ≤ 'f' then some (c.toNat - 'a'.toNat + 10)
  else if 'A' ≤ c ∧ c ≤ 'F' then some (c.toNat - 'A'.toNat + 10)
  else none

/-- Four hexadecimal digits. -/
inductive IsCodeUnit : List Char → Nat → List Char → Prop where
  | intro {a b c d : Char} {i j k l : Nat} {r : List Char} (ha : hexValue? a = some i)
      (hb : hexValue? b = some j) (hc : hexValue? c = some k) (hd : hexValue? d = some l) :
    IsCodeUnit (a :: b :: c :: d :: r) (((i * 16 + j) * 16 + k) * 16 + l) r

/-- The character that a letter behind a backslash stands for. -/
def shortEscape? : Char → Option Char
  | '"' => some '"'
  | '\\' => some '\\'
  | '/' => some '/'
  | 'b' => some '\x08'
  | 'f' => some '\x0c'
  | 'n' => some '\n'
  | 'r' => some '\r'
  | 't' => some '\t'
  | _ => none

def isHighSurrogate (n : Nat) : Bool := decide (0xd800 ≤ n) && decide (n < 0xdc00)

def isLowSurrogate (n : Nat) : Bool := decide (0xdc00 ≤ n) && decide (n < 0xe000)

/-- The code point that two surrogates stand for. -/
def ofSurrogates (high low : Nat) : Nat := 0x10000 + (high - 0xd800) * 0x400 + (low - 0xdc00)

/-- What stands behind a backslash. No character has the code point of a surrogate, so a surrogate
says nothing on its own. -/
inductive IsEscape : List Char → Char → List Char → Prop where
  | short {e c : Char} {r : List Char} (h : shortEscape? e = some c) : IsEscape (e :: r) c r
  | unit {c : Char} {s r : List Char} (h : IsCodeUnit s c.toNat r) : IsEscape ('u' :: s) c r
  | pair {c : Char} {s t r : List Char} {high low : Nat} (hh : IsCodeUnit s high ('\\' :: 'u' :: t))
      (hl : IsCodeUnit t low r) (hhigh : isHighSurrogate high) (hlow : isLowSurrogate low)
      (hc : c.toNat = ofSurrogates high low) : IsEscape ('u' :: s) c r

/-- The characters of a string up to its closing quote. -/
inductive IsCharacters : List Char → List Char → List Char → Prop where
  | nil {r : List Char} : IsCharacters ('"' :: r) [] r
  | plain {c : Char} {s cs r : List Char} (hcontrol : 32 ≤ c.toNat) (hquote : c ≠ '"')
      (hbackslash : c ≠ '\\') (h : IsCharacters s cs r) : IsCharacters (c :: s) (c :: cs) r
  | escape {c : Char} {s s₁ cs r : List Char} (hc : IsEscape s c s₁) (h : IsCharacters s₁ cs r) :
    IsCharacters ('\\' :: s) (c :: cs) r

inductive IsString : List Char → String → List Char → Prop where
  | intro {s cs r : List Char} (h : IsCharacters s cs r) :
    IsString ('"' :: s) (String.ofList cs) r

/-! ## Values -/

mutual

inductive IsValue : List Char → Document → List Char → Prop where
  | null {r : List Char} : IsValue ('n' :: 'u' :: 'l' :: 'l' :: r) .null r
  | true {r : List Char} : IsValue ('t' :: 'r' :: 'u' :: 'e' :: r) (.bool true) r
  | false {r : List Char} : IsValue ('f' :: 'a' :: 'l' :: 's' :: 'e' :: r) (.bool false) r
  | number {s r : List Char} {q : Rat} (h : IsNumber s q r) : IsValue s (.number q) r
  | string {s r : List Char} {t : String} (h : IsString s t r) : IsValue s (.string t) r
  | emptyArray {s r : List Char} (h : IsBlanks s (']' :: r)) : IsValue ('[' :: s) (.array []) r
  | array {s r : List Char} {ds : List Document} (h : IsElements s ds (']' :: r)) :
    IsValue ('[' :: s) (.array ds) r
  | emptyObject {s r : List Char} (h : IsBlanks s ('\x7d' :: r)) :
    IsValue ('\x7b' :: s) (.object []) r
  | object {s r : List Char} {ms : List (String × Document)} (h : IsMembers s ms ('\x7d' :: r)) :
    IsValue ('\x7b' :: s) (.object ms) r

/-- A value with blanks around it. -/
inductive IsElement : List Char → Document → List Char → Prop where
  | intro {s s₁ s₂ r : List Char} {d : Document} (hs : IsBlanks s s₁) (h : IsValue s₁ d s₂)
      (hr : IsBlanks s₂ r) : IsElement s d r

inductive IsElements : List Char → List Document → List Char → Prop where
  | last {s r : List Char} {d : Document} (h : IsElement s d r) : IsElements s [d] r
  | cons {s t r : List Char} {d : Document} {ds : List Document} (h : IsElement s d (',' :: t))
      (hs : IsElements t ds r) : IsElements s (d :: ds) r

/-- A name and a value, with a colon between them. -/
inductive IsMember : List Char → String × Document → List Char → Prop where
  | intro {s s₁ s₂ t r : List Char} {name : String} {d : Document} (hs : IsBlanks s s₁)
      (hname : IsString s₁ name s₂) (hcolon : IsBlanks s₂ (':' :: t)) (h : IsElement t d r) :
    IsMember s (name, d) r

inductive IsMembers : List Char → List (String × Document) → List Char → Prop where
  | last {s r : List Char} {m : String × Document} (h : IsMember s m r) : IsMembers s [m] r
  | cons {s t r : List Char} {m : String × Document} {ms : List (String × Document)}
      (h : IsMember s m (',' :: t)) (hs : IsMembers t ms r) : IsMembers s (m :: ms) r

end

/-- The whole text is JSON, and says this. -/
def IsText (text : String) (d : Document) : Prop := IsElement text.toList d []

end Document

end ShapeMatch
