import ShapeMatch.Proofs.Json.Grammar
import Mathlib.Data.List.TakeWhile

/-!
# Proofs: reading JSON

The reader takes a piece from the front of a text and leaves the rest. It goes by the next character,
takes all digits there are, and has as much fuel as the text is long, since every step takes at least
one character. What it reads is what the grammar finds in the text (`Document.isText_of_read`).
-/

namespace ShapeMatch.Document

/-! ## Numbers -/

def skipBlanks (s : List Char) : List Char := s.dropWhile isBlank

def readDigits (s : List Char) : Option (List Char × List Char) :=
  if (s.takeWhile Char.isDigit).isEmpty then none
  else some (s.takeWhile Char.isDigit, s.dropWhile Char.isDigit)

def readFraction : List Char → Option (Rat × List Char)
  | '.' :: s => (readDigits s).map fun (ds, r) => (natOf ds / 10 ^ ds.length, r)
  | s => some (0, s)

/-- The exponent behind its letter. -/
def readSigned : List Char → Option (Int × List Char)
  | '-' :: s => (readDigits s).map fun (ds, r) => (-(natOf ds : Int), r)
  | '+' :: s => (readDigits s).map fun (ds, r) => ((natOf ds : Int), r)
  | s => (readDigits s).map fun (ds, r) => ((natOf ds : Int), r)

def readExponent : List Char → Option (Int × List Char)
  | [] => some (0, [])
  | c :: s => if c = 'e' ∨ c = 'E' then readSigned s else some (0, c :: s)

def readMagnitude (s : List Char) : Option (Rat × List Char) := do
  let (ds, s) ← readDigits s
  if IsNumeral (String.ofList ds) then
    let (f, s) ← readFraction s
    let (e, r) ← readExponent s
    return ((natOf ds + f) * 10 ^ e, r)
  else none

def readNumber : List Char → Option (Rat × List Char)
  | '-' :: s => (readMagnitude s).map fun (q, r) => (-q, r)
  | s => readMagnitude s

/-! ## Strings -/

def readCodeUnit : List Char → Option (Nat × List Char)
  | a :: b :: c :: d :: r => do
    let i ← hexValue? a
    let j ← hexValue? b
    let k ← hexValue? c
    let l ← hexValue? d
    return (((i * 16 + j) * 16 + k) * 16 + l, r)
  | _ => none

def charOf? (n : Nat) : Option Char := if n.isValidChar then some (Char.ofNat n) else none

/-- The second one of two surrogates, and the character that they stand for. -/
def readLow (high : Nat) : List Char → Option (Char × List Char)
  | '\\' :: 'u' :: s => do
    let (low, r) ← readCodeUnit s
    if isLowSurrogate low then (charOf? (ofSurrogates high low)).map (·, r) else none
  | _ => none

def readEscape : List Char → Option (Char × List Char)
  | [] => none
  | 'u' :: s => do
    let (n, r) ← readCodeUnit s
    if isHighSurrogate n then readLow n r else (charOf? n).map (·, r)
  | e :: r => (shortEscape? e).map (·, r)

def readCharacters : Nat → List Char → Option (List Char × List Char)
  | 0, _ => none
  | _ + 1, [] => none
  | _ + 1, '"' :: r => some ([], r)
  | fuel + 1, '\\' :: s => do
    let (c, s) ← readEscape s
    (readCharacters fuel s).map fun (cs, r) => (c :: cs, r)
  | fuel + 1, c :: s =>
    if c.toNat < 32 then none
    else (readCharacters fuel s).map fun (cs, r) => (c :: cs, r)

def readString : List Char → Option (String × List Char)
  | '"' :: s => (readCharacters s.length s).map fun (cs, r) => (String.ofList cs, r)
  | _ => none

/-! ## Values -/

def readLiteral : List Char → Option (Document × List Char)
  | 'n' :: 'u' :: 'l' :: 'l' :: r => some (.null, r)
  | 't' :: 'r' :: 'u' :: 'e' :: r => some (.bool true, r)
  | 'f' :: 'a' :: 'l' :: 's' :: 'e' :: r => some (.bool false, r)
  | _ => none

/-- A value without anything inside it. -/
def readScalar (s : List Char) : Option (Document × List Char) :=
  (readLiteral s).or <| ((readString s).map fun (t, r) => (.string t, r)).or <|
    (readNumber s).map fun (q, r) => (.number q, r)

mutual

def readValue : Nat → List Char → Option (Document × List Char)
  | 0, _ => none
  | fuel + 1, '[' :: s =>
    match skipBlanks s with
    | ']' :: r => some (.array [], r)
    | _ => (readElements fuel s).map fun (ds, r) => (.array ds, r)
  | fuel + 1, '\x7b' :: s =>
    match skipBlanks s with
    | '\x7d' :: r => some (.object [], r)
    | _ => (readMembers fuel s).map fun (ms, r) => (.object ms, r)
  | _ + 1, s => readScalar s

/-- The elements of an array up to the closing bracket. -/
def readElements : Nat → List Char → Option (List Document × List Char)
  | 0, _ => none
  | fuel + 1, s => do
    let (d, s) ← readValue fuel (skipBlanks s)
    match skipBlanks s with
    | ',' :: s => (readElements fuel s).map fun (ds, r) => (d :: ds, r)
    | ']' :: r => some ([d], r)
    | _ => none

/-- The members of an object up to the closing brace. -/
def readMembers : Nat → List Char → Option (List (String × Document) × List Char)
  | 0, _ => none
  | fuel + 1, s => do
    let (name, s) ← readString (skipBlanks s)
    match skipBlanks s with
    | ':' :: s => do
      let (d, s) ← readValue fuel (skipBlanks s)
      match skipBlanks s with
      | ',' :: s => (readMembers fuel s).map fun (ms, r) => ((name, d) :: ms, r)
      | '\x7d' :: r => some ([(name, d)], r)
      | _ => none
    | _ => none

end

/-- What a JSON text says, if it is one. -/
def read (text : String) : Option Document := do
  let (d, r) ← readValue text.toList.length (skipBlanks text.toList)
  if (skipBlanks r).isEmpty then some d else none

/-! ## What is read is in the text -/

theorem isBlanks_skipBlanks (s : List Char) : IsBlanks s (skipBlanks s) := by
  induction s with
  | nil => exact .nil
  | cons c s ih =>
    rw [skipBlanks, List.dropWhile_cons]
    split
    · rename_i hc
      exact .cons hc ih
    · exact .nil

theorem isDigits_of_read {s ds r : List Char} (h : readDigits s = some (ds, r)) :
    IsDigits s ds r := by
  unfold readDigits at h
  split at h
  · contradiction
  · rename_i hne
    obtain ⟨rfl, rfl⟩ := Prod.mk.inj (Option.some.inj h)
    have hsplit := List.takeWhile_append_dropWhile (p := Char.isDigit) (l := s)
    rw [List.isEmpty_iff] at hne
    have hdigits := IsDigits.intro (r := s.dropWhile Char.isDigit) hne fun c hc =>
      List.mem_takeWhile_imp hc
    rwa [hsplit] at hdigits

theorem isFraction_of_read {s r : List Char} {f : Rat} (h : readFraction s = some (f, r)) :
    IsFraction s f r := by
  unfold readFraction at h
  split at h
  · obtain ⟨⟨ds, t⟩, hds, heq⟩ := Option.map_eq_some_iff.1 h
    obtain ⟨rfl, rfl⟩ := Prod.mk.inj heq
    exact .digits (isDigits_of_read hds)
  · obtain ⟨rfl, rfl⟩ := Prod.mk.inj (Option.some.inj h)
    exact .none

theorem isExponent_of_readSigned {s r : List Char} {e : Int} {c : Char} (hc : c = 'e' ∨ c = 'E')
    (h : readSigned s = some (e, r)) : IsExponent (c :: s) e r := by
  unfold readSigned at h
  split at h
  all_goals
    obtain ⟨⟨ds, t⟩, hds, heq⟩ := Option.map_eq_some_iff.1 h
    obtain ⟨rfl, rfl⟩ := Prod.mk.inj heq
  · exact .minus hc (isDigits_of_read hds)
  · exact .plus hc (isDigits_of_read hds)
  · exact .bare hc (isDigits_of_read hds)

theorem isExponent_of_read {s r : List Char} {e : Int} (h : readExponent s = some (e, r)) :
    IsExponent s e r := by
  unfold readExponent at h
  split at h
  · obtain ⟨rfl, rfl⟩ := Prod.mk.inj (Option.some.inj h)
    exact .none
  · split at h
    · rename_i hc
      exact isExponent_of_readSigned hc h
    · obtain ⟨rfl, rfl⟩ := Prod.mk.inj (Option.some.inj h)
      exact .none

theorem isMagnitude_of_read {s r : List Char} {q : Rat} (h : readMagnitude s = some (q, r)) :
    IsMagnitude s q r := by
  obtain ⟨⟨ds, s₁⟩, hds, h⟩ := Option.bind_eq_some_iff.1 h
  dsimp only at h
  split at h
  · rename_i hn
    obtain ⟨⟨f, s₂⟩, hf, h⟩ := Option.bind_eq_some_iff.1 h
    obtain ⟨⟨e, r'⟩, he, h⟩ := Option.bind_eq_some_iff.1 h
    obtain ⟨rfl, rfl⟩ := Prod.mk.inj (Option.some.inj h)
    exact .intro (isDigits_of_read hds) hn (isFraction_of_read hf) (isExponent_of_read he)
  · contradiction

theorem isNumber_of_read {s r : List Char} {q : Rat} (h : readNumber s = some (q, r)) :
    IsNumber s q r := by
  unfold readNumber at h
  split at h
  · obtain ⟨⟨p, t⟩, hp, heq⟩ := Option.map_eq_some_iff.1 h
    obtain ⟨rfl, rfl⟩ := Prod.mk.inj heq
    exact .minus (isMagnitude_of_read hp)
  · exact .plus (isMagnitude_of_read h)

theorem isCodeUnit_of_read {s r : List Char} {n : Nat} (h : readCodeUnit s = some (n, r)) :
    IsCodeUnit s n r := by
  unfold readCodeUnit at h
  split at h
  · obtain ⟨i, hi, h⟩ := Option.bind_eq_some_iff.1 h
    obtain ⟨j, hj, h⟩ := Option.bind_eq_some_iff.1 h
    obtain ⟨k, hk, h⟩ := Option.bind_eq_some_iff.1 h
    obtain ⟨l, hl, h⟩ := Option.bind_eq_some_iff.1 h
    obtain ⟨rfl, rfl⟩ := Prod.mk.inj (Option.some.inj h)
    exact .intro hi hj hk hl
  · contradiction

theorem charOf?_eq_some_iff {n : Nat} {c : Char} : charOf? n = some c ↔ c.toNat = n := by
  unfold charOf?
  constructor
  · intro h
    split at h
    · rename_i hn
      obtain rfl := Option.some.inj h
      exact congrArg Char.toNat (dif_pos hn)
    · contradiction
  · rintro rfl
    have hvalid : c.toNat.isValidChar := c.valid
    rw [if_pos hvalid, Char.ofNat_toNat]

theorem isEscape_of_readLow {s t r : List Char} {high : Nat} {c : Char}
    (hs : IsCodeUnit s high t) (hhigh : isHighSurrogate high)
    (h : readLow high t = some (c, r)) : IsEscape ('u' :: s) c r := by
  unfold readLow at h
  split at h
  · obtain ⟨⟨low, t'⟩, hl, h⟩ := Option.bind_eq_some_iff.1 h
    dsimp only at h
    split at h
    · rename_i hlow
      obtain ⟨c', hc, heq⟩ := Option.map_eq_some_iff.1 h
      obtain ⟨rfl, rfl⟩ := Prod.mk.inj heq
      exact .pair hs (isCodeUnit_of_read hl) hhigh hlow (charOf?_eq_some_iff.1 hc)
    · contradiction
  · contradiction

theorem isEscape_of_read {s r : List Char} {c : Char} (h : readEscape s = some (c, r)) :
    IsEscape s c r := by
  unfold readEscape at h
  split at h
  · contradiction
  · obtain ⟨⟨n, t⟩, hn, h⟩ := Option.bind_eq_some_iff.1 h
    have hunit := isCodeUnit_of_read hn
    dsimp only at h
    split at h
    · rename_i hhigh
      exact isEscape_of_readLow hunit hhigh h
    · obtain ⟨c', hc, heq⟩ := Option.map_eq_some_iff.1 h
      obtain ⟨rfl, rfl⟩ := Prod.mk.inj heq
      obtain rfl := charOf?_eq_some_iff.1 hc
      exact .unit hunit
  · obtain ⟨c', hc, heq⟩ := Option.map_eq_some_iff.1 h
    obtain ⟨rfl, rfl⟩ := Prod.mk.inj heq
    exact .short hc

theorem isCharacters_of_read {fuel : Nat} {s cs r : List Char}
    (h : readCharacters fuel s = some (cs, r)) : IsCharacters s cs r := by
  fun_induction readCharacters fuel s generalizing cs r with
  | case1 | case2 => contradiction
  | case3 =>
    obtain ⟨rfl, rfl⟩ := Prod.mk.inj (Option.some.inj h)
    exact .nil
  | case4 fuel s ih =>
    obtain ⟨⟨c, s₁⟩, hc, h⟩ := Option.bind_eq_some_iff.1 h
    obtain ⟨⟨cs', r'⟩, hcs, heq⟩ := Option.map_eq_some_iff.1 h
    obtain ⟨rfl, rfl⟩ := Prod.mk.inj heq
    exact .escape (isEscape_of_read hc) (ih _ hcs)
  | case5 => contradiction
  | case6 fuel c s hquote hbackslash hcontrol ih =>
    obtain ⟨⟨cs', r'⟩, hcs, heq⟩ := Option.map_eq_some_iff.1 h
    obtain ⟨rfl, rfl⟩ := Prod.mk.inj heq
    exact .plain (by omega) hquote hbackslash (ih hcs)

theorem isString_of_read {s r : List Char} {t : String} (h : readString s = some (t, r)) :
    IsString s t r := by
  unfold readString at h
  split at h
  · obtain ⟨⟨cs, r'⟩, hcs, heq⟩ := Option.map_eq_some_iff.1 h
    obtain ⟨rfl, rfl⟩ := Prod.mk.inj heq
    exact .intro (isCharacters_of_read hcs)
  · contradiction

theorem isValue_of_readLiteral {s r : List Char} {d : Document}
    (h : readLiteral s = some (d, r)) : IsValue s d r := by
  unfold readLiteral at h
  split at h
  · obtain ⟨rfl, rfl⟩ := Prod.mk.inj (Option.some.inj h)
    exact .null
  · obtain ⟨rfl, rfl⟩ := Prod.mk.inj (Option.some.inj h)
    exact .true
  · obtain ⟨rfl, rfl⟩ := Prod.mk.inj (Option.some.inj h)
    exact .false
  · contradiction

theorem isValue_of_readScalar {s r : List Char} {d : Document} (h : readScalar s = some (d, r)) :
    IsValue s d r := by
  rcases Option.or_eq_some_iff.1 h with h | ⟨-, h⟩
  · exact isValue_of_readLiteral h
  · rcases Option.or_eq_some_iff.1 h with h | ⟨-, h⟩
    · obtain ⟨⟨t, r'⟩, ht, heq⟩ := Option.map_eq_some_iff.1 h
      obtain ⟨rfl, rfl⟩ := Prod.mk.inj heq
      exact .string (isString_of_read ht)
    · obtain ⟨⟨q, r'⟩, hq, heq⟩ := Option.map_eq_some_iff.1 h
      obtain ⟨rfl, rfl⟩ := Prod.mk.inj heq
      exact .number (isNumber_of_read hq)

/-- What is read with so much fuel is in the text. -/
structure SoundAt (fuel : Nat) : Prop where
  value {s r : List Char} {d : Document} (h : readValue fuel s = some (d, r)) : IsValue s d r
  elements {s r : List Char} {ds : List Document} (h : readElements fuel s = some (ds, r)) :
    IsElements s ds (']' :: r)
  members {s r : List Char} {ms : List (String × Document)}
    (h : readMembers fuel s = some (ms, r)) : IsMembers s ms ('\x7d' :: r)

theorem SoundAt.zero : SoundAt 0 where
  value h := by
    rw [readValue] at h
    contradiction
  elements h := by
    rw [readElements] at h
    contradiction
  members h := by
    rw [readMembers] at h
    contradiction

/-- An element up to the punctuation behind it. -/
theorem SoundAt.element {fuel : Nat} (hsound : SoundAt fuel) {s r t : List Char} {d : Document}
    (h : readValue fuel (skipBlanks s) = some (d, r)) (ht : skipBlanks r = t) :
    IsElement s d t :=
  .intro (isBlanks_skipBlanks s) (hsound.value h) (ht ▸ isBlanks_skipBlanks r)

theorem SoundAt.succ {fuel : Nat} (hsound : SoundAt fuel) : SoundAt (fuel + 1) where
  value {s r d} h := by
    unfold readValue at h
    split at h
    · contradiction
    · rename_i n s' heqn
      obtain rfl := Nat.succ.inj heqn
      have hblanks := isBlanks_skipBlanks s'
      split at h
      · rename_i hs
        obtain ⟨rfl, rfl⟩ := Prod.mk.inj (Option.some.inj h)
        exact .emptyArray (hs ▸ hblanks)
      · obtain ⟨⟨ds, r'⟩, hds, heq⟩ := Option.map_eq_some_iff.1 h
        obtain ⟨rfl, rfl⟩ := Prod.mk.inj heq
        exact .array (hsound.elements hds)
    · rename_i n s' heqn
      obtain rfl := Nat.succ.inj heqn
      have hblanks := isBlanks_skipBlanks s'
      split at h
      · rename_i hs
        obtain ⟨rfl, rfl⟩ := Prod.mk.inj (Option.some.inj h)
        exact .emptyObject (hs ▸ hblanks)
      · obtain ⟨⟨ms, r'⟩, hms, heq⟩ := Option.map_eq_some_iff.1 h
        obtain ⟨rfl, rfl⟩ := Prod.mk.inj heq
        exact .object (hsound.members hms)
    · exact isValue_of_readScalar h
  elements {s r ds} h := by
    rw [readElements] at h
    obtain ⟨⟨d, s₁⟩, hd, h⟩ := Option.bind_eq_some_iff.1 h
    dsimp only at h
    split at h
    · rename_i hs
      obtain ⟨⟨ds', r'⟩, hds, heq⟩ := Option.map_eq_some_iff.1 h
      obtain ⟨rfl, rfl⟩ := Prod.mk.inj heq
      exact .cons (hsound.element hd hs) (hsound.elements hds)
    · rename_i hs
      obtain ⟨rfl, rfl⟩ := Prod.mk.inj (Option.some.inj h)
      exact .last (hsound.element hd hs)
    · contradiction
  members {s r ms} h := by
    rw [readMembers] at h
    obtain ⟨⟨name, s₁⟩, hname, h⟩ := Option.bind_eq_some_iff.1 h
    dsimp only at h
    split at h
    · rename_i s₂ hs₂
      obtain ⟨⟨d, s₃⟩, hd, h⟩ := Option.bind_eq_some_iff.1 h
      have hmember {t : List Char} (ht : skipBlanks s₃ = t) : IsMember s (name, d) t :=
        .intro (isBlanks_skipBlanks s) (isString_of_read hname) (hs₂ ▸ isBlanks_skipBlanks s₁)
          (hsound.element hd ht)
      dsimp only at h
      split at h
      · rename_i hs
        obtain ⟨⟨ms', r'⟩, hms, heq⟩ := Option.map_eq_some_iff.1 h
        obtain ⟨rfl, rfl⟩ := Prod.mk.inj heq
        exact .cons (hmember hs) (hsound.members hms)
      · rename_i hs
        obtain ⟨rfl, rfl⟩ := Prod.mk.inj (Option.some.inj h)
        exact .last (hmember hs)
      · contradiction
    · contradiction

theorem soundAt (fuel : Nat) : SoundAt fuel := by
  induction fuel with
  | zero => exact .zero
  | succ fuel ih => exact ih.succ

/-- What is read from a text is what the text says by the grammar. -/
theorem isText_of_read {text : String} {d : Document} (h : read text = some d) : IsText text d := by
  obtain ⟨⟨d', r⟩, hd, h⟩ := Option.bind_eq_some_iff.1 h
  dsimp only at h
  split at h
  · rename_i hr
    obtain rfl := Option.some.inj h
    exact (soundAt _).element hd (List.isEmpty_iff.1 hr)
  · contradiction

end ShapeMatch.Document
