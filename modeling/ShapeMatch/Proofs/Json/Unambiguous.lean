import ShapeMatch.Proofs.Json.Reader

/-!
# Proofs: the grammar of JSON is unambiguous

By the grammar digits may end anywhere, and then the rest starts with a digit. But in a whole text a
number is followed by something that cannot go on with it, and there the reader finds whatever the
grammar finds, if it has fuel for each character of it. So a text says what is read from it and nothing
else (`Document.isText_iff`).
-/

namespace ShapeMatch.Document

variable {s r ds : List Char}

/-! ## Numbers -/

/-- The text does not go on with a number. -/
def EndsNumber (r : List Char) : Prop :=
  ∀ c ∈ r.head?, c.isDigit = false ∧ c ≠ '.' ∧ c ≠ 'e' ∧ c ≠ 'E'

theorem IsDigits.read (h : IsDigits s ds r) (hr : ∀ c ∈ r.head?, c.isDigit = false) :
    readDigits s = some (ds, r) := by
  have hrest : r.takeWhile Char.isDigit = [] ∧ r.dropWhile Char.isDigit = r := by
    cases r with
    | nil => exact ⟨rfl, rfl⟩
    | cons c r =>
      rw [List.takeWhile_cons, List.dropWhile_cons, hr c rfl, if_neg Bool.false_ne_true,
        if_neg Bool.false_ne_true]
      exact ⟨rfl, rfl⟩
  cases h with
  | intro hne hdigit =>
    rw [readDigits, List.takeWhile_append_of_pos hdigit, List.dropWhile_append_of_pos hdigit,
      hrest.1, hrest.2, List.append_nil, List.isEmpty_eq_false_iff.2 hne,
      if_neg Bool.false_ne_true]

theorem IsDigits.exists_digit (h : IsDigits s ds r) : ∃ c t, s = c :: t ∧ c.isDigit := by
  cases h with
  | intro hne hdigit =>
    obtain ⟨c, t, rfl⟩ := List.exists_cons_of_ne_nil hne
    exact ⟨c, _, rfl, hdigit c List.mem_cons_self⟩

theorem IsFraction.read {f : Rat} (h : IsFraction s f r)
    (hr : ∀ c ∈ r.head?, c.isDigit = false ∧ c ≠ '.') : readFraction s = some (f, r) := by
  cases h with
  | none =>
    unfold readFraction
    split
    · exact absurd rfl (hr '.' rfl).2
    · rfl
  | digits h =>
    rw [readFraction, h.read fun c hc => (hr c hc).1]
    rfl

theorem readSigned_of_isDigits (h : IsDigits s ds r) (hr : EndsNumber r) :
    readSigned s = some ((natOf ds : Int), r) := by
  have hread := h.read fun c hc => (hr c hc).1
  obtain ⟨c, t, rfl, hc⟩ := h.exists_digit
  unfold readSigned
  split
  · rename_i heq
    obtain rfl := (List.cons.inj heq).1
    contradiction
  · rename_i heq
    obtain rfl := (List.cons.inj heq).1
    contradiction
  · rw [hread]
    rfl

theorem IsExponent.read {e : Int} (h : IsExponent s e r) (hr : EndsNumber r) :
    readExponent s = some (e, r) := by
  cases h with
  | none =>
    unfold readExponent
    split
    · rfl
    · rename_i c s
      obtain ⟨-, -, he, hE⟩ := hr c rfl
      rw [if_neg (by simp [he, hE])]
  | bare hc h => rw [readExponent, if_pos hc, readSigned_of_isDigits h hr]
  | plus hc h =>
    rw [readExponent, if_pos hc, readSigned, h.read fun c hc => (hr c hc).1]
    rfl
  | minus hc h =>
    rw [readExponent, if_pos hc, readSigned, h.read fun c hc => (hr c hc).1]
    rfl

theorem IsExponent.head {e : Int} (h : IsExponent s e r) (hr : EndsNumber r) :
    ∀ c ∈ s.head?, c.isDigit = false ∧ c ≠ '.' := by
  have hletter {c : Char} (hc : c = 'e' ∨ c = 'E') : c.isDigit = false ∧ c ≠ '.' := by
    rcases hc with rfl | rfl <;> decide
  cases h with
  | none => exact fun c hc => ⟨(hr c hc).1, (hr c hc).2.1⟩
  | bare hc _ | plus hc _ | minus hc _ =>
    intro b hb
    obtain rfl := Option.some.inj hb
    exact hletter hc

theorem IsFraction.head {f : Rat} (h : IsFraction s f r)
    (hr : ∀ c ∈ r.head?, c.isDigit = false) : ∀ c ∈ s.head?, c.isDigit = false := by
  cases h with
  | none => exact hr
  | digits _ =>
    intro c hc
    obtain rfl := Option.some.inj hc
    rfl

theorem IsMagnitude.read {q : Rat} (h : IsMagnitude s q r) (hr : EndsNumber r) :
    readMagnitude s = some (q, r) := by
  cases h with
  | intro hd hn hf he =>
    have hhead := he.head hr
    have hdigits := hd.read (hf.head fun c hc => (hhead c hc).1)
    simp only [readMagnitude, hdigits, Option.bind_eq_bind, Option.bind_some, if_pos hn,
      hf.read hhead, he.read hr]
    rfl

/-- A whole text is a number in one way only. -/
theorem IsMagnitude.unique {p q : Rat} (hp : IsMagnitude s p []) (hq : IsMagnitude s q []) :
    p = q := by
  have hread := hp.read (by simp [EndsNumber])
  rw [hq.read (by simp [EndsNumber])] at hread
  exact (Prod.mk.inj (Option.some.inj hread)).1.symm

theorem IsMagnitude.exists_digit {q : Rat} (h : IsMagnitude s q r) :
    ∃ c t, s = c :: t ∧ c.isDigit := by
  cases h with
  | intro hd _ _ _ => exact hd.exists_digit

theorem IsNumber.read {q : Rat} (h : IsNumber s q r) (hr : EndsNumber r) :
    readNumber s = some (q, r) := by
  cases h with
  | plus h =>
    have hread := h.read hr
    obtain ⟨c, t, rfl, hc⟩ := h.exists_digit
    unfold readNumber
    split
    · rename_i heq
      obtain rfl := (List.cons.inj heq).1
      contradiction
    · exact hread
  | minus h =>
    rw [readNumber, h.read hr]
    rfl

/-! ## Strings -/

theorem IsCodeUnit.read {n : Nat} (h : IsCodeUnit s n r) : readCodeUnit s = some (n, r) := by
  cases h with
  | intro ha hb hc hd =>
    simp only [readCodeUnit, ha, hb, hc, hd, Option.bind_eq_bind, Option.bind_some]
    rfl

theorem isHighSurrogate_toNat (c : Char) : isHighSurrogate c.toNat = false := by
  have hvalid : c.toNat < 0xd800 ∨ 0xdfff < c.toNat ∧ c.toNat < 0x110000 := c.valid
  rw [isHighSurrogate, Bool.and_eq_false_iff, decide_eq_false_iff_not, decide_eq_false_iff_not]
  omega

theorem IsEscape.read {c : Char} (h : IsEscape s c r) : readEscape s = some (c, r) := by
  cases h with
  | short h =>
    unfold readEscape
    split
    · contradiction
    · rename_i heq
      obtain rfl := (List.cons.inj heq).1
      contradiction
    · rename_i heq
      obtain ⟨rfl, rfl⟩ := List.cons.inj heq
      rw [h]
      rfl
  | unit h =>
    simp only [readEscape, h.read, Option.bind_eq_bind, Option.bind_some, isHighSurrogate_toNat,
      charOf?_eq_some_iff.2 rfl]
    rfl
  | pair hh hl hhigh hlow hc =>
    simp only [readEscape, hh.read, Option.bind_eq_bind, Option.bind_some, if_pos hhigh, readLow,
      hl.read, if_pos hlow, charOf?_eq_some_iff.2 hc]
    rfl

theorem IsCodeUnit.length_lt {n : Nat} (h : IsCodeUnit s n r) : r.length < s.length := by
  cases h
  simp only [List.length_cons]
  omega

theorem IsEscape.length_lt {c : Char} (h : IsEscape s c r) : r.length < s.length := by
  cases h with
  | short h => exact Nat.lt_succ_self _
  | unit h => exact Nat.lt_succ_of_lt h.length_lt
  | pair hh hl _ _ _ =>
    have hhigh := hh.length_lt
    have hlow := hl.length_lt
    simp only [List.length_cons] at hhigh ⊢
    omega

theorem IsCharacters.length_lt {cs : List Char} (h : IsCharacters s cs r) :
    r.length < s.length := by
  induction h with
  | nil => exact Nat.lt_succ_self _
  | plain _ _ _ _ ih => exact Nat.lt_succ_of_lt ih
  | escape hc _ ih => exact Nat.lt_succ_of_lt (Nat.lt_trans ih hc.length_lt)

theorem IsCharacters.read {cs : List Char} {fuel : Nat} (h : IsCharacters s cs r)
    (hfuel : s.length ≤ fuel + r.length) : readCharacters fuel s = some (cs, r) := by
  induction h generalizing fuel with
  | nil =>
    cases fuel with
    | zero =>
      rw [List.length_cons] at hfuel
      omega
    | succ fuel => rfl
  | plain hcontrol hquote hbackslash h ih =>
    have hlength := h.length_lt
    cases fuel with
    | zero =>
      rw [List.length_cons] at hfuel
      omega
    | succ fuel =>
      rw [readCharacters, if_neg (by omega), ih (by rw [List.length_cons] at hfuel; omega)]
      · rfl
      · exact hquote
      · exact hbackslash
  | escape hc h ih =>
    have hlength := h.length_lt
    have hescape := hc.length_lt
    rw [List.length_cons] at hfuel
    cases fuel with
    | zero => omega
    | succ fuel =>
      rw [readCharacters, hc.read]
      show (readCharacters fuel _).map _ = _
      rw [ih (by omega)]
      rfl

theorem IsString.read {t : String} (h : IsString s t r) : readString s = some (t, r) := by
  cases h with
  | intro h =>
    rw [readString, h.read (Nat.le_add_right _ _)]
    rfl

theorem IsString.length_lt {t : String} (h : IsString s t r) : r.length < s.length := by
  cases h with
  | intro h => exact Nat.lt_succ_of_lt h.length_lt

/-! ## How much is taken -/

theorem IsBlanks.length_le (h : IsBlanks s r) : r.length ≤ s.length := by
  induction h with
  | nil => exact Nat.le_refl _
  | cons _ _ ih => exact Nat.le_succ_of_le ih

theorem IsDigits.length_lt (h : IsDigits s ds r) : r.length < s.length := by
  cases h with
  | intro hne _ =>
    have hpos := List.length_pos_iff.2 hne
    rw [List.length_append]
    omega

theorem IsFraction.length_le {f : Rat} (h : IsFraction s f r) : r.length ≤ s.length := by
  cases h with
  | none => exact Nat.le_refl _
  | digits h => exact Nat.le_succ_of_le h.length_lt.le

theorem IsExponent.length_le {e : Int} (h : IsExponent s e r) : r.length ≤ s.length := by
  cases h with
  | none => exact Nat.le_refl _
  | bare _ h => exact Nat.le_succ_of_le h.length_lt.le
  | plus _ h | minus _ h => exact Nat.le_succ_of_le (Nat.le_succ_of_le h.length_lt.le)

theorem IsNumber.length_lt {q : Rat} (h : IsNumber s q r) : r.length < s.length := by
  have hmagnitude {s : List Char} {q : Rat} (h : IsMagnitude s q r) : r.length < s.length := by
    cases h with
    | intro hd _ hf he =>
      exact Nat.lt_of_le_of_lt (Nat.le_trans he.length_le hf.length_le) hd.length_lt
  cases h with
  | plus h => exact hmagnitude h
  | minus h => exact Nat.lt_succ_of_lt (hmagnitude h)

mutual

/-- A value takes at least one character. -/
theorem IsValue.length_lt {s r : List Char} {d : Document} : IsValue s d r → r.length < s.length
  | .null | .true | .false => by
    simp only [List.length_cons]
    omega
  | .number h => h.length_lt
  | .string h => h.length_lt
  | .emptyArray h | .emptyObject h => by
    have hle := h.length_le
    rw [List.length_cons] at hle ⊢
    omega
  | .array h => by
    have hlt := IsElements.length_lt h
    rw [List.length_cons] at hlt ⊢
    omega
  | .object h => by
    have hlt := IsMembers.length_lt h
    rw [List.length_cons] at hlt ⊢
    omega

theorem IsElement.length_lt {s r : List Char} {d : Document} :
    IsElement s d r → r.length < s.length
  | .intro hs h hr =>
    Nat.lt_of_le_of_lt hr.length_le (Nat.lt_of_lt_of_le (IsValue.length_lt h) hs.length_le)

theorem IsElements.length_lt {s r : List Char} {ds : List Document} :
    IsElements s ds r → r.length < s.length
  | .last h => IsElement.length_lt h
  | .cons h hs => by
    have hlt := IsElement.length_lt h
    have hrest := IsElements.length_lt hs
    rw [List.length_cons] at hlt
    omega

theorem IsMember.length_lt {s r : List Char} {m : String × Document} :
    IsMember s m r → r.length < s.length
  | .intro hs hname hcolon h => by
    have hvalue := IsElement.length_lt h
    have hblanks := hcolon.length_le
    have hlt := Nat.lt_of_lt_of_le hname.length_lt hs.length_le
    rw [List.length_cons] at hblanks
    omega

theorem IsMembers.length_lt {s r : List Char} {ms : List (String × Document)} :
    IsMembers s ms r → r.length < s.length
  | .last h => IsMember.length_lt h
  | .cons h hs => by
    have hlt := IsMember.length_lt h
    have hrest := IsMembers.length_lt hs
    rw [List.length_cons] at hlt
    omega

end

/-! ## Values -/

theorem IsBlanks.skip (h : IsBlanks s r) (hr : ∀ c ∈ r.head?, isBlank c = false) :
    skipBlanks s = r := by
  induction h with
  | @nil r =>
    cases r with
    | nil => rfl
    | cons c r => rw [skipBlanks, List.dropWhile_cons, hr c rfl, if_neg Bool.false_ne_true]
  | cons hc _ ih =>
    rw [skipBlanks, List.dropWhile_cons, if_pos hc]
    exact ih hr

theorem IsBlanks.endsNumber (h : IsBlanks s r) (hr : EndsNumber r) : EndsNumber s := by
  cases h with
  | nil => exact hr
  | @cons c _ _ hc _ =>
    intro b hb
    obtain rfl := Option.some.inj hb
    simp only [isBlank, Bool.or_eq_true, beq_iff_eq] at hc
    rcases hc with ((rfl | rfl) | rfl) | rfl <;> decide

/-- The text starts with a number. -/
def StartsNumber (s : List Char) : Prop := ∃ c t, s = c :: t ∧ (c = '-' ∨ c.isDigit)

theorem IsNumber.startsNumber {q : Rat} (h : IsNumber s q r) : StartsNumber s := by
  cases h with
  | minus _ => exact ⟨'-', _, rfl, .inl rfl⟩
  | plus h =>
    obtain ⟨c, t, rfl, hc⟩ := h.exists_digit
    exact ⟨c, t, rfl, .inr hc⟩

theorem StartsNumber.ne_cons {t : List Char} {c : Char} (hs : StartsNumber s)
    (hc : c ≠ '-' ∧ c.isDigit = false) : s ≠ c :: t := by
  rintro rfl
  obtain ⟨d, u, heq, hd⟩ := hs
  obtain rfl := (List.cons.inj heq).1
  rcases hd with rfl | hd
  · exact hc.1 rfl
  · rw [hc.2] at hd
    contradiction

theorem readScalar_of_startsNumber (hs : StartsNumber s) :
    readScalar s = (readNumber s).map fun (q, r) => (.number q, r) := by
  have hliteral : readLiteral s = none := by
    unfold readLiteral
    split
    · exact absurd rfl (hs.ne_cons (by decide))
    · exact absurd rfl (hs.ne_cons (by decide))
    · exact absurd rfl (hs.ne_cons (by decide))
    · rfl
  have hstring : readString s = none := by
    unfold readString
    split
    · exact absurd rfl (hs.ne_cons (by decide))
    · rfl
  rw [readScalar, hliteral, hstring]
  rfl

/-- What does not start with a bracket or a brace has nothing inside it. -/
theorem readValue_eq_readScalar (hbracket : ∀ t, s ≠ '[' :: t) (hbrace : ∀ t, s ≠ '\x7b' :: t)
    (n : Nat) : readValue (n + 1) s = readScalar s := by
  rw [readValue]
  · exact hbracket
  · exact hbrace

theorem isBlank_of_isDigit {c : Char} (hc : c.isDigit) : isBlank c = false := by
  rw [isBlank, Bool.eq_false_iff]
  intro hblank
  simp only [Bool.or_eq_true, beq_iff_eq] at hblank
  rcases hblank with ((rfl | rfl) | rfl) | rfl <;> contradiction

/-- A value does not start with a blank or with a bracket that closes an array. -/
theorem IsValue.head {d : Document} (h : IsValue s d r) :
    ∃ c t, s = c :: t ∧ isBlank c = Bool.false ∧ c ≠ ']' := by
  cases h with
  | null => exact ⟨'n', _, rfl, by decide⟩
  | true => exact ⟨'t', _, rfl, by decide⟩
  | false => exact ⟨'f', _, rfl, by decide⟩
  | string h =>
    cases h with
    | intro _ => exact ⟨'"', _, rfl, by decide⟩
  | emptyArray _ | array _ => exact ⟨'[', _, rfl, by decide⟩
  | emptyObject _ | object _ => exact ⟨'\x7b', _, rfl, by decide⟩
  | number h =>
    obtain ⟨c, t, rfl, hc⟩ := h.startsNumber
    refine ⟨c, t, rfl, ?_⟩
    rcases hc with rfl | hc
    · decide
    · refine ⟨isBlank_of_isDigit hc, ?_⟩
      rintro rfl
      contradiction

theorem IsElements.skip {ds : List Document} (h : IsElements s ds r) :
    ∃ c t, skipBlanks s = c :: t ∧ c ≠ ']' := by
  have helement {d : Document} {t : List Char} (h : IsElement s d t) :
      ∃ c t, skipBlanks s = c :: t ∧ c ≠ ']' := by
    cases h with
    | intro hs h _ =>
      obtain ⟨c, u, rfl, hblank, hc⟩ := h.head
      exact ⟨c, u, hs.skip fun b hb => Option.some.inj hb ▸ hblank, hc⟩
  cases h with
  | last h => exact helement h
  | cons h _ => exact helement h

theorem IsMembers.skip {ms : List (String × Document)} (h : IsMembers s ms r) :
    ∃ t, skipBlanks s = '"' :: t := by
  have hmember {m : String × Document} {t : List Char} (h : IsMember s m t) :
      ∃ t, skipBlanks s = '"' :: t := by
    cases h with
    | intro hs hname _ _ =>
      cases hname with
      | intro _ => exact ⟨_, hs.skip fun b hb => Option.some.inj hb ▸ rfl⟩
  cases h with
  | last h => exact hmember h
  | cons h _ => exact hmember h

/-- What stands behind an element. -/
def IsPunctuation (c : Char) : Prop := c = ',' ∨ c = ']' ∨ c = '\x7d'

theorem endsNumber_of_punctuation {c : Char} {t : List Char} (hc : IsPunctuation c) :
    EndsNumber (c :: t) := by
  intro b hb
  obtain rfl := Option.some.inj hb
  rcases hc with rfl | rfl | rfl <;> decide

/-- What the grammar finds is read with so much fuel. -/
structure CompleteAt (fuel : Nat) : Prop where
  value {s r : List Char} {d : Document} (h : IsValue s d r) (hr : EndsNumber r)
    (hfuel : s.length ≤ fuel + r.length) : readValue fuel s = some (d, r)
  elements {s r : List Char} {ds : List Document} (h : IsElements s ds (']' :: r))
    (hfuel : s.length ≤ fuel + r.length) : readElements fuel s = some (ds, r)
  members {s r : List Char} {ms : List (String × Document)} (h : IsMembers s ms ('\x7d' :: r))
    (hfuel : s.length ≤ fuel + r.length) : readMembers fuel s = some (ms, r)

theorem CompleteAt.zero : CompleteAt 0 where
  value h _ hfuel := by
    have hlt := h.length_lt
    omega
  elements h hfuel := by
    have hlt := h.length_lt
    rw [List.length_cons] at hlt
    omega
  members h hfuel := by
    have hlt := h.length_lt
    rw [List.length_cons] at hlt
    omega

/-- An element, up to the character behind it. -/
theorem CompleteAt.element {fuel : Nat} (hcomplete : CompleteAt fuel) {c : Char} {t : List Char}
    {d : Document} (h : IsElement s d (c :: t)) (hc : IsPunctuation c)
    (hfuel : s.length ≤ fuel + (t.length + 1)) :
    ∃ u, readValue fuel (skipBlanks s) = some (d, u) ∧ skipBlanks u = c :: t := by
  have hblank : isBlank c = false := by
    rcases hc with rfl | rfl | rfl <;> rfl
  cases h with
  | @intro _ s₁ s₂ _ _ hs h hr =>
    obtain ⟨b, u, rfl, hb, -⟩ := h.head
    have hskip := hs.skip fun a ha => Option.some.inj ha ▸ hb
    have hbefore := hs.length_le
    have hafter := hr.length_le
    rw [List.length_cons] at hafter
    refine ⟨s₂, ?_, hr.skip fun a ha => Option.some.inj ha ▸ hblank⟩
    rw [hskip]
    exact hcomplete.value h (hr.endsNumber (endsNumber_of_punctuation hc)) (by omega)

/-- A member, up to the character behind it. -/
theorem CompleteAt.member {fuel : Nat} (hcomplete : CompleteAt fuel) {c : Char} {t : List Char}
    {name : String} {d : Document} (h : IsMember s (name, d) (c :: t)) (hc : IsPunctuation c)
    (hfuel : s.length ≤ fuel + (t.length + 1)) :
    ∃ u v w, readString (skipBlanks s) = some (name, u) ∧ skipBlanks u = ':' :: v ∧
      readValue fuel (skipBlanks v) = some (d, w) ∧ skipBlanks w = c :: t := by
  cases h with
  | intro hs hname hcolon h =>
    have hle := hs.length_le
    have hlt := hname.length_lt
    have hbefore := hcolon.length_le
    rw [List.length_cons] at hbefore
    obtain ⟨w, hvalue, hskip⟩ := hcomplete.element h hc (by omega)
    refine ⟨_, _, w, ?_, hcolon.skip fun b hb => Option.some.inj hb ▸ rfl, hvalue, hskip⟩
    have hread := hname.read
    cases hname with
    | intro _ => rwa [hs.skip fun b hb => Option.some.inj hb ▸ rfl]

theorem CompleteAt.succ {fuel : Nat} (hcomplete : CompleteAt fuel) : CompleteAt (fuel + 1) where
  value {s r d} h hr hfuel := by
    cases h with
    | null | true | false => rfl
    | number h =>
      have hs := h.startsNumber
      rw [readValue_eq_readScalar (fun t => hs.ne_cons (by decide))
        (fun t => hs.ne_cons (by decide)), readScalar_of_startsNumber hs, h.read hr]
      rfl
    | string h =>
      have hread := h.read
      cases h with
      | intro h =>
        rw [readValue_eq_readScalar (by simp) (by simp), readScalar, hread]
        rfl
    | emptyArray h =>
      rw [readValue, h.skip fun b hb => Option.some.inj hb ▸ rfl]
      rfl
    | emptyObject h =>
      rw [readValue, h.skip fun b hb => Option.some.inj hb ▸ rfl]
      rfl
    | array h =>
      obtain ⟨c, t, hskip, hc⟩ := h.skip
      rw [List.length_cons] at hfuel
      rw [readValue, hcomplete.elements h (by omega), hskip]
      split
      · rename_i heq
        exact absurd (List.cons.inj heq).1 hc
      · rfl
    | object h =>
      obtain ⟨t, hskip⟩ := h.skip
      rw [List.length_cons] at hfuel
      rw [readValue, hcomplete.members h (by omega), hskip]
      rfl
  elements {s r ds} h hfuel := by
    cases h with
    | last h =>
      obtain ⟨u, hvalue, hskip⟩ := hcomplete.element h (.inr (.inl rfl)) (by omega)
      simp only [readElements, hvalue, hskip, Option.bind_eq_bind, Option.bind_some]
    | cons h hs =>
      have hlt := h.length_lt
      have hrest := hs.length_lt
      rw [List.length_cons] at hlt hrest
      obtain ⟨u, hvalue, hskip⟩ := hcomplete.element h (.inl rfl) (by omega)
      simp only [readElements, hvalue, hskip, hcomplete.elements hs (by omega),
        Option.bind_eq_bind, Option.bind_some, Option.map_some]
  members {s r ms} h hfuel := by
    cases h with
    | last h =>
      obtain ⟨u, v, w, hname, hcolon, hvalue, hskip⟩ :=
        hcomplete.member h (.inr (.inr rfl)) (by omega)
      simp only [readMembers, hname, hcolon, hvalue, hskip, Option.bind_eq_bind, Option.bind_some]
    | cons h hs =>
      have hlt := h.length_lt
      have hrest := hs.length_lt
      rw [List.length_cons] at hlt hrest
      obtain ⟨u, v, w, hname, hcolon, hvalue, hskip⟩ := hcomplete.member h (.inl rfl) (by omega)
      simp only [readMembers, hname, hcolon, hvalue, hskip, hcomplete.members hs (by omega),
        Option.bind_eq_bind, Option.bind_some, Option.map_some]

theorem completeAt (fuel : Nat) : CompleteAt fuel := by
  induction fuel with
  | zero => exact .zero
  | succ fuel ih => exact ih.succ

/-- **The grammar is unambiguous.** A text says what is read from it, and nothing else. -/
theorem isText_iff {text : String} {d : Document} : IsText text d ↔ read text = some d := by
  constructor
  · intro h
    cases h with
    | @intro _ s₁ s₂ _ _ hs h hr =>
      obtain ⟨c, t, rfl, hblank, -⟩ := h.head
      have hends : EndsNumber s₂ := hr.endsNumber (by simp [EndsNumber])
      have hle := hs.length_le
      rw [read, hs.skip fun b hb => Option.some.inj hb ▸ hblank,
        (completeAt _).value h hends (by omega)]
      simp only [Option.bind_eq_bind, Option.bind_some, hr.skip (by simp)]
      rfl
  · exact isText_of_read

end ShapeMatch.Document
