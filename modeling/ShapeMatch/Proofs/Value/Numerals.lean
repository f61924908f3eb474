import ShapeMatch.Value.Property
import Mathlib.Data.List.Induction

/-!
# Proofs: numerals of positions

Reading the numeral of a number gives the number back. Hence a text is the key of a position in an
array exactly if it is the numeral of that position (`position?_eq_some_iff`), and the property under
the numeral is the element there (`Value.property?_toString`).

A numeral is also told by its form (`IsNumeral`): digits of which the first is no zero, or a zero alone.
Writing the number that such digits stand for gives the digits back, by induction from the last digit
(`toDigits_ofDigitChars`), so the texts of this form are the numerals of numbers
(`isNumeral_iff`).
-/

namespace ShapeMatch

/-! ## Reading numerals -/

theorem toList_toString (n : Nat) : (toString n).toList = Nat.toDigits 10 n := by
  rw [Nat.toString_eq_repr, Nat.toList_repr]

theorem isDigit_of_mem_toDigits {n : Nat} : ∀ c ∈ Nat.toDigits 10 n, c.isDigit := by
  intro c hc
  exact Nat.isDigit_of_mem_toDigits (by decide) (by decide) hc

theorem readDigits?_of_isDigit {cs : List Char} (h : ∀ c ∈ cs, c.isDigit) (hne : cs ≠ []) :
    readDigits? cs = some (Nat.ofDigitChars 10 cs 0) := by
  have hread : ∀ n, cs.foldlM (fun n c => (digit? c).map (10 * n + ·)) n =
      some (Nat.ofDigitChars 10 cs n) := by
    clear hne
    induction cs with
    | nil => exact fun _ => rfl
    | cons c cs ih =>
      intro n
      have hc : digit? c = some (c.toNat - '0'.toNat) := if_pos (h c List.mem_cons_self)
      rw [List.foldlM_cons, hc, Nat.ofDigitChars_cons]
      exact ih (fun d hd => h d (List.mem_cons_of_mem c hd)) _
  rw [readDigits?, if_neg (by simpa using hne), hread]

/-- Digits are read without a sign. -/
theorem readNumber?_of_isDigit {cs : List Char} (h : ∀ c ∈ cs, c.isDigit) (hne : cs ≠ []) :
    readNumber? cs = some (Nat.ofDigitChars 10 cs 0) := by
  unfold readNumber?
  split
  · have hplus : '+'.isDigit := h '+' List.mem_cons_self
    contradiction
  · exact readDigits?_of_isDigit h hne

theorem readNumber?_toString (n : Nat) : readNumber? (toString n).toList = some n := by
  rw [toList_toString, readNumber?_of_isDigit isDigit_of_mem_toDigits Nat.toDigits_ne_nil,
    Nat.ofDigitChars_ten_toDigits]

theorem toString_inj {m n : Nat} : toString m = toString n ↔ m = n := by
  constructor
  · intro h
    have hread := readNumber?_toString m
    rw [h, readNumber?_toString] at hread
    exact (Option.some.inj hread).symm
  · rintro rfl
    rfl

/-- The name of the length is no numeral. -/
theorem toString_ne_length (n : Nat) : toString n ≠ "length" := by
  intro h
  have hread := readNumber?_toString n
  rw [h] at hread
  contradiction

/-- The key of a position is its numeral. -/
theorem position?_eq_some_iff {key : String} {size i : Nat} :
    position? key size = some i ↔ i < size ∧ toString i = key := by
  constructor
  · intro h
    obtain ⟨j, -, hj⟩ := Option.bind_eq_some_iff.1 h
    split at hj
    · rename_i hkey
      obtain rfl := Option.some.inj hj
      exact hkey
    · contradiction
  · rintro ⟨hi, rfl⟩
    rw [position?, readNumber?_toString]
    exact if_pos ⟨hi, rfl⟩

example : readNumber? "+01".toList = some 1 ∧ position? "+01" 2 = none := by decide

/-! ## The form of a numeral -/

/-- The text has the form of a numeral: digits of which the first is no zero, or a zero alone. -/
structure IsNumeral (text : String) : Prop where
  isDigit : ∀ c ∈ text.toList, c.isDigit
  ne_nil : text.toList ≠ []
  zero_alone : text.toList.head? = some '0' → text.toList = ['0']

instance (text : String) : Decidable (IsNumeral text) :=
  decidable_of_iff (text.toList.all Char.isDigit ∧ text.toList ≠ [] ∧
      (text.toList.head? = some '0' → text.toList = ['0']))
    ⟨fun h => ⟨List.all_eq_true.1 h.1, h.2.1, h.2.2⟩,
      fun h => ⟨List.all_eq_true.2 h.isDigit, h.ne_nil, h.zero_alone⟩⟩

theorem head?_toDigits_ne_zero {n : Nat} (hn : n ≠ 0) : (Nat.toDigits 10 n).head? ≠ some '0' := by
  induction n using Nat.base_induction 10 (by decide) with
  | single m hm =>
    rw [Nat.toDigits_of_lt_base hm, List.head?_cons]
    simpa using hn
  | digit m k hk hm ih =>
    rw [← Nat.toDigits_append_toDigits (by decide) hm hk, List.head?_append]
    cases hhead : (Nat.toDigits 10 m).head? with
    | none =>
      rw [List.head?_eq_none_iff] at hhead
      exact absurd hhead Nat.toDigits_ne_nil
    | some c =>
      rw [Option.some_or, ← hhead]
      exact ih (by omega)

theorem isNumeral_toString (n : Nat) : IsNumeral (toString n) := by
  constructor
  · rw [toList_toString]
    exact isDigit_of_mem_toDigits
  · rw [toList_toString]
    exact Nat.toDigits_ne_nil
  · rw [toList_toString]
    intro hhead
    by_cases hn : n = 0
    · subst hn
      exact Nat.toDigits_zero 10
    · exact absurd hhead (head?_toDigits_ne_zero hn)

/-- A digit is the one of its value. -/
theorem digitChar_of_isDigit {c : Char} (h : c.isDigit) :
    c.toNat - '0'.toNat < 10 ∧ (c.toNat - '0'.toNat).digitChar = c := by
  have hzero : '0'.toNat = 48 := rfl
  have hnine : '9'.toNat = 57 := rfl
  obtain ⟨hlow, hhigh⟩ := Char.isDigit_iff_toNat.1 h
  have hlt : c.toNat - '0'.toNat < 10 := by omega
  refine ⟨hlt, Char.toNat_inj.1 ?_⟩
  rw [Nat.toNat_digitChar_of_lt_ten hlt]
  omega

/-- Digits without a leading zero are those of the number that they stand for. -/
theorem toDigits_ofDigitChars {ds : List Char} (hdigit : ∀ c ∈ ds, c.isDigit) (hne : ds ≠ [])
    (hzero : ds.head? = some '0' → ds = ['0']) :
    Nat.toDigits 10 (Nat.ofDigitChars 10 ds 0) = ds := by
  induction ds using List.reverseRecOn with
  | nil => exact absurd rfl hne
  | append_singleton ds c ih =>
    obtain ⟨hlt, hc⟩ := digitChar_of_isDigit (hdigit c (by simp))
    have hlast : Nat.toDigits 10 (c.toNat - '0'.toNat) = [c] := by
      rw [Nat.toDigits_of_lt_base hlt, hc]
    rw [Nat.ofDigitChars_append, Nat.ofDigitChars_cons, Nat.ofDigitChars_nil]
    by_cases hds : ds = []
    · subst hds
      rw [Nat.ofDigitChars_nil, Nat.mul_zero, Nat.zero_add, hlast, List.nil_append]
    · -- With a digit after it, the first one cannot be a zero.
      have hhead : ds.head? ≠ some '0' := by
        intro h
        have hall := hzero (by rw [List.head?_append, h, Option.some_or])
        have hlength := congrArg List.length hall
        rw [List.length_append] at hlength
        have hpos := List.length_pos_iff.2 hds
        simp only [List.length_singleton] at hlength
        omega
      have hinit : Nat.toDigits 10 (Nat.ofDigitChars 10 ds 0) = ds :=
        ih (fun d hd => hdigit d (List.mem_append_left _ hd)) hds fun h => absurd h hhead
      have hpos : 0 < Nat.ofDigitChars 10 ds 0 := by
        rw [Nat.pos_iff_ne_zero]
        intro h
        rw [h, Nat.toDigits_zero] at hinit
        rw [← hinit] at hhead
        exact hhead rfl
      rw [← Nat.toDigits_append_toDigits (by decide) hpos hlt, hinit, hlast]

/-- A text has the form of a numeral exactly if it is the numeral of the number that it stands for. -/
theorem isNumeral_iff {text : String} :
    IsNumeral text ↔ toString (Nat.ofDigitChars 10 text.toList 0) = text := by
  constructor
  · intro h
    have hdigits := toDigits_ofDigitChars h.isDigit h.ne_nil h.zero_alone
    rw [← String.toList_inj, toList_toString, hdigits]
  · intro h
    exact h ▸ isNumeral_toString _

/-! ## The properties of an array -/

namespace Value

variable {r : Ref} {items : Array Value} {i : Nat}

theorem property?_toString (r : Ref) (items : Array Value) (i : Nat) :
    (array r items).property? (toString i) = items[i]? := by
  rw [property?, if_neg (toString_ne_length i)]
  by_cases hi : i < items.size
  · rw [position?_eq_some_iff.2 ⟨hi, rfl⟩, Option.bind_some]
  · have hnone : position? (toString i) items.size = none := by
      rw [Option.eq_none_iff_forall_ne_some]
      intro j hj
      obtain ⟨hlt, heq⟩ := position?_eq_some_iff.1 hj
      rw [toString_inj] at heq
      omega
    rw [hnone, Option.bind_none, Array.getElem?_eq_none (by omega)]

theorem hasProperty_toString (hi : i < items.size) :
    (array r items).hasProperty (toString i) = true := by
  rw [hasProperty, position?_eq_some_iff.2 ⟨hi, rfl⟩, Option.isSome_some, Bool.or_true]

end Value

end ShapeMatch
