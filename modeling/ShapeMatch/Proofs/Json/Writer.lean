import ShapeMatch.Json.Basic
import ShapeMatch.Proofs.Json.Grammar
import Mathlib.Data.List.Forall2

/-!
# Proofs: what is written is JSON

What is written of a JSON text without doubles says by the grammar what the JSON says
(`Json.isText_text`). A piece is written in front of any rest, and the induction is on the JSON.
-/

namespace ShapeMatch

open Document

/-- What a JSON text says before it is written, if it has no doubles in it. -/
inductive Json.Says : Json → Document → Prop where
  | null : Says .null .null
  | bool (b : Bool) : Says (.bool b) (.bool b)
  | whole (n : Int) : Says (.whole n) (.number n)
  | string (s : String) : Says (.string s) (.string s)
  | array {items : List Json} {ds : List Document} (h : List.Forall₂ Says items ds) :
    Says (.array items) (.array ds)
  | object {fields : List (String × Json)} {ms : List (String × Document)}
      (hnames : fields.map Prod.fst = ms.map Prod.fst)
      (h : List.Forall₂ Says (fields.map Prod.snd) (ms.map Prod.snd)) :
    Says (.object fields) (.object ms)

namespace Document

variable {s r : List Char}

/-! ## Numbers -/

theorem isNumeral_digitsOf (n : Nat) : IsNumeral (String.ofList (Decimal.digitsOf n)) := by
  have htext : String.ofList (Decimal.digitsOf n) = toString n := by
    rw [← String.toList_inj, String.toList_ofList, toList_toString, Decimal.digitsOf]
  rw [htext]
  exact isNumeral_toString n

theorem isDigits_append {ds : List Char} (hn : IsNumeral (String.ofList ds)) (r : List Char) :
    IsDigits (ds ++ r) ds r := by
  have hdigit := hn.isDigit
  have hne := hn.ne_nil
  rw [String.toList_ofList] at hdigit hne
  exact .intro hne hdigit

/-- Digits without a point behind them. -/
theorem IsExponent.isMagnitude {ds : List Char} {e : Int} (he : IsExponent s e r)
    (hn : IsNumeral (String.ofList ds)) : IsMagnitude (ds ++ s) ((natOf ds : Rat) * 10 ^ e) r := by
  have h := IsMagnitude.intro (isDigits_append hn s) hn .none he
  rwa [Rat.add_zero] at h

theorem isMagnitude_digitsOf (n : Nat) (r : List Char) :
    IsMagnitude (Decimal.digitsOf n ++ r) n r := by
  have hvalue : natOf (Decimal.digitsOf n) = n := Nat.ofDigitChars_ten_toDigits
  have h := IsExponent.none.isMagnitude (r := r) (isNumeral_digitsOf n)
  rwa [hvalue, Rat.zpow_zero, Rat.mul_one] at h

theorem isNumber_writeWhole (n : Int) (r : List Char) : IsNumber (Json.writeWhole n ++ r) n r := by
  have hmagnitude := isMagnitude_digitsOf n.natAbs r
  unfold Json.writeWhole
  split
  · have habs : (n : Rat) = -((n.natAbs : Nat) : Rat) := by
      rw [← Rat.intCast_natCast, ← Rat.intCast_neg]
      congr 1
      omega
    rw [habs]
    exact .minus hmagnitude
  · have habs : (n : Rat) = ((n.natAbs : Nat) : Rat) := by
      rw [← Rat.intCast_natCast]
      congr 1
      omega
    rw [habs]
    exact .plus hmagnitude

/-! ## Strings -/

theorem hexValue?_hexDigit : ∀ n < 16, hexValue? (Json.hexDigit n) = some n := by
  decide

theorem isEscape_of_control {c : Char} (hc : c.toNat < 32) (r : List Char) :
    IsEscape ('u' :: '0' :: '0' :: Json.hexDigit (c.toNat / 16) ::
      Json.hexDigit (c.toNat % 16) :: r) c r := by
  have hzero : hexValue? '0' = some 0 := by decide
  have hhigh := hexValue?_hexDigit (c.toNat / 16) (by omega)
  have hlow := hexValue?_hexDigit (c.toNat % 16) (by omega)
  have hsum : ((0 * 16 + 0) * 16 + c.toNat / 16) * 16 + c.toNat % 16 = c.toNat := by omega
  have hunit := IsCodeUnit.intro (r := r) hzero hzero hhigh hlow
  rw [hsum] at hunit
  exact .unit hunit

/-- A character, escaped or not, in front of others. -/
theorem IsCharacters.escapeChar {cs : List Char} (h : IsCharacters s cs r) (c : Char) :
    IsCharacters (Json.escapeChar c ++ s) (c :: cs) r := by
  unfold Json.escapeChar
  split
  case h_8 =>
    rename_i hquote hbackslash _ _ _ _ _
    split
    · rename_i hcontrol
      exact .escape (isEscape_of_control hcontrol s) h
    · rename_i hcontrol
      exact .plain (by omega) hquote hbackslash h
  all_goals exact .escape (.short rfl) h

theorem isCharacters_flatMap (cs r : List Char) :
    IsCharacters (cs.flatMap Json.escapeChar ++ '"' :: r) cs r := by
  induction cs with
  | nil => exact .nil
  | cons c cs ih =>
    rw [List.flatMap_cons, List.append_assoc]
    exact ih.escapeChar c

theorem isString_writeString (s : String) (r : List Char) :
    IsString (Json.writeString s r) s r := by
  have h := IsString.intro (isCharacters_flatMap s.toList r)
  rwa [String.ofList_toList] at h

/-! ## Values -/

theorem IsValue.isElement {d : Document} (h : IsValue s d r) : IsElement s d r :=
  .intro .nil h .nil

end Document

namespace Json

variable {j : Json} {r : List Char}

/-- What is written of the JSON says what it says. -/
def IsWritten (j : Json) : Prop :=
  ∀ (d : Document) (r : List Char), Says j d → IsValue (j.write r) d r

theorem isElements_write {items : List Json} {ds : List Document}
    (hwritten : ∀ i ∈ j :: items, i.IsWritten) (h : List.Forall₂ Says (j :: items) ds) :
    IsElements (j.write (writeItems items r)) ds (']' :: r) := by
  induction items generalizing j ds with
  | nil =>
    cases h with
    | @cons _ d _ _ hj hnil =>
      cases hnil
      exact .last (hwritten j List.mem_cons_self d _ hj).isElement
  | cons i items ih =>
    cases h with
    | @cons _ d _ _ hj hrest =>
      have hitems := ih (fun k hk => hwritten k (List.mem_cons_of_mem _ hk)) hrest
      exact .cons (hwritten j List.mem_cons_self d _ hj).isElement hitems

theorem isMembers_write {k : String} {fields : List (String × Json)}
    {ms : List (String × Document)} (hwritten : ∀ f ∈ (k, j) :: fields, f.2.IsWritten)
    (hnames : ((k, j) :: fields).map Prod.fst = ms.map Prod.fst)
    (h : List.Forall₂ Says (((k, j) :: fields).map Prod.snd) (ms.map Prod.snd)) :
    IsMembers (writeString k (':' :: j.write (writeFields fields r))) ms ('\x7d' :: r) := by
  induction fields generalizing k j ms with
  | nil =>
    rcases ms with _ | ⟨⟨name, d⟩, ms⟩
    · contradiction
    · obtain ⟨rfl, hnil⟩ := List.cons.inj hnames
      obtain rfl := List.map_eq_nil_iff.1 hnil.symm
      cases h with
      | cons hj _ =>
        have hvalue := hwritten _ List.mem_cons_self d ('\x7d' :: r) hj
        exact .last (.intro .nil (isString_writeString k _) .nil hvalue.isElement)
  | cons f fields ih =>
    obtain ⟨k', j'⟩ := f
    rcases ms with _ | ⟨⟨name, d⟩, ms⟩
    · contradiction
    · obtain ⟨rfl, hrestNames⟩ := List.cons.inj hnames
      cases h with
      | cons hj hrest =>
        have hvalue := hwritten _ List.mem_cons_self d (writeFields ((k', j') :: fields) r) hj
        have hfields := ih (fun f hf => hwritten f (List.mem_cons_of_mem _ hf)) hrestNames hrest
        exact .cons (.intro .nil (isString_writeString k _) .nil hvalue.isElement) hfields

theorem isWritten_array {items : List Json} (hwritten : ∀ i ∈ items, i.IsWritten) :
    (array items).IsWritten := by
  intro d r h
  cases h with
  | array h =>
    cases h with
    | nil => exact .emptyArray .nil
    | cons hj hrest => exact .array (isElements_write hwritten (.cons hj hrest))

theorem isWritten_object {fields : List (String × Json)} (hwritten : ∀ f ∈ fields, f.2.IsWritten) :
    (object fields).IsWritten := by
  intro d r h
  cases h with
  | object hnames h =>
    rcases fields with _ | ⟨⟨k, j⟩, fields⟩
    · obtain rfl := List.map_eq_nil_iff.1 hnames.symm
      exact .emptyObject .nil
    · exact .object (isMembers_write hwritten hnames h)

theorem isWritten (j : Json) : j.IsWritten := by
  cases j with
  | null =>
    intro d r h
    cases h
    exact .null
  | bool b =>
    intro d r h
    cases h
    cases b with
    | true => exact .true
    | false => exact .false
  | whole n =>
    intro d r h
    cases h
    exact .number (isNumber_writeWhole n r)
  | double x =>
    intro d r h
    contradiction
  | string s =>
    intro d r h
    cases h
    exact .string (isString_writeString s r)
  | array items =>
    refine isWritten_array fun i hi => ?_
    have hlt := List.sizeOf_lt_of_mem hi
    exact i.isWritten
  | object fields =>
    refine isWritten_object fun ⟨k, i⟩ hf => ?_
    have hlt : sizeOf i < sizeOf fields := by
      have hpair := List.sizeOf_lt_of_mem hf
      simp only [Prod.mk.sizeOf_spec] at hpair
      omega
    exact i.isWritten
termination_by sizeOf j

/-- The text of JSON without doubles says what the JSON says. -/
theorem isText_text {d : Document} (h : Says j d) : IsText j.text d := by
  rw [IsText, text, String.toList_ofList]
  exact (j.isWritten d [] h).isElement

end Json

end ShapeMatch
