import ShapeMatch.Proofs.Json.Unambiguous
import ShapeMatch.Proofs.Json.Writer
import ShapeMatch.Proofs.Number.Decimals
import ShapeMatch.Proofs.Number.Exact
import Mathlib.Tactic.FieldSimp

/-!
# Proofs: numbers that were laid out

In whatever style a normal decimal is written, the text says what it is worth
(`Layout.isMagnitude_write`). The digits on both sides of a point are taken for one number, which is
then shifted.
-/

namespace ShapeMatch

namespace Document

theorem natOf_append (ds fs : List Char) :
    natOf (ds ++ fs) = 10 ^ fs.length * natOf ds + natOf fs := by
  rw [natOf, Nat.ofDigitChars_append, Nat.ofDigitChars_eq_ofDigitChars_zero]
  rfl

theorem natOf_replicate_zero (k : Nat) : natOf (List.replicate k '0') = 0 := by
  rw [natOf, Nat.ofDigitChars_replicate_zero, Nat.mul_zero]

/-- What stands behind the point is as good as digits before it, and a shift. -/
theorem IsExponent.isMagnitude_fraction {ds fs s r : List Char} {e : Int}
    (he : IsExponent s e r) (hn : IsNumeral (String.ofList ds)) (hfs : ∀ c ∈ fs, c.isDigit)
    (hne : fs ≠ []) :
    IsMagnitude (ds ++ '.' :: (fs ++ s)) ((natOf (ds ++ fs) : Rat) * 10 ^ (e - fs.length)) r := by
  have hvalue : (natOf (ds ++ fs) : Rat) * 10 ^ (e - fs.length) =
      (natOf ds + natOf fs / 10 ^ fs.length) * 10 ^ e := by
    rw [natOf_append, zpow_sub₀ (by norm_num), zpow_natCast]
    push_cast
    field_simp
  rw [hvalue]
  exact .intro (isDigits_append hn _) hn (.digits (.intro hne hfs)) he

end Document

namespace Decimal

open Document

variable {d : Decimal}

theorem isNumeral_of_head_ne {ds : List Char} (hdigit : ∀ c ∈ ds, c.isDigit) (hne : ds ≠ [])
    (hhead : ds.head? ≠ some '0') : IsNumeral (String.ofList ds) := by
  constructor
  · rwa [String.toList_ofList]
  · rwa [String.toList_ofList]
  · rw [String.toList_ofList]
    exact fun h => absurd h hhead

/-- The decimal lies below one. -/
theorem IsNormal.isMagnitude_below (hd : d.IsNormal) (hpoint : d.point ≤ 0) :
    IsMagnitude ('0' :: '.' :: (List.replicate (-d.point).toNat '0' ++ d.digits)) d.value [] := by
  have hdigit : ∀ c ∈ List.replicate (-d.point).toNat '0' ++ d.digits, c.isDigit := by
    intro c hc
    rcases List.mem_append.1 hc with hc | hc
    · rw [List.eq_of_mem_replicate hc]
      rfl
    · exact hd.isDigit c hc
  have hfirst : IsNumeral (String.ofList ['0']) := by decide
  have hmagnitude := IsExponent.none.isMagnitude_fraction (r := []) hfirst hdigit
    (List.append_ne_nil_of_right_ne_nil _ hd.ne_nil)
  have hnumber : natOf (['0'] ++ (List.replicate (-d.point).toNat '0' ++ d.digits)) =
      d.number := by
    have hzero : natOf ['0'] = 0 := natOf_replicate_zero 1
    rw [natOf_append, natOf_append, natOf_replicate_zero, hzero]
    simp only [Nat.mul_zero, Nat.zero_add]
    rfl
  have hexponent : 0 - ((List.replicate (-d.point).toNat '0' ++ d.digits).length : Int) =
      d.point - d.digits.length := by
    rw [List.length_append, List.length_replicate]
    omega
  rwa [hnumber, hexponent, List.append_nil] at hmagnitude

/-- The decimal is a whole number. -/
theorem IsNormal.isMagnitude_whole (hd : d.IsNormal)
    (hpoint : (d.digits.length : Int) ≤ d.point) :
    IsMagnitude (d.digits ++ List.replicate (d.point.toNat - d.digits.length) '0')
      d.value [] := by
  have hdigit : ∀ c ∈ d.digits ++ List.replicate (d.point.toNat - d.digits.length) '0',
      c.isDigit := by
    intro c hc
    rcases List.mem_append.1 hc with hc | hc
    · exact hd.isDigit c hc
    · rw [List.eq_of_mem_replicate hc]
      rfl
  have hhead : (d.digits ++ List.replicate (d.point.toNat - d.digits.length) '0').head? ≠
      some '0' := by
    rw [List.head?_append_of_ne_nil _ hd.ne_nil]
    exact hd.head_ne
  have hmagnitude := IsExponent.none.isMagnitude (r := []) (isNumeral_of_head_ne hdigit
    (List.append_ne_nil_of_left_ne_nil hd.ne_nil _) hhead)
  have hvalue : ((natOf (d.digits ++ List.replicate (d.point.toNat - d.digits.length) '0') : Rat) *
      10 ^ (0 : Int)) = d.value := by
    have hexponent : d.point - d.digits.length =
        ((d.point.toNat - d.digits.length : Nat) : Int) := by
      omega
    rw [natOf_append, natOf_replicate_zero, List.length_replicate, value, hexponent, zpow_natCast]
    push_cast
    rw [mul_one, add_zero, mul_comm]
    rfl
  rwa [hvalue, List.append_nil] at hmagnitude

/-- The point stands among the digits. -/
theorem IsNormal.isMagnitude_among (hd : d.IsNormal) (hpos : 0 < d.point)
    (hpoint : d.point < d.digits.length) :
    IsMagnitude (d.digits.take d.point.toNat ++ '.' :: d.digits.drop d.point.toNat)
      d.value [] := by
  have hne : d.digits.take d.point.toNat ≠ [] := by
    rw [← List.length_pos_iff, List.length_take]
    omega
  have hhead : (d.digits.take d.point.toNat).head? ≠ some '0' := by
    rw [List.head?_take, if_neg (by omega)]
    exact hd.head_ne
  have hrest : d.digits.drop d.point.toNat ≠ [] := by
    rw [← List.length_pos_iff, List.length_drop]
    omega
  have hmagnitude := IsExponent.none.isMagnitude_fraction (r := [])
    (isNumeral_of_head_ne (fun c hc => hd.isDigit c (List.mem_of_mem_take hc)) hne hhead)
    (fun c hc => hd.isDigit c (List.mem_of_mem_drop hc)) hrest
  have hexponent : 0 - ((d.digits.drop d.point.toNat).length : Int) =
      d.point - d.digits.length := by
    rw [List.length_drop]
    omega
  rwa [List.take_append_drop, hexponent, List.append_nil] at hmagnitude

theorem IsNormal.isMagnitude_plain (hd : d.IsNormal) : IsMagnitude d.plain d.value [] := by
  unfold plain
  split
  · rename_i hpoint
    exact hd.isMagnitude_below hpoint
  · dsimp only
    split
    · exact hd.isMagnitude_whole (by omega)
    · exact hd.isMagnitude_among (by omega) (by omega)

theorem isExponent_magnitude (d : Decimal) :
    IsExponent ('e' :: (if d.magnitude < 0 then '-' else '+') :: digitsOf d.magnitude.natAbs)
      d.magnitude [] := by
  have hdigits := isDigits_append (isNumeral_digitsOf d.magnitude.natAbs) []
  have hnumber : natOf (digitsOf d.magnitude.natAbs) = d.magnitude.natAbs :=
    Nat.ofDigitChars_ten_toDigits
  rw [List.append_nil] at hdigits
  split
  · have hexponent := IsExponent.minus (.inl rfl) hdigits
    rwa [hnumber, show -(d.magnitude.natAbs : Int) = d.magnitude by omega] at hexponent
  · have hexponent := IsExponent.plus (.inl rfl) hdigits
    rwa [hnumber, show (d.magnitude.natAbs : Int) = d.magnitude by omega] at hexponent

theorem IsNormal.isMagnitude_scientific (hd : d.IsNormal) :
    IsMagnitude d.scientific d.value [] := by
  obtain ⟨c, rest, hdigits⟩ := List.exists_cons_of_ne_nil hd.ne_nil
  have hexponent := isExponent_magnitude d
  have hfirst : IsNumeral (String.ofList [c]) := by
    refine isNumeral_of_head_ne (fun b hb => ?_) (by simp) ?_
    · exact hd.isDigit b (by simp_all)
    · have hhead := hd.head_ne
      rwa [hdigits] at hhead
  have hvalue : (natOf (c :: rest) : Rat) * 10 ^ (d.magnitude - rest.length) = d.value := by
    have hexponent : d.magnitude - (rest.length : Int) = d.point - d.digits.length := by
      rw [magnitude, hdigits, List.length_cons]
      omega
    rw [value, number, ← hexponent, hdigits]
    rfl
  rw [← hvalue, scientific, hdigits]
  cases rest with
  | nil =>
    rw [List.length_nil, Nat.cast_zero, sub_zero]
    exact hexponent.isMagnitude hfirst
  | cons b rest =>
    have hrest : ∀ a ∈ b :: rest, a.isDigit :=
      fun a ha => hd.isDigit a (hdigits ▸ List.mem_cons_of_mem _ ha)
    exact hexponent.isMagnitude_fraction hfirst hrest (by simp)

/-! ## Styles -/

theorem IsNormal.mem_plain (hd : d.IsNormal) : ∀ c ∈ d.plain, c.isDigit ∨ c = '.' := by
  intro c hc
  have hzeros {k : Nat} (h : c ∈ List.replicate k '0') : c.isDigit := by
    rw [List.eq_of_mem_replicate h]
    rfl
  unfold plain at hc
  split at hc
  · rcases List.mem_cons.1 hc with rfl | hc
    · exact .inl rfl
    · rcases List.mem_cons.1 hc with rfl | hc
      · exact .inr rfl
      · exact .inl ((List.mem_append.1 hc).elim hzeros (hd.isDigit c))
  · dsimp only at hc
    split at hc
    · exact .inl ((List.mem_append.1 hc).elim (hd.isDigit c) hzeros)
    · rcases List.mem_append.1 hc with hc | hc
      · exact .inl (hd.isDigit c (List.mem_of_mem_take hc))
      · rcases List.mem_cons.1 hc with rfl | hc
        · exact .inr rfl
        · exact .inl (hd.isDigit c (List.mem_of_mem_drop hc))

theorem IsNormal.plain_ne_scientific (hd : d.IsNormal) (e : Decimal) : d.plain ≠ e.scientific := by
  intro h
  have hmem : 'e' ∈ e.scientific := List.mem_append_right _ List.mem_cons_self
  rcases hd.mem_plain 'e' (h ▸ hmem) with hdigit | hpoint
  · contradiction
  · contradiction

end Decimal

namespace Layout

open Document

variable {l l' : Layout} {d e : Decimal}

/-- What a normal decimal was written as says what it is worth. -/
theorem isMagnitude_write (l : Layout) (hd : d.IsNormal) :
    IsMagnitude (l.write d) d.value [] := by
  unfold write
  split
  · exact hd.isMagnitude_plain
  · exact hd.isMagnitude_scientific

/-- In this style the decimal is written without an exponent. -/
def IsPlain (l : Layout) (d : Decimal) : Prop :=
  l.plainFrom ≤ d.magnitude ∧ d.magnitude < l.plainBelow

/-- Two styles give one text if they give it to one decimal, and either both of them or none write
that with an exponent. -/
theorem write_eq_write_iff (hd : d.IsNormal) (he : e.IsNormal) :
    l.write d = l'.write e ↔ d = e ∧ (l.IsPlain d ↔ l'.IsPlain d) := by
  constructor
  · intro h
    have hmagnitude := l.isMagnitude_write hd
    rw [h] at hmagnitude
    obtain rfl := hd.eq_of_value_eq he (hmagnitude.unique (l'.isMagnitude_write he))
    refine ⟨rfl, ?_⟩
    unfold write at h
    split at h <;> split at h
    · rename_i hl hl'
      exact iff_of_true hl hl'
    · exact absurd h (hd.plain_ne_scientific d)
    · exact absurd h.symm (hd.plain_ne_scientific d)
    · rename_i hl hl'
      exact iff_of_false hl hl'
  · rintro ⟨rfl, hplain⟩
    exact if_congr hplain rfl rfl

end Layout

namespace Document

/-! ## Signs, and whole texts -/

theorem IsMagnitude.isNumber {s : List Char} {q : Rat} (h : IsMagnitude s q [])
    (negative : Bool) : IsNumber (if negative then '-' :: s else s) (signed negative q) [] := by
  cases negative with
  | true => exact .minus h
  | false => exact .plus h

/-- A text that is a number is a document. -/
theorem IsNumber.isText {s : List Char} {q : Rat} (h : IsNumber s q []) :
    IsText (String.ofList s) (.number q) := by
  rw [IsText, String.toList_ofList]
  exact (IsValue.number h).isElement

end Document

end ShapeMatch
