import ShapeMatch.Number.Layout
import ShapeMatch.Proofs.Value.Numerals
import Mathlib.Algebra.Order.Field.Power
import Mathlib.Algebra.Order.Field.Rat
import Mathlib.Data.List.DropRight
import Mathlib.Tactic.Linarith
import Mathlib.Tactic.Ring

/-!
# Proofs: decimals

A decimal is worth the number of its digits, shifted by a power of ten (`Decimal.value`). A normal
decimal has no needless zeros at either end, as those that are made of a number have not
(`Decimal.isNormal_ofNat`). It is known by its worth (`Decimal.eq_of_value_eq`), which also tells how
large it is (`Decimal.magnitude_eq_iff`).
-/

namespace ShapeMatch

namespace Decimal

variable {d e : Decimal}

/-- The digits, read as a whole number. -/
def number (d : Decimal) : Nat := Nat.ofDigitChars 10 d.digits 0

/-- What a decimal is worth. -/
def value (d : Decimal) : Rat := d.number * 10 ^ (d.point - d.digits.length)

/-- The decimal has digits, and neither the first one nor the last one is a zero. -/
structure IsNormal (d : Decimal) : Prop where
  isDigit : ∀ c ∈ d.digits, c.isDigit
  ne_nil : d.digits ≠ []
  head_ne : d.digits.head? ≠ some '0'
  last_ne : d.digits.getLast? ≠ some '0'

/-! ## The digits of a normal decimal -/

theorem IsNormal.toDigits_number (hd : d.IsNormal) : Nat.toDigits 10 d.number = d.digits :=
  toDigits_ofDigitChars hd.isDigit hd.ne_nil fun h => absurd h hd.head_ne

theorem IsNormal.number_pos (hd : d.IsNormal) : 0 < d.number := by
  rw [Nat.pos_iff_ne_zero]
  intro h
  have hdigits := hd.toDigits_number
  rw [h, Nat.toDigits_zero] at hdigits
  exact hd.head_ne (by rw [← hdigits, List.head?_cons])

theorem IsNormal.number_lt (hd : d.IsNormal) : d.number < 10 ^ d.digits.length := by
  have hle : (Nat.toDigits 10 d.number).length ≤ d.digits.length := by rw [hd.toDigits_number]
  exact (Nat.length_toDigits_le_iff (by decide) (List.length_pos_iff.2 hd.ne_nil)).1 hle

/-- A number is not below the power of ten of its first digit. -/
theorem pow_length_le {n : Nat} (hn : 0 < n) : 10 ^ ((Nat.toDigits 10 n).length - 1) ≤ n := by
  by_cases hone : (Nat.toDigits 10 n).length - 1 = 0
  · rw [hone]
    exact hn
  · by_contra hlt
    have hle := (Nat.length_toDigits_le_iff (by decide : 1 < 10) (Nat.pos_of_ne_zero hone)).2
      (Nat.lt_of_not_le hlt)
    omega

theorem IsNormal.le_number (hd : d.IsNormal) : 10 ^ (d.digits.length - 1) ≤ d.number := by
  have hle := pow_length_le hd.number_pos
  rwa [hd.toDigits_number] at hle

/-- The last digit is no zero, so ten is no divisor. -/
theorem IsNormal.number_mod_ten (hd : d.IsNormal) : d.number % 10 ≠ 0 := by
  obtain ⟨ds, c, hds⟩ := (List.eq_nil_or_concat d.digits).resolve_left hd.ne_nil
  rw [List.concat_eq_append] at hds
  have hlast : c ≠ '0' := by
    rintro rfl
    exact hd.last_ne (by rw [hds, List.getLast?_concat])
  obtain ⟨hlt, hc⟩ := digitChar_of_isDigit (hd.isDigit c (by simp [hds]))
  have hpos : c.toNat - '0'.toNat ≠ 0 := by
    intro h
    rw [h] at hc
    exact hlast hc.symm
  rw [number, hds, Nat.ofDigitChars_append, Nat.ofDigitChars_cons, Nat.ofDigitChars_nil]
  omega

/-! ## Worth -/

theorem ten_zpow_pos (k : Int) : (0 : Rat) < 10 ^ k := zpow_pos (by norm_num) k

theorem IsNormal.value_pos (hd : d.IsNormal) : 0 < d.value :=
  mul_pos (Nat.cast_pos.2 hd.number_pos) (ten_zpow_pos _)

/-- Of two notations for one number, the one with the smaller power of ten shows a number of tens. -/
theorem mod_ten_of_lt {m n : Nat} {j k : Int} (h : (m * 10 ^ j : Rat) = n * 10 ^ k) (hjk : j < k) :
    m % 10 = 0 := by
  obtain ⟨i, hi⟩ := Int.le.dest hjk
  have hk : k = j + ((i + 1 : Nat) : Int) := by omega
  have hcast : (m : Rat) = n * 10 ^ (i + 1) := by
    rw [hk, zpow_add₀ (by norm_num), zpow_natCast, mul_left_comm, mul_comm (m : Rat)] at h
    exact mul_left_cancel₀ (ten_zpow_pos j).ne' h
  have hnat : m = n * 10 ^ (i + 1) := by exact_mod_cast hcast
  rw [hnat, Nat.pow_succ, ← Nat.mul_assoc, Nat.mul_mod_left]

/-- A normal decimal is known by its worth. -/
theorem IsNormal.eq_of_value_eq (hd : d.IsNormal) (he : e.IsNormal) (h : d.value = e.value) :
    d = e := by
  have hexponent : d.point - d.digits.length = e.point - e.digits.length := by
    rcases Int.lt_trichotomy (d.point - d.digits.length) (e.point - e.digits.length) with
      hlt | heq | hgt
    · exact absurd (mod_ten_of_lt h hlt) hd.number_mod_ten
    · exact heq
    · exact absurd (mod_ten_of_lt h.symm hgt) he.number_mod_ten
  have hnumber : d.number = e.number := by
    rw [value, value, hexponent] at h
    exact_mod_cast mul_right_cancel₀ (ten_zpow_pos _).ne' h
  have hdigits : d.digits = e.digits := by
    rw [← hd.toDigits_number, hnumber, he.toDigits_number]
  obtain ⟨ds, p⟩ := d
  obtain ⟨es, q⟩ := e
  obtain rfl : ds = es := hdigits
  congr 1
  dsimp only at hexponent
  omega

theorem IsNormal.value_lt (hd : d.IsNormal) : d.value < 10 ^ (d.magnitude + 1) := by
  have hlt : (d.number : Rat) < 10 ^ d.digits.length := by exact_mod_cast hd.number_lt
  have hexponent : d.magnitude + 1 = d.digits.length + (d.point - d.digits.length) := by
    rw [magnitude]
    omega
  rw [value, hexponent, zpow_add₀ (by norm_num), zpow_natCast]
  exact mul_lt_mul_of_pos_right hlt (ten_zpow_pos _)

theorem IsNormal.le_value (hd : d.IsNormal) : 10 ^ d.magnitude ≤ d.value := by
  have hle : (10 : Rat) ^ (d.digits.length - 1) ≤ d.number := by exact_mod_cast hd.le_number
  have hexponent : d.magnitude = ((d.digits.length - 1 : Nat) : Int) +
      (d.point - d.digits.length) := by
    have hpos := List.length_pos_iff.2 hd.ne_nil
    rw [magnitude]
    omega
  rw [value, hexponent, zpow_add₀ (by norm_num), zpow_natCast]
  exact mul_le_mul_of_nonneg_right hle (ten_zpow_pos _).le

/-- How large a decimal is can be told by its worth. -/
theorem IsNormal.magnitude_eq_iff (hd : d.IsNormal) {m : Int} :
    d.magnitude = m ↔ 10 ^ m ≤ d.value ∧ d.value < 10 ^ (m + 1) := by
  constructor
  · rintro rfl
    exact ⟨hd.le_value, hd.value_lt⟩
  · rintro ⟨hle, hlt⟩
    have hm := (zpow_lt_zpow_iff_right₀ (by norm_num)).1 (lt_of_le_of_lt hle hd.value_lt)
    have hm' := (zpow_lt_zpow_iff_right₀ (by norm_num)).1 (lt_of_le_of_lt hd.le_value hlt)
    omega

/-! ## Decimals of numbers -/

theorem exists_zeros (n : Nat) (p : Int) :
    ∃ k, Nat.toDigits 10 n = (ofNat n p).digits ++ List.replicate k '0' := by
  have hsplit := List.rdropWhile_append_rtakeWhile (p := (· == '0')) (l := Nat.toDigits 10 n)
  have hzeros : ∀ c ∈ (Nat.toDigits 10 n).rtakeWhile (· == '0'), c = '0' := by
    intro c hc
    have hzero := List.mem_rtakeWhile_imp hc
    exact beq_iff_eq.1 hzero
  rw [List.eq_replicate_of_mem hzeros] at hsplit
  exact ⟨_, hsplit.symm⟩

theorem value_ofNat (n : Nat) (p : Int) : (ofNat n p).value = n * 10 ^ p := by
  obtain ⟨k, hk⟩ := exists_zeros n p
  have hnumber : n = 10 ^ k * (ofNat n p).number := by
    rw [number, ← Nat.ofDigitChars_replicate_zero, ← Nat.ofDigitChars_append, ← hk,
      Nat.ofDigitChars_ten_toDigits]
  have hlength := congrArg List.length hk
  rw [List.length_append, List.length_replicate] at hlength
  have hexponent : (ofNat n p).point - (ofNat n p).digits.length = k + p := by
    show ((Nat.toDigits 10 n).length : Int) + p - _ = _
    omega
  rw [value, hexponent, zpow_add₀ (by norm_num), zpow_natCast]
  conv_rhs => rw [hnumber]
  push_cast
  ring

theorem isNormal_ofNat {n : Nat} (hn : n ≠ 0) (p : Int) : (ofNat n p).IsNormal := by
  obtain ⟨k, hk⟩ := exists_zeros n p
  have hne : (ofNat n p).digits ≠ [] := by
    intro h
    have hzero := Nat.ofDigitChars_ten_toDigits (n := n)
    rw [hk, h, List.nil_append, Nat.ofDigitChars_replicate_zero, Nat.mul_zero] at hzero
    exact hn hzero.symm
  constructor
  · intro c hc
    exact isDigit_of_mem_toDigits c (hk ▸ List.mem_append_left _ hc)
  · exact hne
  · intro h
    refine head?_toDigits_ne_zero hn ?_
    rw [hk, List.head?_append, h, Option.some_or]
  · intro h
    rw [List.getLast?_eq_some_getLast hne, Option.some_inj] at h
    exact List.rdropWhile_last_not (p := (· == '0')) _ hne (beq_iff_eq.2 h)

end Decimal

end ShapeMatch
