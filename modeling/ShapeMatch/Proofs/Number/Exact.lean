import ShapeMatch.Proofs.Number.Whole
import Mathlib.Algebra.Order.Field.Rat
import Mathlib.Algebra.Order.Group.Unbundled.Int
import Mathlib.Tactic.Linarith

/-!
# Proofs: what a double is worth

A finite double is worth a fraction whose denominator is a power of two (`Double.value`). It is
converted to a whole number exactly if that is what it is worth (`Double.toInt?_eq_some_iff`).
-/

namespace ShapeMatch

/-! ## Numbers with a sign -/

/-- A number without a sign, and the sign. -/
def signed (negative : Bool) (q : Rat) : Rat := if negative then -q else q

theorem abs_signed (negative : Bool) {q : Rat} (hq : 0 ≤ q) : |signed negative q| = q := by
  unfold signed
  split
  · rw [abs_neg, abs_of_nonneg hq]
  · rw [abs_of_nonneg hq]

theorem signed_inj {negative : Bool} {p q : Rat} :
    signed negative p = signed negative q ↔ p = q := by
  unfold signed
  split
  · exact neg_inj
  · exact Iff.rfl

theorem abs_signed_sub_signed (negative : Bool) (p q : Rat) :
    |signed negative p - signed negative q| = |p - q| := by
  unfold signed
  split
  · rw [neg_sub_neg, abs_sub_comm]
  · rfl

/-- Numbers of different signs are as far apart as they are from zero together. -/
theorem abs_signed_sub_signed_of_ne {b c : Bool} (hne : b ≠ c) {p q : Rat} (hp : 0 ≤ p)
    (hq : 0 ≤ q) : |signed b p - signed c q| = p + q := by
  cases b <;> cases c
  · contradiction
  · show |p - -q| = p + q
    rw [sub_neg_eq_add, abs_of_nonneg (by linarith)]
  · show |-p - q| = p + q
    rw [← neg_add', abs_neg, abs_of_nonneg (by linarith)]
  · contradiction

namespace Double

variable {x : Double} {n : Int}

/-! ## Worth -/

theorem unitsPerOne_pos : 0 < unitsPerOne := pow2_pos 1074

theorem cast_unitsPerOne_pos : (0 : Rat) < unitsPerOne := Nat.cast_pos.2 unitsPerOne_pos

/-- What a finite double is worth without its sign. -/
def magnitude (x : Double) : Rat := x.units / unitsPerOne

/-- What a finite double is worth. -/
def value (x : Double) : Rat := signed x.negative x.magnitude

theorem magnitude_nonneg (x : Double) : 0 ≤ x.magnitude :=
  div_nonneg (Nat.cast_nonneg _) cast_unitsPerOne_pos.le

theorem abs_value (x : Double) : |x.value| = x.magnitude := abs_signed _ x.magnitude_nonneg

theorem magnitude_of_units_eq {k : Nat} (h : x.units = k * unitsPerOne) : x.magnitude = k := by
  rw [magnitude, h, Nat.cast_mul, mul_div_cancel_right₀ _ cast_unitsPerOne_pos.ne']

theorem value_of_units_eq {k : Nat} (h : x.units = k * unitsPerOne) :
    x.value = ((if x.negative then -(k : Int) else k : Int) : Rat) := by
  rw [value, magnitude_of_units_eq h, signed]
  split
  · rw [Int.cast_neg, Int.cast_natCast]
  · rw [Int.cast_natCast]

theorem units_of_value_eq (h : x.value = n) : x.units = n.natAbs * unitsPerOne := by
  have habs := x.abs_value
  rw [h, magnitude, eq_div_iff cast_unitsPerOne_pos.ne', ← Int.cast_abs, Int.abs_eq_natAbs] at habs
  exact_mod_cast habs.symm

/-- A double is converted to the whole number that it is worth. -/
theorem toInt?_eq_some_iff (hx : x.isFinite) : x.toInt? = some n ↔ x.value = n := by
  have hinj {k : Nat} (hk : x.units = k * unitsPerOne) :
      x.toInt? = some (if x.negative then -(k : Int) else k) := by
    have hwhole : (x.units % unitsPerOne == 0) = true := by
      rw [hk, Nat.mul_mod_left]
      rfl
    rw [toInt?, hx, hwhole, hk, Nat.mul_div_cancel _ unitsPerOne_pos]
    rfl
  constructor
  · intro h
    have hmod : x.units % unitsPerOne = 0 := by
      by_contra hne
      rw [toInt?, beq_false_of_ne hne, Bool.and_false] at h
      contradiction
    have hk := (Nat.div_mul_cancel (Nat.dvd_of_mod_eq_zero hmod)).symm
    rw [hinj hk] at h
    rw [value_of_units_eq hk, Option.some.inj h]
  · intro h
    have hk := units_of_value_eq h
    have hn := value_of_units_eq hk
    rw [hinj hk, ← Int.cast_injective (h.symm.trans hn)]

end Double

end ShapeMatch
