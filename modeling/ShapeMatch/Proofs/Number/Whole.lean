import ShapeMatch.Value.Same
import Mathlib.Algebra.Ring.Nat

/-!
# Proofs: natural numbers as doubles

A natural number below `2 ^ 53` becomes a double by a shift that loses no bit: the exponent of the
double says how wide the number is, and the significand is the number at that width. So no two of
them become the same double. A larger number may be rounded, but its exponent stays above theirs, and
it becomes none of their doubles either (`Double.bitsOfNat_inj`). The double of a number below `2 ^ 53`
is that whole number (`Double.toInt?_ofNat`).
-/

namespace ShapeMatch

theorem pow2_eq (n : Nat) : pow2 n = 2 ^ n := rfl

theorem pow2_pos (n : Nat) : 0 < pow2 n := Nat.two_pow_pos n

namespace Double

variable {m n : Nat}

theorem roundShift_zero (n : Nat) : roundShift n 0 = n := by
  simp [roundShift, pow2_eq, Nat.mod_one]

/-- Rounding goes down to the quotient or up from it. -/
theorem div_le_roundShift (n shift : Nat) : n / 2 ^ shift ≤ roundShift n shift := by
  rw [roundShift, pow2_eq]
  split
  · exact Nat.le_succ _
  · exact Nat.le_refl _

theorem bitsOfNat_le (n : Nat) : bitsOfNat n ≤ infinityBits := by
  rw [bitsOfNat]
  split
  · exact Nat.zero_le _
  · exact Nat.min_le_left _ _

/-- The significand of a number below `2 ^ 53` is the number itself, shifted up to the hidden bit. -/
theorem significand_bounds (h0 : n ≠ 0) (hn : n < 2 ^ 53) :
    2 ^ 52 ≤ n * 2 ^ (52 - n.log2) ∧ n * 2 ^ (52 - n.log2) < 2 ^ 53 := by
  have hlog : n.log2 < 53 := (Nat.log2_lt h0).2 hn
  have hlow : n.log2 + (52 - n.log2) = 52 := by omega
  have hhigh : n.log2 + 1 + (52 - n.log2) = 53 := by omega
  constructor
  · calc 2 ^ 52 = 2 ^ n.log2 * 2 ^ (52 - n.log2) := by rw [← Nat.pow_add, hlow]
      _ ≤ n * 2 ^ (52 - n.log2) := Nat.mul_le_mul_right _ (Nat.log2_self_le h0)
  · calc n * 2 ^ (52 - n.log2) < 2 ^ (n.log2 + 1) * 2 ^ (52 - n.log2) :=
        Nat.mul_lt_mul_of_pos_right Nat.lt_log2_self (Nat.two_pow_pos _)
      _ = 2 ^ 53 := by rw [← Nat.pow_add, hhigh]

theorem bitsOfNat_of_lt (h0 : n ≠ 0) (hn : n < 2 ^ 53) :
    bitsOfNat n = (n.log2 + 1022) * 2 ^ 52 + n * 2 ^ (52 - n.log2) := by
  have hlog : n.log2 < 53 := (Nat.log2_lt h0).2 hn
  obtain ⟨hlow, hhigh⟩ := significand_bounds h0 hn
  have hwidth : 53 - (n.log2 + 1) = 52 - n.log2 := by omega
  have hshift : n.log2 + 1 - 53 = 0 := by omega
  simp only [bitsOfNat, if_neg h0, hwidth, hshift, roundShift_zero, infinityBits, pow2_eq]
  omega

/-- A number from `2 ^ 53` on has a larger exponent than all below. -/
theorem le_bitsOfNat (hn : 2 ^ 53 ≤ n) : 1076 * 2 ^ 52 ≤ bitsOfNat n := by
  have h0 : n ≠ 0 := by omega
  have hlog : 53 ≤ n.log2 := (Nat.le_log2 h0).2 hn
  have hwidth : 53 - (n.log2 + 1) = 0 := by omega
  have hsum : 52 + (n.log2 + 1 - 53) = n.log2 := by omega
  have hsignificand : 2 ^ 52 ≤ roundShift n (n.log2 + 1 - 53) := by
    refine Nat.le_trans ?_ (div_le_roundShift n _)
    rw [Nat.le_div_iff_mul_le (Nat.two_pow_pos _), ← Nat.pow_add, hsum]
    exact Nat.log2_self_le h0
  simp only [bitsOfNat, if_neg h0, hwidth, infinityBits, pow2_eq, Nat.pow_zero, Nat.mul_one]
  omega

/-- No other number becomes the double of a number below `2 ^ 53`. -/
theorem bitsOfNat_inj (hn : n < 2 ^ 53) : bitsOfNat m = bitsOfNat n ↔ m = n := by
  refine ⟨fun h => ?_, fun h => h ▸ rfl⟩
  have hzero : bitsOfNat 0 = 0 := rfl
  by_cases hm : m < 2 ^ 53
  · by_cases hm0 : m = 0 <;> by_cases hn0 : n = 0
    · omega
    · subst hm0
      rw [hzero, bitsOfNat_of_lt hn0 hn] at h
      omega
    · subst hn0
      rw [hzero, bitsOfNat_of_lt hm0 hm] at h
      omega
    · rw [bitsOfNat_of_lt hm0 hm, bitsOfNat_of_lt hn0 hn] at h
      have hm' := significand_bounds hm0 hm
      have hn' := significand_bounds hn0 hn
      -- The significands take up the bits below the exponent, so the exponents are equal first.
      have hlog : m.log2 = n.log2 := by omega
      rw [hlog] at h hm'
      exact Nat.eq_of_mul_eq_mul_right (Nat.two_pow_pos (52 - n.log2)) (by omega)
  · have hlow := le_bitsOfNat (n := m) (by omega)
    by_cases hn0 : n = 0
    · subst hn0
      omega
    · have hlog : n.log2 < 53 := (Nat.log2_lt hn0).2 hn
      have hn' := significand_bounds hn0 hn
      rw [h, bitsOfNat_of_lt hn0 hn] at hlow
      omega

theorem toNat_bits_ofNat (n : Nat) : (ofNat n).bits.toNat = bitsOfNat n := by
  have hle := bitsOfNat_le n
  simp only [infinityBits, pow2_eq] at hle
  have hsign : ¬ (n : Int) < 0 := by omega
  simp only [ofNat, ofInt, Int.natAbs_natCast, if_neg hsign, UInt64.toNat_ofNat']
  omega

theorem unsigned_ofNat (n : Nat) : (ofNat n).unsigned = bitsOfNat n := by
  have hle := bitsOfNat_le n
  simp only [infinityBits, pow2_eq] at hle
  rw [unsigned, toNat_bits_ofNat, pow2_eq, Nat.mod_eq_of_lt (by omega)]

theorem isNaN_ofNat (n : Nat) : (ofNat n).isNaN = false := by
  rw [isNaN, unsigned_ofNat, decide_eq_false_iff_not]
  exact Nat.not_lt.2 (bitsOfNat_le n)

theorem same_ofNat_iff (hn : n < 2 ^ 53) : (ofNat m).same (ofNat n) ↔ m = n := by
  rw [same, isNaN_ofNat, Bool.false_and, Bool.false_or, beq_iff_eq]
  constructor
  · intro h
    rw [← bitsOfNat_inj hn, ← toNat_bits_ofNat, h, toNat_bits_ofNat]
  · intro h
    rw [h]

/-! ## The whole number of a double -/

theorem negative_ofNat (n : Nat) : (ofNat n).negative = false := by
  have hle := bitsOfNat_le n
  simp only [infinityBits, pow2_eq] at hle
  rw [negative, toNat_bits_ofNat, pow2_eq, decide_eq_false_iff_not]
  omega

theorem isFinite_ofNat (hn : n < 2 ^ 53) : (ofNat n).isFinite := by
  rw [isFinite, unsigned_ofNat, decide_eq_true_eq, infinityBits, pow2_eq]
  by_cases h0 : n = 0
  · subst h0
    decide
  · have hlog : n.log2 < 53 := (Nat.log2_lt h0).2 hn
    obtain ⟨-, hhigh⟩ := significand_bounds h0 hn
    rw [bitsOfNat_of_lt h0 hn]
    omega

/-- A number below `2 ^ 53` has its double in the units of doubles without a remainder. -/
theorem units_ofNat (hn : n < 2 ^ 53) : (ofNat n).units = n * unitsPerOne := by
  by_cases h0 : n = 0
  · subst h0
    rw [Nat.zero_mul]
    decide
  · have hlog : n.log2 < 53 := (Nat.log2_lt h0).2 hn
    obtain ⟨hlow, hhigh⟩ := significand_bounds h0 hn
    have hbits : (ofNat n).unsigned = (n.log2 + 1022) * 2 ^ 52 + n * 2 ^ (52 - n.log2) := by
      rw [unsigned_ofNat, bitsOfNat_of_lt h0 hn]
    -- The hidden bit of the significand is counted in the exponent.
    have hexponent : (ofNat n).exponent = n.log2 + 1023 := by
      rw [exponent, pow2_eq, hbits]
      omega
    have hfraction : 2 ^ 52 + (ofNat n).fraction = n * 2 ^ (52 - n.log2) := by
      rw [fraction, pow2_eq, hbits]
      omega
    have hsignificand : (ofNat n).significand = n * 2 ^ (52 - n.log2) := by
      rw [significand, if_neg (by omega), pow2_eq, hfraction]
    have hscale : 52 - n.log2 + (ofNat n).scale = 1074 := by
      rw [scale, hexponent]
      omega
    have hone : unitsPerOne = 2 ^ (52 - n.log2 + (ofNat n).scale) := by
      rw [← pow2_eq, hscale, unitsPerOne]
    rw [units, hsignificand, pow2_eq, Nat.mul_assoc, ← Nat.pow_add, hone]

/-- The double of a number below `2 ^ 53` is that whole number. -/
theorem toInt?_ofNat (hn : n < 2 ^ 53) : (ofNat n).toInt? = some (n : Int) := by
  have hpos : 0 < unitsPerOne := pow2_pos 1074
  have hwhole : (ofNat n).units % unitsPerOne = 0 := by
    rw [units_ofNat hn, Nat.mul_mod_left]
  have hquotient : (ofNat n).units / unitsPerOne = n := by
    rw [units_ofNat hn, Nat.mul_div_cancel n hpos]
  simp [toInt?, isFinite_ofNat hn, hwhole, hquotient, negative_ofNat]

end Double

end ShapeMatch
