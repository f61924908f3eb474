import ShapeMatch.Proofs.Number.Exact
import ShapeMatch.Proofs.Number.Decimals
import ShapeMatch.Number.Shortest
import Mathlib.Tactic.FieldSimp
import Mathlib.Tactic.Positivity

/-!
# Proofs: shortest decimals are read back

The ends of a reading lie half way to the doubles next to it, so what is between them is nearer to the
double than to any other (`Double.isReadFrom_of_contains`). A reading is so wide that one of the two
decimals of seventeen digits next to the double is in it (`Reading.nearest?_ne_none`). So the search
for the shortest decimal ends with one that is read back (`Double.isReadFrom_shortest`), and with the
number itself if that is whole and below `2 ^ 53` (`Double.shortest_of_whole`). Comparisons of decimals
with the ends are comparisons of natural numbers in the search, and of fractions here
(`Reading.accepts_iff`).
-/

namespace ShapeMatch

namespace Double

variable {x y : Double}

/-! ## The spacing of doubles -/

theorem fraction_lt (x : Double) : x.fraction < 2 ^ 52 := Nat.mod_lt _ (pow2_pos 52)

theorem significand_lt (x : Double) : x.significand < 2 ^ 53 := by
  have hfraction := x.fraction_lt
  rw [significand, pow2_eq]
  split <;> omega

theorem le_significand (h : x.exponent ≠ 0) : 2 ^ 52 ≤ x.significand := by
  rw [significand, if_neg h, pow2_eq]
  omega

theorem units_pos (h : x.isZero = false) : 0 < x.units := by
  have hunsigned : x.unsigned ≠ 0 := by simpa [isZero] using h
  have hsplit : x.unsigned = 2 ^ 52 * x.exponent + x.fraction := (Nat.div_add_mod _ _).symm
  refine Nat.mul_pos ?_ (pow2_pos _)
  rw [significand, pow2_eq]
  split
  · rename_i hexponent
    rw [hexponent] at hsplit
    omega
  · omega

/-- A double of a greater scale is a multiple of the spacing. -/
theorem exists_units_eq (h : x.scale ≤ y.scale) : ∃ k, y.units = k * pow2 x.scale := by
  obtain ⟨i, hi⟩ := Nat.exists_eq_add_of_le h
  refine ⟨y.significand * 2 ^ i, ?_⟩
  rw [units, hi, pow2_eq, pow2_eq, Nat.pow_add]
  ring

/-- A double of a smaller scale lies below all doubles of this one. -/
theorem two_mul_units_add_le (h : y.scale < x.scale) :
    2 * y.units + pow2 x.scale ≤ 2 ^ 53 * pow2 x.scale := by
  have hsignificand := y.significand_lt
  have hscale : pow2 (y.scale + 1) ≤ pow2 x.scale := Nat.pow_le_pow_right (by decide) h
  have hle := Nat.mul_le_mul (Nat.le_sub_one_of_lt hsignificand) hscale
  have hdouble : y.significand * pow2 (y.scale + 1) = 2 * y.units := by
    rw [units, pow2_eq, pow2_eq, Nat.pow_succ]
    ring
  omega

theorem one_lt_exponent (h : y.scale < x.scale) : 1 < x.exponent := by
  have hpos : 0 < x.exponent - 1 := Nat.lt_of_le_of_lt (Nat.zero_le _) h
  omega

theorem le_units (h : x.exponent ≠ 0) : 2 ^ 52 * pow2 x.scale ≤ x.units :=
  Nat.mul_le_mul_right _ (le_significand h)

/-- The doubles above are as far away as the least bit of the significand says. -/
theorem units_add_le (h : x.units < y.units) : x.units + pow2 x.scale ≤ y.units := by
  rcases Nat.lt_or_ge y.scale x.scale with hlt | hle
  · have hy := two_mul_units_add_le hlt
    have hexponent := one_lt_exponent hlt
    have hx := le_units (x := x) (by omega)
    omega
  · obtain ⟨k, hk⟩ := exists_units_eq hle
    rw [hk, units] at h ⊢
    have hlt := Nat.lt_of_mul_lt_mul_right h
    have hmul := Nat.mul_le_mul_right (pow2 x.scale) hlt
    rwa [Nat.succ_mul] at hmul

/-- So are the doubles below, but for the one just below a power of two, which is half as far away. -/
theorem add_le_units (h : y.units < x.units) :
    y.units + pow2 x.scale ≤ x.units ∨
      x.fraction = 0 ∧ 1 < x.exponent ∧ 2 * y.units + pow2 x.scale ≤ 2 * x.units := by
  rcases Nat.lt_or_ge y.scale x.scale with hlt | hle
  · have hy := two_mul_units_add_le hlt
    have hexponent := one_lt_exponent hlt
    have hx := le_units (x := x) (by omega)
    by_cases hfraction : x.fraction = 0
    · exact .inr ⟨hfraction, hexponent, by omega⟩
    · have hsignificand : 2 ^ 52 + 1 ≤ x.significand := by
        rw [significand, if_neg (by omega), pow2_eq]
        omega
      have hmul := Nat.mul_le_mul_right (pow2 x.scale) hsignificand
      rw [← units, Nat.succ_mul] at hmul
      left
      omega
  · obtain ⟨k, hk⟩ := exists_units_eq hle
    rw [hk, units] at h ⊢
    have hlt := Nat.lt_of_mul_lt_mul_right h
    have hmul := Nat.mul_le_mul_right (pow2 x.scale) hlt
    rw [Nat.succ_mul] at hmul
    exact .inl hmul

theorem pow2_scale_le (h : x.isZero = false) : pow2 x.scale ≤ x.units := by
  have hpos := units_pos h
  rw [units] at hpos ⊢
  exact Nat.le_mul_of_pos_left _ (Nat.pos_of_mul_pos_right hpos)

/-- The ends of what is read as a double lie half way to the doubles next to it. -/
theorem reading_gap (hx : x.isZero = false) (y : Double) :
    y.units = x.units ∨ 4 * y.units + 4 * x.units ≤ 2 * x.reading.low ∨
      2 * x.reading.high ≤ 4 * y.units + 4 * x.units := by
  have hle := pow2_scale_le hx
  simp only [reading]
  rcases Nat.lt_trichotomy y.units x.units with hlt | heq | hgt
  · right
    left
    rcases add_le_units hlt with h | ⟨hfraction, hexponent, h⟩
    · split <;> omega
    · rw [if_pos (by simp [hfraction, hexponent])]
      omega
  · exact .inl heq
  · have h := units_add_le hgt
    omega

end Double

namespace Reading

variable {r : Reading} {p : Int} {d : Nat} {tie : Tie}

/-- The number is read back as the one of the reading. -/
def Contains (r : Reading) (q : Rat) : Prop :=
  if r.closed then r.low ≤ q * r.den ∧ q * r.den ≤ r.high
  else r.low < q * r.den ∧ q * r.den < r.high

/-! ## Decimals as fractions -/

/-- A negative power of ten is moved to the other side of a comparison. -/
theorem cast_scaled (d c : Nat) (p : Int) :
    ((d * (pow10 p.toNat * c) : Nat) : Rat) = d * 10 ^ p * c * (pow10 (-p).toNat : Nat) := by
  have hpower : (10 : Rat) ^ p * 10 ^ (-p).toNat = 10 ^ p.toNat := by
    rw [← zpow_natCast, ← zpow_natCast, ← zpow_add₀ (by norm_num)]
    congr 1
    omega
  rw [pow10, pow10, Nat.pow_eq, Nat.pow_eq]
  push_cast
  rw [← hpower]
  ring

theorem cast_pow10_pos (n : Nat) : (0 : Rat) < (pow10 n : Nat) :=
  Nat.cast_pos.2 (Nat.pow_pos (by decide))

theorem scaled_le_iff (d c n : Nat) (p : Int) :
    d * (pow10 p.toNat * c) ≤ n * pow10 (-p).toNat ↔ (d * 10 ^ p * c : Rat) ≤ n := by
  rw [← @Nat.cast_le Rat, cast_scaled, Nat.cast_mul,
    mul_le_mul_iff_of_pos_right (cast_pow10_pos _)]

theorem le_scaled_iff (d c n : Nat) (p : Int) :
    n * pow10 (-p).toNat ≤ d * (pow10 p.toNat * c) ↔ (n : Rat) ≤ d * 10 ^ p * c := by
  rw [← @Nat.cast_le Rat, cast_scaled, Nat.cast_mul,
    mul_le_mul_iff_of_pos_right (cast_pow10_pos _)]

theorem accepts_iff : r.accepts p d ↔ r.Contains (d * 10 ^ p) := by
  have hlow := le_scaled_iff d r.den r.low p
  have hhigh := scaled_le_iff d r.den r.high p
  unfold accepts Contains
  dsimp only
  split
  · rw [Bool.and_eq_true, decide_eq_true_eq, decide_eq_true_eq, hlow, hhigh]
  · rw [Bool.and_eq_true, decide_eq_true_eq, decide_eq_true_eq, ← Nat.not_le, ← Nat.not_le,
      scaled_le_iff, le_scaled_iff, not_le, not_le]

/-! ## The number of digits -/

theorem le_below_iff (hden : 0 < r.den) (k : Nat) :
    k ≤ (r.divide p).1 ↔ (k * 10 ^ p * r.den : Rat) ≤ r.value := by
  have hpos : 0 < pow10 p.toNat * r.den := Nat.mul_pos (Nat.pow_pos (by decide)) hden
  rw [divide, Nat.le_div_iff_mul_le hpos, scaled_le_iff]

/-- The power of ten of the first digit is not above the number. -/
theorem pow_point_le (hvalue : 0 < r.value) (hden : 0 < r.den) :
    (10 : Rat) ^ (r.point - 1) * r.den ≤ r.value := by
  unfold point
  split
  · rename_i hle
    have hpow : 10 ^ ((Decimal.digitsOf (r.value / r.den)).length - 1) ≤ r.value / r.den :=
      Decimal.pow_length_le (Nat.div_pos hle hden)
    have hmul := (Nat.le_div_iff_mul_le hden).1 hpow
    have hexponent : ((Decimal.digitsOf (r.value / r.den)).length : Int) - 1 =
        (((Decimal.digitsOf (r.value / r.den)).length - 1 : Nat) : Int) := by
      have hpos : 0 < (Decimal.digitsOf (r.value / r.den)).length := Nat.length_toDigits_pos
      omega
    rw [hexponent, zpow_natCast]
    exact_mod_cast hmul
  · rename_i hlt
    have hpow : (r.den - 1) / r.value <
        10 ^ (Decimal.digitsOf ((r.den - 1) / r.value)).length :=
      (Nat.length_toDigits_le_iff (by decide) Nat.length_toDigits_pos).1 (Nat.le_refl _)
    have hmul := (Nat.div_lt_iff_lt_mul hvalue).1 hpow
    have hle : r.den ≤ 10 ^ (Decimal.digitsOf ((r.den - 1) / r.value)).length * r.value := by
      omega
    have hexponent : 1 - ((Decimal.digitsOf ((r.den - 1) / r.value)).length : Int) - 1 =
        -((Decimal.digitsOf ((r.den - 1) / r.value)).length : Int) := by
      omega
    rw [hexponent, zpow_neg, zpow_natCast, inv_mul_le_iff₀ (by positivity)]
    exact_mod_cast hle

/-- A number in front of the last place that is counted. -/
theorem pow_le_below (hvalue : 0 < r.value) (hden : 0 < r.den) (k : Nat) :
    10 ^ k ≤ (r.divide (r.point - 1 - k)).1 := by
  rw [le_below_iff hden]
  have hpower : ((10 ^ k : Nat) : Rat) * 10 ^ (r.point - 1 - (k : Int)) = 10 ^ (r.point - 1) := by
    rw [Nat.cast_pow, ← zpow_natCast, Nat.cast_ofNat, ← zpow_add₀ (by norm_num)]
    congr 1
    omega
  rw [hpower]
  exact pow_point_le hvalue hden

/-! ## The nearest multiple -/

/-- Of the two multiples next to the number one is taken that is read back, and of two such ones none
that is farther away. -/
theorem nearest?_cases (tie : Tie) {b rest divisor : Nat} (hdivide : r.divide p = (b, rest, divisor)) :
    (r.nearest? tie p = none ∧ r.accepts p b = false ∧ r.accepts p (b + 1) = false) ∨
    (r.nearest? tie p = some b ∧ r.accepts p b ∧
      (r.accepts p (b + 1) → 2 * rest ≤ divisor)) ∨
    (r.nearest? tie p = some (b + 1) ∧ r.accepts p (b + 1) ∧
      (r.accepts p b → divisor ≤ 2 * rest)) := by
  cases hbelow : r.accepts p b <;> cases habove : r.accepts p (b + 1) <;>
    simp only [nearest?, hdivide, hbelow, habove]
  · simp
  · simp
  · simp
  · rcases Nat.lt_trichotomy (2 * rest) divisor with hlt | heq | hgt
    · simp [hlt, hlt.le]
    · cases tie with
      | up => simp [heq]
      | even => by_cases heven : b % 2 = 0 <;> simp [heq, heven]
    · simp [hgt, Nat.not_lt.2 hgt.le, hgt.le]

theorem nearest?_eq_some {b rest divisor : Nat} (hdivide : r.divide p = (b, rest, divisor))
    (h : r.nearest? tie p = some d) :
    r.accepts p d ∧ (d = b ∧ (r.accepts p (b + 1) → 2 * rest ≤ divisor) ∨
      d = b + 1 ∧ (r.accepts p b → divisor ≤ 2 * rest)) := by
  rcases nearest?_cases tie hdivide with
    ⟨hnone, -⟩ | ⟨hsome, haccept, hrest⟩ | ⟨hsome, haccept, hrest⟩
  · rw [hnone] at h
    contradiction
  · obtain rfl := Option.some.inj (hsome.symm.trans h)
    exact ⟨haccept, .inl ⟨rfl, hrest⟩⟩
  · obtain rfl := Option.some.inj (hsome.symm.trans h)
    exact ⟨haccept, .inr ⟨rfl, hrest⟩⟩

theorem le_of_nearest? (h : r.nearest? tie p = some d) : (r.divide p).1 ≤ d := by
  rcases nearest?_eq_some rfl h with ⟨-, ⟨rfl, -⟩ | ⟨rfl, -⟩⟩
  · exact Nat.le_refl _
  · exact Nat.le_succ _

theorem nearest?_eq_none_iff : r.nearest? tie p = none ↔
    r.accepts p (r.divide p).1 = false ∧ r.accepts p ((r.divide p).1 + 1) = false := by
  rcases nearest?_cases (r := r) (p := p) tie rfl with
    ⟨hnone, haccept⟩ | ⟨hsome, haccept, -⟩ | ⟨hsome, haccept, -⟩
  · exact iff_of_true hnone haccept
  · refine iff_of_false (by rw [hsome]; simp) fun h => ?_
    exact Bool.false_ne_true (h.1.symm.trans haccept)
  · refine iff_of_false (by rw [hsome]; simp) fun h => ?_
    exact Bool.false_ne_true (h.2.symm.trans haccept)

/-- If it matters which of two is taken, the number lies half way between them. -/
theorem add_of_nearest? {e : Nat} (hup : r.nearest? .up p = some d)
    (heven : r.nearest? .even p = some e) (hne : d ≠ e) :
    (((d + e : Nat) : Rat) * 10 ^ p * r.den) = (2 * r.value : Nat) := by
  rcases hdivide : r.divide p with ⟨b, rest, divisor⟩
  obtain ⟨hd, hdcase⟩ := nearest?_eq_some hdivide hup
  obtain ⟨he, hecase⟩ := nearest?_eq_some hdivide heven
  have hhalf : d + e = b + (b + 1) ∧ 2 * rest = divisor := by
    rcases hdcase with ⟨rfl, hdrest⟩ | ⟨rfl, hdrest⟩ <;>
      rcases hecase with ⟨rfl, herest⟩ | ⟨rfl, herest⟩
    · exact absurd rfl hne
    · exact ⟨rfl, Nat.le_antisymm (hdrest he) (herest hd)⟩
    · exact ⟨Nat.add_comm _ _, Nat.le_antisymm (herest hd) (hdrest he)⟩
    · exact absurd rfl hne
  have hsum : (d + e) * (pow10 p.toNat * r.den) = 2 * r.value * pow10 (-p).toNat := by
    have hdiv := Nat.div_add_mod (r.value * pow10 (-p).toNat) (pow10 p.toNat * r.den)
    obtain ⟨rfl, hrest⟩ := Prod.mk.inj hdivide
    obtain ⟨rfl, rfl⟩ := Prod.mk.inj hrest
    rw [hhalf.1]
    calc (r.value * pow10 (-p).toNat / (pow10 p.toNat * r.den) +
          (r.value * pow10 (-p).toNat / (pow10 p.toNat * r.den) + 1)) * (pow10 p.toNat * r.den)
        = 2 * (pow10 p.toNat * r.den * (r.value * pow10 (-p).toNat / (pow10 p.toNat * r.den))) +
          pow10 p.toNat * r.den := by ring
      _ = 2 * (r.value * pow10 (-p).toNat) := by omega
      _ = 2 * r.value * pow10 (-p).toNat := by ring
  exact le_antisymm ((scaled_le_iff _ _ _ _).1 hsum.le) ((le_scaled_iff _ _ _ _).1 hsum.ge)

/-! ## The search -/

theorem exists_of_findSome?_range {α : Type} {f : Nat → Option α} {n : Nat} {a : α}
    (h : (List.range n).findSome? f = some a) : ∃ i, f i = some a ∧ ∀ j < i, f j = none := by
  induction n with
  | zero => contradiction
  | succ n ih =>
    rw [List.range_succ, List.findSome?_append] at h
    cases hinit : (List.range n).findSome? f with
    | some b =>
      rw [hinit, Option.some_or] at h
      exact ih (hinit.trans h)
    | none =>
      rw [hinit, Option.none_or, List.findSome?_singleton] at h
      exact ⟨n, h, fun j hj => List.findSome?_eq_none_iff.1 hinit j (List.mem_range.2 hj)⟩

/-- The search ends at the coarsest multiples that are read back, if there are some. -/
theorem shortest_eq (h : r.nearest? tie (r.point - maxDigits) ≠ none) :
    ∃ p d, r.shortest tie = Decimal.ofNat d p ∧ r.nearest? tie p = some d ∧ p < r.point ∧
      ∀ k, p < k → k < r.point → r.nearest? tie k = none := by
  cases hfound : (List.range maxDigits).findSome? fun i =>
      (r.nearest? tie (r.point - (i + 1 : Nat))).map fun d =>
        Decimal.ofNat d (r.point - (i + 1 : Nat)) with
  | none =>
    have hlast := List.findSome?_eq_none_iff.1 hfound 16 (by decide)
    exact absurd (Option.map_eq_none_iff.1 hlast) h
  | some e =>
    obtain ⟨i, hi, hfirst⟩ := exists_of_findSome?_range hfound
    obtain ⟨d, hd, rfl⟩ := Option.map_eq_some_iff.1 hi
    refine ⟨r.point - (i + 1 : Nat), d, ?_, hd, by omega, fun k hk hpoint => ?_⟩
    · rw [shortest]
      exact congrArg (Option.getD · _) hfound
    · have hnone := hfirst (r.point - k - 1).toNat (by omega)
      have hposition : r.point - (((r.point - k - 1).toNat + 1 : Nat) : Int) = k := by omega
      rw [hposition] at hnone
      exact Option.map_eq_none_iff.1 hnone

/-! ## What is read back -/

theorem Contains.of_lt {q : Rat} (hlow : r.low < q * r.den) (hhigh : q * r.den < r.high) :
    r.Contains q := by
  unfold Contains
  split
  · exact ⟨hlow.le, hhigh.le⟩
  · exact ⟨hlow, hhigh⟩

theorem Contains.bounds {q : Rat} (h : r.Contains q) :
    (r.low ≤ q * r.den ∧ q * r.den ≤ r.high) ∧
      (r.closed = false → r.low < q * r.den ∧ q * r.den < r.high) := by
  unfold Contains at h
  split at h
  · rename_i hclosed
    exact ⟨h, fun hopen => absurd hclosed (Bool.eq_false_iff.1 hopen)⟩
  · exact ⟨⟨h.1.le, h.2.le⟩, fun _ => h⟩

/-- With seventeen digits there is always a multiple that is read back, if what is read back makes up
more than a part of `10 ^ 16` of the number. -/
theorem nearest?_ne_none (tie : Tie) (hden : 0 < r.den) (hlow : r.low < r.value) (hhigh : r.value < r.high)
    (hwide : r.value < 10 ^ 16 * (r.high - r.low)) :
    r.nearest? tie (r.point - maxDigits) ≠ none := by
  intro h
  obtain ⟨hbelow, habove⟩ := nearest?_eq_none_iff.1 h
  have hmany : 10 ^ 16 ≤ (r.divide (r.point - maxDigits)).1 := by
    have hle := pow_le_below (Nat.zero_lt_of_lt hlow) hden 16
    rwa [sub_sub] at hle
  generalize r.point - (maxDigits : Int) = p at *
  have hle := (le_below_iff hden _).1 (Nat.le_refl (r.divide p).1)
  have hlt : (r.value : Rat) < ((r.divide p).1 + 1 : Nat) * 10 ^ p * r.den := by
    rw [← not_le, ← le_below_iff hden]
    omega
  generalize (r.divide p).1 = b at *
  have hlow' : (r.low : Rat) < r.value := Nat.cast_lt.2 hlow
  have hhigh' : (r.value : Rat) < r.high := Nat.cast_lt.2 hhigh
  -- Neither neighbour is read back, so all that is read back lies between them.
  have hbelow' : (b * 10 ^ p * r.den : Rat) ≤ r.low := by
    by_contra hgt
    have haccept := accepts_iff.2 (Contains.of_lt (not_le.1 hgt) (lt_of_le_of_lt hle hhigh'))
    exact Bool.false_ne_true (hbelow.symm.trans haccept)
  have habove' : (r.high : Rat) ≤ (b + 1 : Nat) * 10 ^ p * r.den := by
    by_contra hgt
    have haccept := accepts_iff.2 (Contains.of_lt (lt_trans hlow' hlt) (not_le.1 hgt))
    exact Bool.false_ne_true (habove.symm.trans haccept)
  have hunit : (0 : Rat) < 10 ^ p * r.den :=
    mul_pos (Decimal.ten_zpow_pos p) (Nat.cast_pos.2 hden)
  have hwidth : ((r.high - r.low : Nat) : Rat) ≤ 10 ^ p * r.den := by
    rw [Nat.cast_sub (by omega)]
    push_cast at habove'
    linarith
  have hcount : (10 : Rat) ^ 16 * (10 ^ p * r.den) ≤ b * (10 ^ p * r.den) :=
    mul_le_mul_of_nonneg_right (by exact_mod_cast hmany) hunit.le
  have hpart : (r.value : Rat) < 10 ^ 16 * ((r.high - r.low : Nat) : Rat) := by
    exact_mod_cast hwide
  linarith

/-- What is read back is nearer to the number than to what lies as far behind the ends. -/
theorem Contains.near {q : Rat} (h : r.Contains q) (hlow : r.low < r.value)
    (hhigh : r.value < r.high) {n : Nat}
    (hn : n + r.value ≤ 2 * r.low ∨ 2 * r.high ≤ n + r.value) :
    |(r.value : Rat) - q * r.den| ≤ |(n : Rat) - q * r.den| ∧
      (r.closed = false → |(r.value : Rat) - q * r.den| < |(n : Rat) - q * r.den|) := by
  obtain ⟨⟨hle, hge⟩, hopen⟩ := h.bounds
  have hlow' : (r.low : Rat) < r.value := Nat.cast_lt.2 hlow
  have hhigh' : (r.value : Rat) < r.high := Nat.cast_lt.2 hhigh
  rcases hn with hn | hn
  · have hn' : (n : Rat) + r.value ≤ 2 * r.low := by exact_mod_cast hn
    have hfar : q * r.den - n ≤ |(n : Rat) - q * r.den| := by
      rw [abs_sub_comm]
      exact le_abs_self _
    refine ⟨le_trans (abs_le.2 ⟨?_, ?_⟩) hfar, fun hclosed => lt_of_lt_of_le (abs_lt.2 ⟨?_, ?_⟩) hfar⟩
    all_goals first | linarith | linarith [(hopen hclosed).1]
  · have hn' : (2 * r.high : Rat) ≤ n + r.value := by exact_mod_cast hn
    have hfar : n - q * r.den ≤ |(n : Rat) - q * r.den| := le_abs_self _
    refine ⟨le_trans (abs_le.2 ⟨?_, ?_⟩) hfar, fun hclosed => lt_of_lt_of_le (abs_lt.2 ⟨?_, ?_⟩) hfar⟩
    all_goals first | linarith | linarith [(hopen hclosed).2]

end Reading

namespace Double

variable {x y : Double} {q : Rat}

/-! ## Reading a double -/

theorem reading_value (x : Double) : x.reading.value = 4 * x.units := rfl

theorem reading_den_pos (x : Double) : 0 < x.reading.den := Nat.mul_pos (by decide) unitsPerOne_pos

theorem reading_low_pos (hx : x.isZero = false) : 0 < x.reading.low := by
  have hle := pow2_scale_le hx
  have hpos : 0 < pow2 x.scale := pow2_pos _
  simp only [reading]
  split <;> omega

theorem reading_low_lt (hx : x.isZero = false) : x.reading.low < x.reading.value := by
  have hle := pow2_scale_le hx
  have hpos : 0 < pow2 x.scale := pow2_pos _
  simp only [reading]
  split <;> omega

theorem reading_value_lt (x : Double) : x.reading.value < x.reading.high := by
  have hpos : 0 < pow2 x.scale := pow2_pos _
  simp only [reading]
  omega

/-- The significand has less than seventeen digits. -/
theorem reading_wide (hx : x.isZero = false) :
    x.reading.value < 10 ^ 16 * (x.reading.high - x.reading.low) := by
  have hle := pow2_scale_le hx
  have hpos : 0 < pow2 x.scale := pow2_pos _
  have hunits : x.units < 2 ^ 53 * pow2 x.scale :=
    Nat.mul_lt_mul_of_pos_right x.significand_lt hpos
  simp only [reading]
  split
  · rename_i hpower
    rw [Bool.and_eq_true, decide_eq_true_eq, decide_eq_true_eq] at hpower
    have hsignificand : x.units = 2 ^ 52 * pow2 x.scale := by
      rw [units, significand, if_neg (by omega), hpower.1, Nat.add_zero]
      rfl
    omega
  · omega

/-- The double is what the number is read as: no other one is nearer, and if another one is as near,
the significand is even. -/
def IsReadFrom (x : Double) (q : Rat) : Prop :=
  ∀ y : Double, y.isFinite → |x.value - q| ≤ |y.value - q| ∧
    (|x.value - q| = |y.value - q| → y.value = x.value ∨ x.significand % 2 = 0)

theorem isReadFrom_value (x : Double) : x.IsReadFrom x.value := by
  intro y _
  rw [sub_self, abs_zero]
  exact ⟨abs_nonneg _, fun h => .inl (sub_eq_zero.1 (abs_eq_zero.1 h.symm))⟩

/-- Magnitudes in units of a reading. -/
theorem magnitude_mul_den (x y : Double) :
    y.magnitude * x.reading.den = ((4 * y.units : Nat) : Rat) := by
  have hden : (x.reading.den : Rat) = 4 * unitsPerOne := Nat.cast_mul 4 unitsPerOne
  have hpos := cast_unitsPerOne_pos
  rw [hden, magnitude]
  generalize (unitsPerOne : Rat) = u at hpos
  push_cast
  field_simp

theorem abs_magnitude_sub_mul_den (x y : Double) (q : Rat) :
    |y.magnitude - q| * x.reading.den = |((4 * y.units : Nat) : Rat) - q * x.reading.den| := by
  rw [← magnitude_mul_den x y, ← sub_mul, abs_mul, Nat.abs_cast]

theorem pos_of_contains (hx : x.isZero = false) (h : x.reading.Contains q) : 0 < q := by
  have hlow : (0 : Rat) < x.reading.low := Nat.cast_pos.2 (reading_low_pos hx)
  have hden : (0 : Rat) < x.reading.den := Nat.cast_pos.2 x.reading_den_pos
  exact pos_of_mul_pos_left (lt_of_lt_of_le hlow h.bounds.1.1) hden.le

/-- A double of another magnitude is farther away. -/
theorem near_of_contains (hx : x.isZero = false) (h : x.reading.Contains q)
    (hne : y.units ≠ x.units) :
    |x.magnitude - q| ≤ |y.magnitude - q| ∧
      (|x.magnitude - q| = |y.magnitude - q| → x.significand % 2 = 0) := by
  have hden : (0 : Rat) < x.reading.den := Nat.cast_pos.2 x.reading_den_pos
  have hgap : 4 * y.units + x.reading.value ≤ 2 * x.reading.low ∨
      2 * x.reading.high ≤ 4 * y.units + x.reading.value :=
    (reading_gap hx y).resolve_left hne
  obtain ⟨hle, hlt⟩ := h.near (reading_low_lt hx) x.reading_value_lt hgap
  rw [reading_value, ← abs_magnitude_sub_mul_den, ← abs_magnitude_sub_mul_den] at hle hlt
  refine ⟨le_of_mul_le_mul_right hle hden, fun heq => ?_⟩
  by_contra hodd
  have hopen : x.reading.closed = false := beq_false_of_ne hodd
  exact (lt_of_mul_lt_mul_right (hlt hopen) hden.le).ne heq

/-- What lies in the reading of a double is read as the double. -/
theorem isReadFrom_of_contains (hx : x.isZero = false) (h : x.reading.Contains q) :
    x.IsReadFrom (signed x.negative q) := by
  intro y _
  have hq := pos_of_contains hx h
  have hpos : 0 < x.magnitude :=
    div_pos (Nat.cast_pos.2 (units_pos hx)) cast_unitsPerOne_pos
  have hnear : |x.value - signed x.negative q| = |x.magnitude - q| := abs_signed_sub_signed _ _ _
  -- Another sign only makes the distance greater.
  have hfar : |y.magnitude - q| ≤ |y.value - signed x.negative q| := by
    have hle := abs_abs_sub_abs_le y.value (signed x.negative q)
    rwa [abs_value, abs_signed _ hq.le] at hle
  rw [hnear]
  by_cases hunits : y.units = x.units
  · have hmagnitude : y.magnitude = x.magnitude := by rw [magnitude, hunits, magnitude]
    rw [hmagnitude] at hfar
    refine ⟨hfar, fun heq => .inl ?_⟩
    by_cases hsign : y.negative = x.negative
    · rw [value, value, hsign, hmagnitude]
    · have hsum := abs_signed_sub_signed_of_ne hsign y.magnitude_nonneg hq.le
      have hlt : |x.magnitude - q| < x.magnitude + q := abs_lt.2 ⟨by linarith, by linarith⟩
      rw [hmagnitude] at hsum
      rw [value, hmagnitude, hsum] at heq
      exact absurd heq hlt.ne
  · obtain ⟨hle, htie⟩ := near_of_contains hx h hunits
    exact ⟨hle.trans hfar, fun heq => .inr (htie (le_antisymm hle (heq ▸ hfar)))⟩

/-- The shortest decimal of a double is read back as the double. -/
theorem exists_shortest (hx : x.isZero = false) (tie : Tie) :
    ∃ p d, x.reading.shortest tie = Decimal.ofNat d p ∧ d ≠ 0 ∧
      x.reading.nearest? tie p = some d ∧ p < x.reading.point ∧
      ∀ k, p < k → k < x.reading.point → x.reading.nearest? tie k = none := by
  obtain ⟨p, d, heq, hd, hp, hfirst⟩ := Reading.shortest_eq
    (Reading.nearest?_ne_none tie x.reading_den_pos (reading_low_lt hx)
      x.reading_value_lt (reading_wide hx))
  refine ⟨p, d, heq, ?_, hd, hp, hfirst⟩
  have hbelow := Reading.pow_le_below (r := x.reading) (Nat.zero_lt_of_lt (reading_low_lt hx))
    x.reading_den_pos (x.reading.point - 1 - p).toNat
  have hposition : x.reading.point - 1 - ((x.reading.point - 1 - p).toNat : Int) = p := by omega
  rw [hposition] at hbelow
  have hle := Reading.le_of_nearest? hd
  have hpos : 0 < 10 ^ (x.reading.point - 1 - p).toNat := Nat.pow_pos (by decide)
  omega

theorem isReadFrom_shortest (hx : x.isZero = false) (tie : Tie) :
    x.IsReadFrom (signed x.negative (x.reading.shortest tie).value) := by
  obtain ⟨p, d, heq, -, hd, -⟩ := exists_shortest hx tie
  have haccept := (Reading.nearest?_eq_some rfl hd).1
  rw [heq, Decimal.value_ofNat]
  exact isReadFrom_of_contains hx (Reading.accepts_iff.1 haccept)

theorem isNormal_shortest (hx : x.isZero = false) (tie : Tie) :
    (x.reading.shortest tie).IsNormal := by
  obtain ⟨p, d, heq, hne, -⟩ := exists_shortest hx tie
  rw [heq]
  exact Decimal.isNormal_ofNat hne p

/-- If it matters which of two shortest decimals is taken, they are equally near. -/
theorem shortest_tie (hx : x.isZero = false) :
    x.reading.shortest .up = x.reading.shortest .even ∨
      |x.magnitude - (x.reading.shortest .up).value| =
        |x.magnitude - (x.reading.shortest .even).value| := by
  obtain ⟨p, d, hup, -, hd, hp, hfirst⟩ := exists_shortest hx .up
  obtain ⟨p', e, heven, -, he, hp', hfirst'⟩ := exists_shortest hx .even
  have hnone {k : Int} : x.reading.nearest? .up k = none ↔ x.reading.nearest? .even k = none :=
    Reading.nearest?_eq_none_iff.trans Reading.nearest?_eq_none_iff.symm
  -- Both searches end at the same place.
  have hposition : p = p' := by
    rcases Int.lt_trichotomy p p' with hlt | heq | hgt
    · exact absurd (he.symm.trans (hnone.1 (hfirst p' hlt hp'))) (Option.some_ne_none e)
    · exact heq
    · exact absurd (hd.symm.trans (hnone.2 (hfirst' p hgt hp))) (Option.some_ne_none d)
  subst hposition
  by_cases hne : d = e
  · left
    rw [hup, heven, hne]
  · right
    have hsum : (d * 10 ^ p : Rat) + e * 10 ^ p = 2 * x.magnitude := by
      have hden : (0 : Rat) < x.reading.den := Nat.cast_pos.2 x.reading_den_pos
      have hadd := Reading.add_of_nearest? hd he hne
      refine mul_right_cancel₀ hden.ne' ?_
      rw [← add_mul, ← Nat.cast_add, hadd, mul_assoc, magnitude_mul_den, reading_value]
      push_cast
      rfl
    rw [hup, heven, Decimal.value_ofNat, Decimal.value_ofNat, ← abs_neg]
    congr 1
    linarith

/-- Doubles below `2 ^ 53` lie so close that no whole number is between two of them. -/
theorem spacing_lt {n : Nat} (hn : x.units = n * unitsPerOne) (hlt : n < 2 ^ 53) :
    pow2 x.scale < 2 * unitsPerOne := by
  have hone := unitsPerOne_pos
  by_cases hexponent : x.exponent = 0
  · have hscale : pow2 x.scale = 1 := by rw [scale, hexponent, pow2_eq, Nat.pow_zero]
    omega
  · have hle := le_units hexponent
    rw [hn] at hle
    have hmul := Nat.mul_le_mul_right unitsPerOne (Nat.le_sub_one_of_lt hlt)
    omega

/-- The double is nearer to its own whole number than to another one. -/
theorem eq_of_contains {m n : Nat} (hn : x.units = n * unitsPerOne) (hlt : n < 2 ^ 53)
    (h : x.reading.Contains m) : m = n := by
  obtain ⟨hlow, hhigh⟩ := h.bounds.1
  have hlow' : x.reading.low ≤ m * (4 * unitsPerOne) := by exact_mod_cast hlow
  have hhigh' : m * (4 * unitsPerOne) ≤ x.reading.high := by exact_mod_cast hhigh
  have hspacing := spacing_lt hn hlt
  have hmul : m * (4 * unitsPerOne) = 4 * (m * unitsPerOne) := Nat.mul_left_comm _ _ _
  simp only [reading, hn, hmul] at hlow' hhigh'
  rcases Nat.lt_trichotomy m n with hless | heq | hmore
  · have hstep := Nat.mul_le_mul_right unitsPerOne hless
    rw [Nat.succ_mul] at hstep
    split at hlow' <;> omega
  · exact heq
  · have hstep := Nat.mul_le_mul_right unitsPerOne hmore
    rw [Nat.succ_mul] at hstep
    omega

/-- A whole number has digits before the point. -/
theorem point_pos {n : Nat} (hx : x.isZero = false) (hn : x.units = n * unitsPerOne) :
    0 < x.reading.point := by
  have hunits := units_pos hx
  rw [hn] at hunits
  have hone : 1 * unitsPerOne ≤ n * unitsPerOne :=
    Nat.mul_le_mul_right _ (Nat.pos_of_mul_pos_right hunits)
  have hle : x.reading.den ≤ x.reading.value := by
    simp only [reading, hn]
    omega
  rw [Reading.point, if_pos hle]
  exact Int.natCast_pos.2 Nat.length_toDigits_pos

/-- A whole number is itself a multiple of one, so the search goes no farther than to the point. -/
theorem nearest?_zero_ne_none {n : Nat} (hx : x.isZero = false) (hn : x.units = n * unitsPerOne)
    (tie : Tie) : x.reading.nearest? tie 0 ≠ none := by
  intro h
  have hden := x.reading_den_pos
  have hvalue : ((n : Rat) * 10 ^ (0 : Int)) * x.reading.den = x.reading.value := by
    rw [zpow_zero, mul_one, reading_value, ← magnitude_mul_den, magnitude_of_units_eq hn]
  have hbelow := (Reading.le_below_iff hden _).1 (Nat.le_refl (x.reading.divide 0).1)
  have hle := (Reading.le_below_iff (p := 0) hden n).2 hvalue.le
  have heq : (((x.reading.divide 0).1 : Rat) * 10 ^ (0 : Int)) * x.reading.den =
      x.reading.value := by
    refine le_antisymm hbelow (hvalue.symm.trans_le ?_)
    have hcast : (n : Rat) ≤ (x.reading.divide 0).1 := Nat.cast_le.2 hle
    rw [zpow_zero, mul_one, mul_one]
    exact mul_le_mul_of_nonneg_right hcast (Nat.cast_nonneg _)
  have haccept : x.reading.accepts 0 (x.reading.divide 0).1 := by
    refine Reading.accepts_iff.2 (Reading.Contains.of_lt ?_ ?_)
    · rw [heq]
      exact Nat.cast_lt.2 (reading_low_lt hx)
    · rw [heq]
      exact Nat.cast_lt.2 x.reading_value_lt
  exact Bool.false_ne_true ((Reading.nearest?_eq_none_iff.1 h).1.symm.trans haccept)

/-- A whole number of moderate size has no shorter decimal than its own. -/
theorem shortest_of_whole {n : Nat} (hx : x.isZero = false) (hn : x.units = n * unitsPerOne)
    (hlt : n < 2 ^ 53) (tie : Tie) : (x.reading.shortest tie).value = n := by
  obtain ⟨p, d, heq, -, hd, hp, hfirst⟩ := exists_shortest hx tie
  have hposition : 0 ≤ p := by
    by_contra hneg
    exact nearest?_zero_ne_none hx hn tie (hfirst 0 (by omega) (point_pos hx hn))
  obtain ⟨k, rfl⟩ := Int.eq_ofNat_of_zero_le hposition
  have hnat : (d * 10 ^ (k : Int) : Rat) = (d * 10 ^ k : Nat) := by
    rw [zpow_natCast]
    push_cast
    rfl
  have haccept := Reading.accepts_iff.1 (Reading.nearest?_eq_some rfl hd).1
  rw [hnat] at haccept
  rw [heq, Decimal.value_ofNat, hnat, eq_of_contains hn hlt haccept]

end Double

end ShapeMatch
