import ShapeMatch.Value.Same

/-!
# Proofs: identity and keys

Under `sameValueZero` two values are the same exactly if they have one key and are of one type
(`Value.sameValueZero_iff`): the key of a container is its identity alone. Where no two values share
an identity (`Coherent`), the type is settled by the key, so that a table finds by the key what
`sameValueZero` takes for the same. `sameValue` looks in addition at the sign of a zero
(`Value.sameValue_iff`). Both are equivalence relations, as they compare what they compare by
equality.
-/

namespace ShapeMatch

namespace Double

variable {x y : Double}

theorem isNaN_of_isZero (h : x.isZero) : x.isNaN = false := by
  have hx : x.unsigned = 0 := by simpa [isZero] using h
  simp [isNaN, hx]

theorem isZero_of_isNaN (h : x.isNaN) : x.isZero = false := by
  cases hz : x.isZero with
  | false => rfl
  | true => exact absurd h (by simp [isNaN_of_isZero hz])

/-- There is one zero of each sign. -/
theorem eq_of_isZero (hx : x.isZero) (hy : y.isZero) (h : x.negative = y.negative) : x = y := by
  obtain ⟨a⟩ := x
  obtain ⟨b⟩ := y
  have hpow : pow2 63 = 9223372036854775808 := rfl
  simp only [isZero, unsigned, negative, decide_eq_true_eq, decide_eq_decide, hpow] at hx hy h
  have ha := a.toNat_lt
  have hb := b.toNat_lt
  have hab : a.toNat = b.toNat := by omega
  rw [UInt64.toNat_inj.1 hab]

theorem sameZero_iff :
    x.sameZero y ↔ x.isNaN ∧ y.isNaN ∨ x.isZero ∧ y.isZero ∨ x = y := by
  have hbits : x.bits = y.bits ↔ x = y := by cases x; cases y; simp
  simp only [sameZero, ieeeEq, Bool.or_eq_true, Bool.and_eq_true, Bool.not_eq_true', beq_iff_eq,
    hbits]
  constructor
  · rintro (h | ⟨-, h | h⟩)
    · exact .inl h
    · exact .inr (.inr h)
    · exact .inr (.inl h)
  · rintro (h | h | rfl)
    · exact .inl h
    · exact .inr ⟨⟨isNaN_of_isZero h.1, isNaN_of_isZero h.2⟩, .inr h⟩
    · cases hx : x.isNaN with
      | true => exact .inl ⟨rfl, rfl⟩
      | false => exact .inr ⟨⟨rfl, rfl⟩, .inl rfl⟩

theorem canonical_of_isNaN (h : x.isNaN) : x.canonical = nan := if_pos h

theorem canonical_of_isZero (h : x.isZero) : x.canonical = zero := by
  rw [canonical, isNaN_of_isZero h, if_neg (by simp), if_pos h]

theorem canonical_of_neither (hn : x.isNaN = false) (hz : x.isZero = false) : x.canonical = x := by
  rw [canonical, hn, if_neg (by simp), hz, if_neg (by simp)]

@[simp] theorem isNaN_canonical (x : Double) : x.canonical.isNaN = x.isNaN := by
  by_cases hn : x.isNaN
  · rw [canonical_of_isNaN hn, hn]
    decide
  · by_cases hz : x.isZero
    · rw [canonical_of_isZero hz, isNaN_of_isZero hz]
      decide
    · rw [canonical_of_neither (by simpa using hn) (by simpa using hz)]

@[simp] theorem isZero_canonical (x : Double) : x.canonical.isZero = x.isZero := by
  by_cases hz : x.isZero
  · rw [canonical_of_isZero hz, hz]
    decide
  · by_cases hn : x.isNaN
    · rw [canonical_of_isNaN hn, eq_false_of_ne_true hz]
      decide
    · rw [canonical_of_neither (by simpa using hn) (by simpa using hz)]

/-- Two doubles have one canonical double exactly if they are the same number. -/
theorem canonical_eq_iff : x.canonical = y.canonical ↔ x.sameZero y := by
  rw [sameZero_iff]
  constructor
  · intro h
    have hn : x.isNaN = y.isNaN := by rw [← isNaN_canonical, h, isNaN_canonical]
    have hz : x.isZero = y.isZero := by rw [← isZero_canonical, h, isZero_canonical]
    cases hxn : x.isNaN with
    | true => exact .inl ⟨rfl, hn ▸ hxn⟩
    | false =>
      cases hxz : x.isZero with
      | true => exact .inr (.inl ⟨rfl, hz ▸ hxz⟩)
      | false =>
        rw [canonical_of_neither hxn hxz, canonical_of_neither (hn ▸ hxn) (hz ▸ hxz)] at h
        exact .inr (.inr h)
  · rintro (⟨hx, hy⟩ | ⟨hx, hy⟩ | rfl)
    · rw [canonical_of_isNaN hx, canonical_of_isNaN hy]
    · rw [canonical_of_isZero hx, canonical_of_isZero hy]
    · rfl

/-- The same number is the same double, unless it is a zero of another sign. -/
theorem same_iff :
    x.same y ↔ x.sameZero y ∧ (x.isZero && x.negative) = (y.isZero && y.negative) := by
  have hsame : x.same y ↔ x.isNaN ∧ y.isNaN ∨ x = y := by
    simp only [same, Bool.or_eq_true, Bool.and_eq_true, beq_iff_eq]
  rw [hsame, sameZero_iff]
  constructor
  · rintro (⟨hx, hy⟩ | rfl)
    · have hxz : x.isZero = false := isZero_of_isNaN hx
      have hyz : y.isZero = false := isZero_of_isNaN hy
      exact ⟨.inl ⟨hx, hy⟩, by rw [hxz, hyz]; rfl⟩
    · exact ⟨.inr (.inr rfl), rfl⟩
  · rintro ⟨h | ⟨hx, hy⟩ | h, hsign⟩
    · exact .inl h
    · rw [hx, hy, Bool.true_and, Bool.true_and] at hsign
      exact .inr (eq_of_isZero hx hy hsign)
    · exact .inr h

end Double

namespace Value

variable {a b c : Value}

/-! ## What the relations compare -/

/-- Whether the value is the zero with a sign. -/
def isNegativeZero : Value → Bool
  | number x => x.isZero && x.negative
  | _ => false

theorem sameValueZero_iff : a.sameValueZero b ↔ a.key = b.key ∧ a.typeName = b.typeName := by
  cases a <;> cases b <;> simp [sameValueZero, key, typeName, typeOf, Double.canonical_eq_iff]

theorem sameValue_iff :
    a.sameValue b ↔ a.sameValueZero b ∧ a.isNegativeZero = b.isNegativeZero := by
  cases a <;> cases b <;> simp [sameValue, sameValueZero, isNegativeZero, Double.same_iff]

theorem isUndefined_eq (v : Value) : v.isUndefined = v.sameValue .undefined := by
  cases v <;> rfl

/-! ## Equivalence -/

theorem sameValueZero_refl (a : Value) : a.sameValueZero a := sameValueZero_iff.2 ⟨rfl, rfl⟩

theorem sameValueZero_symm (h : a.sameValueZero b) : b.sameValueZero a := by
  obtain ⟨hkey, htype⟩ := sameValueZero_iff.1 h
  exact sameValueZero_iff.2 ⟨hkey.symm, htype.symm⟩

theorem sameValueZero_trans (h : a.sameValueZero b) (h' : b.sameValueZero c) :
    a.sameValueZero c := by
  obtain ⟨hkey, htype⟩ := sameValueZero_iff.1 h
  obtain ⟨hkey', htype'⟩ := sameValueZero_iff.1 h'
  exact sameValueZero_iff.2 ⟨hkey.trans hkey', htype.trans htype'⟩

theorem sameValue_refl (a : Value) : a.sameValue a := sameValue_iff.2 ⟨sameValueZero_refl a, rfl⟩

theorem sameValue_symm (h : a.sameValue b) : b.sameValue a := by
  obtain ⟨hzero, hsign⟩ := sameValue_iff.1 h
  exact sameValue_iff.2 ⟨sameValueZero_symm hzero, hsign.symm⟩

theorem sameValue_trans (h : a.sameValue b) (h' : b.sameValue c) : a.sameValue c := by
  obtain ⟨hzero, hsign⟩ := sameValue_iff.1 h
  obtain ⟨hzero', hsign'⟩ := sameValue_iff.1 h'
  exact sameValue_iff.2 ⟨sameValueZero_trans hzero hzero', hsign.trans hsign'⟩

/-- The relations differ on zeros of different signs, and on nothing else. -/
theorem sameValueZero_and_not_sameValue_iff :
    a.sameValueZero b ∧ ¬ a.sameValue b ↔
      ∃ x y, a = number x ∧ b = number y ∧ x.isZero ∧ y.isZero ∧ x.negative ≠ y.negative := by
  constructor
  · rintro ⟨hzero, hne⟩
    have hsign : a.isNegativeZero ≠ b.isNegativeZero := fun h => hne (sameValue_iff.2 ⟨hzero, h⟩)
    -- Only numbers can differ in the sign of a zero, and these two have one key.
    obtain ⟨x, y, rfl, rfl⟩ : ∃ x y, a = number x ∧ b = number y := by
      have htype := (sameValueZero_iff.1 hzero).2
      cases a <;> cases b <;> simp_all [isNegativeZero, typeName, typeOf]
    have hxy : x.sameZero y := hzero
    simp only [isNegativeZero] at hsign
    rcases Double.sameZero_iff.1 hxy with ⟨hx, hy⟩ | ⟨hx, hy⟩ | rfl
    · rw [Double.isZero_of_isNaN hx, Double.isZero_of_isNaN hy] at hsign
      exact absurd rfl hsign
    · rw [hx, hy, Bool.true_and, Bool.true_and] at hsign
      exact ⟨x, y, rfl, rfl, hx, hy, hsign⟩
    · exact absurd rfl hsign
  · rintro ⟨x, y, rfl, rfl, hx, hy, hsign⟩
    refine ⟨Double.sameZero_iff.2 (.inr (.inl ⟨hx, hy⟩)), fun h => hsign ?_⟩
    have hneg := (sameValue_iff.1 h).2
    simp only [isNegativeZero, hx, hy, Bool.true_and] at hneg
    exact hneg

/-! ## Keys -/

/-- No two of the values share the identity of a container. -/
def Coherent (live : List Value) : Prop :=
  ∀ a ∈ live, ∀ b ∈ live, ∀ r, a.ref? = some r → b.ref? = some r → a = b

theorem Coherent.cons {live : List Value} (h : Coherent live)
    (hfresh : ∀ w ∈ live, ∀ r, a.ref? = some r → w.ref? ≠ some r) : Coherent (a :: live) := by
  intro v hv w hw r hvr hwr
  rcases List.mem_cons.1 hv with rfl | hv' <;> rcases List.mem_cons.1 hw with rfl | hw'
  · rfl
  · exact absurd hwr (hfresh w hw' r hvr)
  · exact absurd hvr (hfresh v hv' r hwr)
  · exact h v hv' w hw' r hvr hwr

/-- Values with distinct identities are told apart by them. -/
theorem coherent_of_nodup {live : List Value} (h : (live.filterMap ref?).Nodup) :
    Coherent live := by
  have hpair := List.pairwise_filterMap.1 h
  clear h
  induction hpair with
  | nil =>
    intro a ha
    contradiction
  | cons hfresh _ ih =>
    refine ih.cons fun w hw r hr hwr => ?_
    exact absurd rfl (hfresh w hw r hr r hwr)

theorem ref?_eq_some_iff {r : Ref} : a.ref? = some r ↔ a.key = .container r := by
  cases a <;> simp [ref?, key]

/-- The key of a primitive tells its type. -/
theorem typeName_of_key_of_ref? (ha : a.ref? = none) (h : a.key = b.key) :
    a.typeName = b.typeName := by
  cases a <;> cases b <;> simp_all [ref?, key, typeName, typeOf]

/-- Where identity tells containers apart, values with one key are the same. -/
theorem Coherent.key_eq_iff {live : List Value} (h : Coherent live) (ha : a ∈ live)
    (hb : b ∈ live) : a.key = b.key ↔ a.sameValueZero b := by
  rw [sameValueZero_iff]
  constructor
  · intro hkey
    refine ⟨hkey, ?_⟩
    cases hr : a.ref? with
    | none => exact typeName_of_key_of_ref? hr hkey
    | some r =>
      have hbr : b.ref? = some r := ref?_eq_some_iff.2 (hkey ▸ ref?_eq_some_iff.1 hr)
      rw [h a ha b hb r hr hbr]
  · intro hab
    exact hab.1

/-- **Keys are the classes of `sameValueZero`.** Among values whose containers are told apart by
identity, two have one key exactly if they are the same under `sameValueZero`. This relation and
`sameValue` are equivalences on all values; the second one implies the first, and parts from it only
on the two zeros. -/
theorem key_classifies {live : List Value} (h : Coherent live) :
    (∀ a ∈ live, ∀ b ∈ live, a.key = b.key ↔ a.sameValueZero b) ∧
    (Equivalence fun a b : Value => a.sameValue b) ∧
    (Equivalence fun a b : Value => a.sameValueZero b) ∧
    (∀ a b : Value, a.sameValue b → a.sameValueZero b) ∧
    ∀ a b : Value, a.sameValueZero b ∧ ¬ a.sameValue b ↔
      ∃ x y, a = number x ∧ b = number y ∧ x.isZero ∧ y.isZero ∧ x.negative ≠ y.negative := by
  refine ⟨fun a ha b hb => h.key_eq_iff ha hb, ?_, ?_, ?_, ?_⟩
  · exact ⟨sameValue_refl, sameValue_symm, sameValue_trans⟩
  · exact ⟨sameValueZero_refl, sameValueZero_symm, sameValueZero_trans⟩
  · intro a b hab
    exact (sameValue_iff.1 hab).1
  · intro a b
    exact sameValueZero_and_not_sameValue_iff

/-- Two zeros, two NaNs with different bits, and two containers. -/
def sampleLive : List Value :=
  [number .zero, number ⟨0x8000000000000000⟩, number .nan, number ⟨0xfff0000000000001⟩,
    array ⟨0⟩ #[], set ⟨1⟩ ∅]

theorem key_classifies_sampleLive :
    Coherent sampleLive ∧ (number .zero).key = (number ⟨0x8000000000000000⟩).key ∧
      (number .nan).key = (number ⟨0xfff0000000000001⟩).key ∧
      (array ⟨0⟩ #[]).key ≠ (set ⟨1⟩ ∅).key := by
  have hlive : Coherent sampleLive := coherent_of_nodup (by decide)
  have hkey := (key_classifies hlive).1
  refine ⟨hlive, ?_, ?_, ?_⟩
  · rw [hkey _ (by simp [sampleLive]) _ (by simp [sampleLive])]
    decide
  · rw [hkey _ (by simp [sampleLive]) _ (by simp [sampleLive])]
    decide
  · rw [Ne, hkey _ (by simp [sampleLive]) _ (by simp [sampleLive])]
    simp [sameValueZero]

end Value

end ShapeMatch
