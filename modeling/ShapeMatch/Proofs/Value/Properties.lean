import ShapeMatch.Proofs.Number.Whole
import ShapeMatch.Proofs.Value.Counterparts

/-!
# Proofs: which properties a value has

Whether a value has a property and what stands under it are found in two ways, which agree as long as
the index of the value is right (`Value.hasProperty_eq_isSome`). The keys of an array are the name of
its length and the numerals of its positions. As a numeral can be told by its form, this says of any
text whether it is a key: it needs to have this form, and to stand for a number below the length
(`Value.properties_of_reachable`).
-/

namespace ShapeMatch

/-- The numerals of the numbers below a bound are the texts of their form that stand for one. -/
theorem exists_toString_iff {text : String} {bound : Nat} :
    (∃ i < bound, toString i = text) ↔
      IsNumeral text ∧ Nat.ofDigitChars 10 text.toList 0 < bound := by
  constructor
  · rintro ⟨i, hi, rfl⟩
    have hvalue : Nat.ofDigitChars 10 (toString i).toList 0 = i := by
      rw [toList_toString, Nat.ofDigitChars_ten_toDigits]
    refine ⟨isNumeral_toString i, ?_⟩
    rwa [hvalue]
  · rintro ⟨hform, hlt⟩
    exact ⟨_, hlt, isNumeral_iff.1 hform⟩

namespace Value

/-- The keys of an array are the name of its length and the numerals of its positions. -/
theorem hasProperty_array_iff {r : Ref} {items : Array Value} {key : String} :
    (array r items).hasProperty key ↔ key = "length" ∨ ∃ i < items.size, toString i = key := by
  have hposition : (position? key items.size).isSome ↔ ∃ i < items.size, toString i = key := by
    rw [Option.isSome_iff_exists]
    exact exists_congr fun i => position?_eq_some_iff
  unfold hasProperty
  rw [Bool.or_eq_true, beq_iff_eq, hposition]

/-- **Which properties a value has.** A value that a program has made has exactly the properties that
can be read off it. The properties of an array are its length, which reads as the number that it is,
and its elements, each under the numeral of its position. A numeral consists of ASCII digits alone,
and starts with a zero only if nothing follows; whatever else is in a text, or however many digits it
has, it is no key unless it stands for a number below the length. -/
theorem properties_of_reachable {s : Store} (hs : s.Reachable) :
    (∀ v ∈ s.values, ∀ key, v.hasProperty key ↔ (v.property? key).isSome) ∧
    ∀ (r : Ref) (items : Array Value),
      (∀ key, (array r items).hasProperty key ↔
        key = "length" ∨ ∃ i < items.size, toString i = key) ∧
      (∀ key, (array r items).hasProperty key ↔
        key = "length" ∨ IsNumeral key ∧ Nat.ofDigitChars 10 key.toList 0 < items.size) ∧
      (∀ i : Nat, (array r items).property? (toString i) = items[i]?) ∧
      (array r items).property? "length" = some (number (.ofNat items.size)) ∧
      (items.size < 2 ^ 53 → (Double.ofNat items.size).toInt? = some (items.size : Int)) := by
  refine ⟨fun v hv key => ?_, fun r items => ⟨fun key => ?_, fun key => ?_, fun i => ?_, ?_, ?_⟩⟩
  · have hindex : v.IsIndexed := (hs.sound.wellFormed v hv).isIndexed
    rw [hasProperty_eq_isSome hindex]
  · exact hasProperty_array_iff
  · rw [hasProperty_array_iff, exists_toString_iff]
  · exact property?_toString r items i
  · rw [property?, if_pos rfl]
    rfl
  · exact Double.toInt?_ofNat

/-- A record with an array of two elements in it. -/
def pairStore : Store :=
  ⟨[.object ⟨1⟩ (Table.ofList [("pair", .array ⟨0⟩ #[.null, .undefined])]),
    .array ⟨0⟩ #[.null, .undefined], .undefined, .null], [], 2⟩

theorem reachable_pairStore : pairStore.Reachable := by
  have hprimitives : Store.Reachable ⟨[.undefined, .null], [], 0⟩ :=
    (Store.Reachable.start.withValue .null).withValue .undefined
  have harray : Store.Reachable ⟨[.array ⟨0⟩ #[.null, .undefined], .undefined, .null], [], 1⟩ :=
    hprimitives.withValue (m := newArray [.null, .undefined]) (.array (by simp))
  exact harray.withValue (.object (by simp))

theorem properties_of_pairStore :
    pairStore.Reachable ∧
      ((array ⟨0⟩ #[null, undefined]).hasProperty "1" ∧
        ((array ⟨0⟩ #[null, undefined]).property? "1").isSome) ∧
      (array ⟨0⟩ #[null, undefined]).property? "length" = some (number (.ofNat 2)) ∧
      (Double.ofNat 2).toInt? = some 2 ∧
      ∀ key ∈ ["01", "+1", "1 ", "٢", "2", "18446744073709551616"],
        ¬ (array ⟨0⟩ #[null, undefined]).hasProperty key := by
  obtain ⟨hreads, harrays⟩ := properties_of_reachable reachable_pairStore
  obtain ⟨hkeys, hforms, -, hlength, hwhole⟩ := harrays ⟨0⟩ #[null, undefined]
  have hhas : (array ⟨0⟩ #[null, undefined]).hasProperty "1" :=
    (hkeys "1").2 (.inr ⟨1, by decide, by decide⟩)
  refine ⟨reachable_pairStore, ⟨hhas, ?_⟩, hlength, hwhole (by decide), ?_⟩
  · exact (hreads _ (by simp [pairStore]) "1").1 hhas
  · simp only [hforms]
    decide

end Value

end ShapeMatch
