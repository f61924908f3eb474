import ShapeMatch.Pattern.Builder
import ShapeMatch.Proofs.Number.Whole
import ShapeMatch.Proofs.Pattern.Traversal
import ShapeMatch.Proofs.Value.Numerals
import Mathlib.Data.List.Nodup

/-!
# Proofs: tuples are objects with numerals as names

The elements of an array can be had as its properties under the numerals of their positions. So a
tuple of `n` parts asks an array for the same as the object pattern that asks for the length `n` and
then for the parts under the numerals from zero on (`Pattern.run_tuple_eq_run_object`). Lengths are
compared as doubles there, which tell them apart as long as `n` is below `2 ^ 53`.
-/

namespace ShapeMatch

namespace Value

variable {r : Ref} {items : Array Value} {m n i : Nat}

theorem sameValue_ofSize (hn : n < 2 ^ 53) :
    (ofSize m).sameValue (ofInt n) = decide (m = n) := by
  rw [Bool.eq_iff_iff, decide_eq_true_iff]
  exact Double.same_ofNat_iff hn

theorem part?_length (r : Ref) (items : Array Value) (mayMiss : Bool) :
    (array r items).part? "length" mayMiss = some (ofSize items.size) := rfl

/-- The field pattern under a numeral is tested on the element, whether the field may be missing or
not. -/
theorem part?_toString (hi : i < items.size) (mayMiss : Bool) :
    (array r items).part? (toString i) mayMiss = some items[i] := by
  rw [part?, hasProperty_toString hi, property?_toString, Array.getElem?_eq_getElem hi]
  rfl

end Value

namespace Pattern

variable {ps : List Pattern} {r : Ref} {items : Array Value}

/-- Each part as a field under the numeral of its position. -/
def numbered (ps : List Pattern) : List (String × Pattern) := ps.mapIdx fun i p => (toString i, p)

/-- The fields by which an object pattern asks for an array of these parts: the length first, and then
the numbered parts. -/
def indexFields (ps : List Pattern) : List (String × Pattern) :=
  ("length", literal (.ofInt ps.length)) :: numbered ps

theorem nodup_indexFields (ps : List Pattern) : ((indexFields ps).map Prod.fst).Nodup := by
  have hnames : (numbered ps).map Prod.fst =
      (List.range ps.length).map (toString : Nat → String) := by
    apply List.ext_getElem
    · simp [numbered]
    · intro i hi hi'
      simp [numbered]
  rw [indexFields, List.map_cons, hnames, List.nodup_cons]
  constructor
  · intro h
    obtain ⟨i, -, hi⟩ := List.mem_map.1 h
    exact toString_ne_length i hi
  · exact List.nodup_range.map fun _ _ h => toString_inj.1 h

/-- The numbered parts are tested on the elements in order. -/
theorem results_numbered (hsize : ps.length = items.size) :
    ((numbered ps).map fun f => ((Value.array r items).part? f.1 f.2.isOptional).bind f.2.run) =
      List.zipWith run ps items.toList := by
  apply List.ext_getElem
  · simp [numbered, hsize]
  · intro i hi hi'
    have hitem : i < items.size := by
      simp only [numbered, List.length_map, List.length_mapIdx] at hi
      omega
    simp only [numbered]
    rw [List.getElem_map, List.getElem_mapIdx, List.getElem_zipWith, Value.part?_toString hitem]
    rfl

/-- The length is tested first and selects nothing. -/
theorem run_object_indexFields (hn : ps.length < 2 ^ 53) (r : Ref) (items : Array Value) :
    (object (indexFields ps)).run (.array r items) =
      if ps.length = items.size then
        Selections.mergeAll ∅ ((numbered ps).map fun f =>
          ((Value.array r items).part? f.1 f.2.isOptional).bind f.2.run)
      else none := by
  have hlike : (Value.array r items).isObjectLike = true := rfl
  rw [run, if_pos hlike, runFields_eq, indexFields, List.map_cons, Selections.mergeAll_cons,
    Value.part?_length, Option.bind_some, run, Value.sameValue_ofSize hn]
  by_cases hsize : ps.length = items.size
  · rw [if_pos hsize, decide_eq_true hsize.symm]
    rfl
  · rw [if_neg hsize, decide_eq_false (Ne.symm hsize)]
    rfl

/-- **Tuples and index access agree.** On an array, the tuple of some parts and the object pattern for
their number as the length and for each part under its numeral give the same result. The names of the
fields are distinct, so that the object pattern is collected as it stands. -/
theorem run_tuple_eq_run_object (hn : ps.length < 2 ^ 53) (r : Ref) (items : Array Value) :
    (tuple ps.toArray).run (.array r items) = (object (indexFields ps)).run (.array r items) ∧
      ofFields (indexFields ps) = object (indexFields ps) := by
  refine ⟨?_, congrArg object (Assoc.collect_of_nodup (nodup_indexFields ps))⟩
  rw [run_tuple, run_object_indexFields hn, List.size_toArray]
  by_cases hsize : ps.length = items.size
  · rw [if_pos hsize, if_pos hsize, results_numbered hsize]
  · rw [if_neg hsize, if_neg hsize]

/-- A capture, and one of an element that may be absent. -/
def sampleParts : List Pattern :=
  [select ⟨0⟩ (.named "x"), optional ⟨1⟩ (selectWith ⟨2⟩ (.named "y") (literal .null))]

theorem run_tuple_eq_run_object_sampleParts :
    sampleParts.length < 2 ^ 53 ∧
      (object (indexFields sampleParts)).isMatch (.array ⟨3⟩ #[.null, .undefined]) = true ∧
      (object (indexFields sampleParts)).isMatch (.array ⟨3⟩ #[.null]) = false := by
  have hn : sampleParts.length < 2 ^ 53 := by decide
  obtain ⟨hlong, -⟩ := run_tuple_eq_run_object hn ⟨3⟩ #[.null, .undefined]
  obtain ⟨hshort, -⟩ := run_tuple_eq_run_object hn ⟨3⟩ #[.null]
  refine ⟨hn, ?_, ?_⟩
  · rw [isMatch, ← hlong]
    rfl
  · rw [isMatch, ← hshort]
    rfl

end Pattern

end ShapeMatch
