import ShapeMatch.Proofs.Pattern.Plan

/-!
# Proofs: one pattern for all elements

Three forms test every element of a container against one pattern: the array pattern, the tuple of
copies of the pattern, and the set pattern with a single matcher. Each of them has what the elements
select as its rows, and fails if a row is missing. The tuple and the set merge the rows, so that of
several captures under a key the last one stays; the array pattern keeps them all in a column, whose
last entry is this one (`Pattern.traversals_agree`).
-/

namespace ShapeMatch

/-! ## Rows merged and rows in columns -/

namespace Selections

theorem mergeAll_map {α : Type} (s : Selections) (f : α → Option Selections) (l : List α) :
    s.mergeAll (l.map f) = (l.mapM f).map (·.foldl merge s) := by
  apply Option.ext
  intro t
  rw [mergeAll_eq_some_iff, Option.map_eq_some_iff]
  simp only [mapM_eq_some_iff]

theorem keys_columns_eq (rows : List Selections) :
    (columns rows).keys = (rows.foldl merge ∅).keys := by
  rw [keys_columns, keys_foldl_merge]
  rfl

/-- A column ends with what stands under its key after the rows are merged. -/
theorem column_ends {rows : List Selections} {k : SelectionKey} (hk : k ∈ (columns rows).keys) :
    ∃ column c, (columns rows).get? k = some (.collected (column ++ [c])) ∧
      (rows.foldl merge ∅).get? k = some c := by
  have hget : (columns rows).get? k = some (.collected (rows.filterMap (·.get? k))) := by
    rw [keys_columns, List.mem_eraseDups] at hk
    rw [get?_columns, if_pos hk]
  have hlast : (rows.foldl merge ∅).get? k = (rows.filterMap (·.get? k)).getLast? := by
    rw [get?_foldl_merge, get?_empty, Option.or_none]
  rw [keys_columns_eq, ← isSome_get?_iff] at hk
  obtain ⟨c, hc⟩ := Option.isSome_iff_exists.1 hk
  obtain ⟨column, hcolumn⟩ := List.getLast?_eq_some_iff.1 (hlast.symm.trans hc)
  exact ⟨column, c, hcolumn ▸ hget, hc⟩

end Selections

namespace Pattern

variable {m : Pattern} {items : Array Value}

/-! ## The rows of a traversal -/

theorem run_tuple (ps : Array Pattern) (r : Ref) (items : Array Value) :
    (tuple ps).run (.array r items) =
      if ps.size = items.size then Selections.mergeAll ∅ (List.zipWith run ps.toList items.toList)
      else none := by
  rw [run, Value.items?]
  simp only [bind, Option.bind_some, runItems_eq]

theorem run_tuple_replicate (p : Pattern) (r : Ref) (items : Array Value) :
    (tuple (.replicate items.size p)).run (.array r items) =
      (items.toList.mapM p.run).map (·.foldl Selections.merge ∅) := by
  have hzip : List.zipWith run (List.replicate items.toList.length p) items.toList =
      items.toList.map p.run := by
    induction items.toList with
    | nil => rfl
    | cons v vs ih =>
      rw [List.length_cons, List.replicate_succ, List.zipWith_cons_cons, ih, List.map_cons]
  rw [run_tuple, if_pos Array.size_replicate, Array.toList_replicate, ← Array.length_toList, hzip,
    Selections.mergeAll_map]

theorem run_array_of_nonempty (h r : Ref) (p : Pattern) (hitems : 0 < items.size) :
    (array h p).run (.array r items) = (items.toList.mapM p.run).map Selections.columns := by
  obtain ⟨_ | ⟨v, vs⟩⟩ := items
  · contradiction
  · rw [run_eq_plan]
    rfl

theorem run_lone_matcher (hm : m.isMatcher) (r : Ref) (members : Members) :
    (set [m]).run (.set r members) =
      (members.toList.mapM m.run).map (·.foldl Selections.merge ∅) := by
  rw [run_eq_plan, plan, Value.members?, Option.bind_some, if_pos hm, Option.bind_some, Plan.run,
    List.map_map, ← Selections.mergeAll_map]
  rfl

/-! ## Agreement -/

/-- **The three traversals agree.** On an array with an element, an array pattern and the tuple of as
many copies of the inner pattern have one verdict and select the same keys in the same order, and the
tuple selects what the collected column ends with. A set pattern with a single matcher gives what the
tuple of copies gives on the array of the members. -/
theorem traversals_agree (h r r' : Ref) :
    (∀ (p : Pattern) (items : Array Value), 0 < items.size →
      (array h p).isMatch (.array r items) =
          (tuple (.replicate items.size p)).isMatch (.array r items) ∧
        ((array h p).selections (.array r items)).keys =
          ((tuple (.replicate items.size p)).selections (.array r items)).keys ∧
        ∀ k ∈ ((array h p).selections (.array r items)).keys, ∃ column c,
          ((array h p).selections (.array r items)).get? k = some (.collected (column ++ [c])) ∧
          ((tuple (.replicate items.size p)).selections (.array r items)).get? k = some c) ∧
    ∀ (m : Pattern) (members : Members), m.isMatcher →
      (set [m]).run (.set r' members) =
        (tuple (.replicate members.size m)).run (.array r members.entries) := by
  constructor
  · intro p items hitems
    simp only [isMatch, selections, run_tuple_replicate, run_array_of_nonempty h r p hitems]
    -- Both patterns have the same rows, or both miss one.
    cases items.toList.mapM p.run with
    | none =>
      refine ⟨rfl, rfl, ?_⟩
      intro k hk
      contradiction
    | some rows =>
      refine ⟨rfl, Selections.keys_columns_eq rows, ?_⟩
      intro k hk
      exact Selections.column_ends hk
  · intro m members hm
    rw [run_lone_matcher hm]
    exact (run_tuple_replicate m r members.entries).symm

/-- A matcher that captures `undefined` under one key and all else under another. -/
def sampleSorter : Pattern :=
  custom ⟨0⟩ {
    run := fun v =>
      some (.ofList [(.named (if v.isUndefined then "absent" else "present"), .value v)])
    keys := [.named "absent", .named "present"] }

/-- Elements of both kinds. -/
def sampleMixture : Array Value := #[.null, .undefined, .bool true]

/-- Members of both kinds, with their index. -/
def sampleMembers : Members :=
  ⟨#[.undefined, .null], (Std.HashMap.insert ∅ .undefined 0).insert .null 1⟩

theorem traversals_agree_sampleMixture :
    0 < sampleMixture.size ∧ sampleSorter.isMatcher ∧
      (tuple (.replicate sampleMixture.size sampleSorter)).isMatch (.array ⟨1⟩ sampleMixture) ∧
      ((tuple (.replicate sampleMixture.size sampleSorter)).selections
        (.array ⟨1⟩ sampleMixture)).keys = [.named "present", .named "absent"] ∧
      ((set [sampleSorter]).selections (.set ⟨3⟩ sampleMembers)).keys =
        [.named "absent", .named "present"] := by
  have hitems : 0 < sampleMixture.size := by decide
  have hm : sampleSorter.isMatcher := rfl
  obtain ⟨harray, hset⟩ := traversals_agree ⟨2⟩ ⟨1⟩ ⟨3⟩
  obtain ⟨hmatch, hkeys, -⟩ := harray sampleSorter sampleMixture hitems
  refine ⟨hitems, hm, ?_, ?_, ?_⟩
  · rw [← hmatch]
    decide +kernel
  · rw [← hkeys]
    decide +kernel
  · rw [selections, hset sampleSorter sampleMembers hm]
    decide +kernel

end Pattern

end ShapeMatch
