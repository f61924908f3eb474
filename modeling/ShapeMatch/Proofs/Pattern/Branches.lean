import ShapeMatch.Pattern.Builder
import ShapeMatch.Proofs.Pattern.Plan
import ShapeMatch.Proofs.Value.Identity

/-!
# Proofs: unions and intersections

A union asks its branches in order, and what the first one that matches selects is written over a
mark under each key that some branch declares (`Pattern.run_union`). So a selection of a union is
one of this branch or a mark, and never one of a branch that failed or that was not asked
(`Pattern.selections_union`).

Whether unions are nested in unions, or intersections in intersections, makes no difference
(`Pattern.run_nested`). For an intersection this is the associativity of merging. A union inside of a
union writes its marks over those of the outer one, which has a mark under each of these keys.

An optional pattern is the union of `undefined` and its inner pattern, but for the marks: the union
writes them before it asks, the optional pattern only where the value is `undefined`
(`Pattern.run_union_undefined`).
-/

namespace ShapeMatch.Pattern

variable {ps : List Pattern} {v : Value}

theorem run_intersection (h : Ref) (ps : List Pattern) (v : Value) :
    (intersection h ps).run v = Selections.mergeAll ∅ (ps.map (·.run v)) := by
  rw [run, runEvery_eq]

theorem run_union (h : Ref) (ps : List Pattern) (v : Value) :
    (union h ps).run v =
      (ps.findSome? (·.run v)).map (Selections.empty.seedAbsent (allKeys ps)).merge := by
  rw [run_eq_plan]
  rfl

theorem allKeys_append (ps qs : List Pattern) : allKeys (ps ++ qs) = allKeys ps ++ allKeys qs := by
  rw [allKeys_eq_flatMap, allKeys_eq_flatMap, allKeys_eq_flatMap, List.flatMap_append]

/-! ## What a union selects -/

theorem isMatch_union (h : Ref) : (union h ps).isMatch v ↔ ∃ p ∈ ps, p.isMatch v := by
  rw [isMatch, run_union, Option.isSome_map, List.findSome?_isSome_iff]
  rfl

/-- The search for a result ends at the first pattern that matches. -/
theorem findSome?_run_of_find? {w : Pattern} (hw : ps.find? (·.isMatch v) = some w) :
    ps.findSome? (·.run v) = some (w.selections v) := by
  obtain ⟨hmatch, before, after, rfl, hbefore⟩ := List.find?_eq_some_iff_append.1 hw
  have hnone : before.findSome? (·.run v) = none := by
    rw [List.findSome?_eq_none_iff]
    intro p hp
    have hfail : p.isMatch v = false := by simpa using hbefore p hp
    rwa [isMatch, Option.isSome_eq_false_iff, Option.isNone_iff_eq_none] at hfail
  rw [List.findSome?_append, hnone, Option.none_or, List.findSome?_cons, run_of_isMatch hmatch]

/-- **What a union selects.** A union matches if some branch does. Under a key it then selects what
the first branch that matches selects under it, or else marks the key as absent if any branch
declares it, and has no selection otherwise. -/
theorem selections_union (h : Ref) (ps : List Pattern) (v : Value) :
    ((union h ps).isMatch v ↔ ∃ p ∈ ps, p.isMatch v) ∧
    ∀ w ∈ ps.find? (·.isMatch v), ∀ k,
      ((union h ps).selections v).get? k =
        if k ∈ (w.selections v).keys then (w.selections v).get? k
        else if ∃ p ∈ ps, k ∈ p.keys then some .absent
        else none := by
  refine ⟨isMatch_union h, fun w hw k => ?_⟩
  have hrun : (union h ps).selections v =
      (Selections.empty.seedAbsent (allKeys ps)).merge (w.selections v) := by
    rw [selections, run_union, findSome?_run_of_find? hw]
    rfl
  rw [hrun, Selections.get?_merge, Selections.get?_seedAbsent]
  by_cases hk : k ∈ (w.selections v).keys
  · obtain ⟨c, hc⟩ := Option.isSome_iff_exists.1 (Selections.isSome_get?_iff.2 hk)
    rw [if_pos hk, hc, Option.some_or]
  · have hnone : (w.selections v).get? k = none := by
      rwa [← Selections.isSome_get?_iff, Option.not_isSome_iff_eq_none] at hk
    rw [if_neg hk, hnone, Option.none_or]
    simp only [mem_allKeys]
    rfl

/-- Branches that fail after a capture, that match and capture, and that would match as well. -/
def sampleBranches : List Pattern :=
  [intersection ⟨0⟩ [select ⟨1⟩ (.named "x"), select ⟨2⟩ (.named "y"), literal .null],
    selectWith ⟨3⟩ (.named "y") (literal (.bool true)), select ⟨4⟩ .anonymous]

theorem selections_union_sampleBranches :
    (union ⟨5⟩ sampleBranches).isMatch (.bool true) ∧
      ((union ⟨5⟩ sampleBranches).selections (.bool true)).get? (.named "x") = some .absent ∧
      ((union ⟨5⟩ sampleBranches).selections (.bool true)).get? (.named "y") =
        some (.value (.bool true)) ∧
      ((union ⟨5⟩ sampleBranches).selections (.bool true)).get? .anonymous = some .absent ∧
      ((union ⟨5⟩ sampleBranches).selections (.bool true)).get? (.named "z") = none := by
  obtain ⟨hmatch, hget⟩ := selections_union ⟨5⟩ sampleBranches (.bool true)
  have hfirst : selectWith ⟨3⟩ (.named "y") (literal (.bool true)) ∈
      sampleBranches.find? (·.isMatch (.bool true)) := rfl
  have hbranch : selectWith ⟨3⟩ (.named "y") (literal (.bool true)) ∈ sampleBranches :=
    List.mem_of_find?_eq_some hfirst
  refine ⟨hmatch.2 ⟨_, hbranch, rfl⟩, ?_, ?_, ?_, ?_⟩ <;> rw [hget _ hfirst] <;> rfl

/-! ## Nested unions and intersections -/

section Nested

variable (g h i : Ref) (ps qs rs : List Pattern) (v : Value)

theorem run_nested_intersection :
    (intersection g (ps ++ [intersection h qs] ++ rs)).run v =
      (intersection i (ps ++ qs ++ rs)).run v := by
  simp only [run_intersection, List.map_append, Selections.mergeAll_append]
  congr 1
  congr 1
  funext s
  -- What the parts before select is merged with the inner result at once, or part by part.
  rw [List.map_singleton, Selections.mergeAll_cons, run_intersection,
    Selections.mergeAll_eq_map s (qs.map _)]
  cases Selections.mergeAll ∅ (qs.map (·.run v)) <;> rfl

/-- The marks of a union inside of another one are marks of the outer one. -/
theorem marks_of_nested {ks js : List SelectionKey} (hjs : js ⊆ ks) (r : Option Selections) :
    (r.map (Selections.empty.seedAbsent js).merge).map (Selections.empty.seedAbsent ks).merge =
      r.map (Selections.empty.seedAbsent ks).merge := by
  rw [Option.map_map]
  congr 1
  funext s
  rw [Function.comp_apply, ← Selections.merge_assoc, Selections.seedAbsent_merge_seedAbsent hjs]

theorem run_nested_union :
    (union g (ps ++ [union h qs] ++ rs)).run v = (union i (ps ++ qs ++ rs)).run v := by
  have hkeys : allKeys (ps ++ [union h qs] ++ rs) = allKeys (ps ++ qs ++ rs) := by
    simp [allKeys_append, allKeys, keys]
  have hsub : allKeys qs ⊆ allKeys (ps ++ qs ++ rs) := by
    intro k hk
    simp [allKeys_append, hk]
  simp only [run_union g, run_union i, hkeys, List.findSome?_append]
  -- Only if the match is inside of the inner union do the two write different marks.
  cases ps.findSome? (·.run v) with
  | some s => rfl
  | none =>
    rw [Option.none_or, Option.none_or, List.findSome?_singleton, run_union, Option.map_or,
      Option.map_or, marks_of_nested hsub]

end Nested

/-- **Nesting makes no difference.** Merging is associative and has the empty selections as its unit.
So an intersection inside of an intersection, or a union inside of a union, may as well be replaced by
its parts: the result is the same, the order of the keys included, and so are the declared keys. -/
theorem run_nested :
    (∀ s t u : Selections, (s.merge t).merge u = s.merge (t.merge u)) ∧
    (∀ s : Selections, s.merge ∅ = s ∧ Selections.merge ∅ s = s) ∧
    ∀ (g h i : Ref) (ps qs rs : List Pattern) (v : Value),
      (intersection g (ps ++ [intersection h qs] ++ rs)).run v =
          (intersection i (ps ++ qs ++ rs)).run v ∧
      (union g (ps ++ [union h qs] ++ rs)).run v = (union i (ps ++ qs ++ rs)).run v ∧
      (intersection g (ps ++ [intersection h qs] ++ rs)).keys =
          (intersection i (ps ++ qs ++ rs)).keys ∧
      (union g (ps ++ [union h qs] ++ rs)).keys = (union i (ps ++ qs ++ rs)).keys := by
  refine ⟨Selections.merge_assoc, fun s => ⟨s.merge_empty, s.empty_merge⟩, ?_⟩
  intro g h i ps qs rs v
  refine ⟨run_nested_intersection g h i ps qs rs v, run_nested_union g h i ps qs rs v, ?_, ?_⟩
  · simp only [keys, allKeys_append, allKeys, List.append_nil]
  · simp only [keys, allKeys_append, allKeys, List.append_nil]

/-! ## Optional patterns -/

section Optional

variable (g h : Ref) (p : Pattern) (v : Value)

theorem run_optional_of_undefined {v : Value} (hv : v.isUndefined) :
    (optional g p).run v = some (Selections.empty.seedAbsent p.keys) := by
  rw [run, if_pos hv]

theorem run_optional_of_defined {v : Value} (hv : v.isUndefined = false) :
    (optional g p).run v = p.run v := by
  rw [run, if_neg (by simp [hv])]

/-- The union marks the keys of the inner pattern in any case. -/
theorem run_union_undefined :
    (union h [undefined, p]).run v =
      ((optional g p).run v).map (Selections.empty.seedAbsent p.keys).merge := by
  have hkeys : allKeys [undefined, p] = p.keys := by simp [allKeys, undefined, keys]
  have hundefined : undefined.run v = accept v.isUndefined := by
    rw [undefined, run, Value.isUndefined_eq]
  rw [run_union, hkeys, List.findSome?_cons, hundefined]
  cases hv : v.isUndefined with
  | true =>
    -- The marks of the optional pattern are those of the union.
    have hmarks := Selections.seedAbsent_merge_seedAbsent (List.Subset.refl p.keys)
    rw [run_optional_of_undefined g p hv, Option.map_some, hmarks]
    rfl
  | false =>
    rw [run_optional_of_defined g p hv]
    simp [accept]

/-- What is written over the marks of absent keys reads as before, if a missing selection is read as
absent. -/
theorem getD_get?_merge_marks (ks : List SelectionKey) (s : Selections) (k : SelectionKey) :
    (((Selections.empty.seedAbsent ks).merge s).get? k).getD .absent =
      (s.get? k).getD .absent := by
  rw [Selections.get?_merge, Selections.get?_seedAbsent]
  cases s.get? k with
  | some c => rfl
  | none =>
    rw [Option.none_or]
    split <;> rfl

/-- **An optional pattern is a union with `undefined`.** The two match the same values, and under each
key they select the same if a missing selection is read as `undefined`. Of `undefined` itself, whatever
the inner pattern makes of it, an optional pattern selects a mark under each declared key and nothing
else. -/
theorem optional_agrees_with_union :
    ((optional g p).isMatch v ↔ (union h [undefined, p]).isMatch v) ∧
    (∀ k, (((optional g p).selections v).get? k).getD .absent =
      (((union h [undefined, p]).selections v).get? k).getD .absent) ∧
    (optional g p).isMatch .undefined ∧
    ((optional g p).selections .undefined).keys = p.keys.eraseDups ∧
    ∀ k, ((optional g p).selections .undefined).get? k =
      if k ∈ p.keys then some (.value .undefined) else none := by
  have hunion := run_union_undefined g h p v
  have hundefined := run_optional_of_undefined g p (v := .undefined) rfl
  have hmarks : (optional g p).selections .undefined = Selections.empty.seedAbsent p.keys := by
    rw [selections, hundefined]
    rfl
  refine ⟨?_, fun k => ?_, ?_, ?_, fun k => ?_⟩
  · rw [isMatch, isMatch, hunion, Option.isSome_map]
  · rw [selections, selections, hunion]
    cases (optional g p).run v with
    | none => rfl
    | some s => exact (getD_get?_merge_marks p.keys s k).symm
  · rw [isMatch, hundefined, Option.isSome_some]
  · rw [hmarks, Selections.keys_seedAbsent]
    rfl
  · rw [hmarks, Selections.get?_seedAbsent]
    rfl

end Optional

end ShapeMatch.Pattern
