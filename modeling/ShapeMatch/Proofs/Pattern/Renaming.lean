import ShapeMatch.Proofs.Dictionary.Collecting
import ShapeMatch.Proofs.Pattern.Replacement
import ShapeMatch.Proofs.Pattern.SelectedKeys
import Mathlib.Data.List.Nodup
import Mathlib.Logic.Embedding.Basic

/-!
# Proofs: selection keys are labels

A renaming gives each selection key another one, no two of them the same one. Selections are built by
writing under keys, which asks only whether two keys are equal, so all ways of building them commute with
a renaming. By the plans of a pattern so does matching (`Pattern.run_rename`): neither a name nor the
anonymous key is treated in a way of its own, and no two keys run into each other.
-/

namespace ShapeMatch

/-- A renaming of selection keys. -/
abbrev KeyRenaming := SelectionKey ↪ SelectionKey

/-! ## Ordered association lists under other keys -/

section Assoc

variable {κ α : Type} [BEq κ] [LawfulBEq κ] (r : κ ↪ κ)

theorem beq_embedding (k k' : κ) : (r k == r k') = (k == k') := by
  rw [Bool.eq_iff_iff, beq_iff_eq, beq_iff_eq, r.injective.eq_iff]

theorem Assoc.get?_map (k : κ) (entries : List (κ × α)) :
    get? (· == ·) (r k) (entries.map fun e => (r e.1, e.2)) = get? (· == ·) k entries := by
  induction entries with
  | nil => rfl
  | cons e entries ih => rw [List.map_cons, get?_cons, get?_cons, beq_embedding, ih]

theorem eraseDups_map (l : List κ) : (l.map r).eraseDups = l.eraseDups.map r := by
  match l with
  | [] => rfl
  | k :: l =>
    have hfilter : ((fun b => !b == r k) ∘ r) = fun b => !b == k := by
      funext b
      rw [Function.comp_apply, beq_embedding]
    have ih := eraseDups_map (l.filter fun b => !b == k)
    rw [List.map_cons, List.eraseDups_cons, List.eraseDups_cons, List.map_cons, List.filter_map,
      hfilter, ih]
termination_by l.length
decreasing_by exact Nat.lt_succ_of_le (List.length_filter_le _ _)

end Assoc

/-! ## Selections under other keys -/

namespace Selections

variable (r : KeyRenaming)

/-- The same captures in the same order under other keys. -/
def rename (s : Selections) : Selections where
  entries := s.entries.map fun e => (r e.1, e.2)
  nodup_keys := by
    have hkeys : (s.entries.map fun e => (r e.1, e.2)).map Prod.fst = s.keys.map r := by
      rw [keys, List.map_map, List.map_map]
      rfl
    rw [hkeys]
    exact (List.nodup_map_iff r.injective).2 s.nodup

theorem keys_rename (s : Selections) : (s.rename r).keys = s.keys.map r := by
  rw [keys, keys, rename, List.map_map, List.map_map]
  rfl

theorem get?_rename (s : Selections) (k : SelectionKey) : (s.rename r).get? (r k) = s.get? k :=
  Assoc.get?_map r k s.entries

theorem rename_insertAll (s : Selections) (new : List (SelectionKey × Capture)) :
    (s.insertAll new).rename r = (s.rename r).insertAll (new.map fun e => (r e.1, e.2)) :=
  ext (Assoc.putAll_map (beq_embedding r) id s.entries new).symm

theorem rename_ofList (entries : List (SelectionKey × Capture)) :
    (ofList entries).rename r = ofList (entries.map fun e => (r e.1, e.2)) :=
  rename_insertAll r empty entries

theorem rename_merge (s t : Selections) : (s.merge t).rename r = (s.rename r).merge (t.rename r) :=
  rename_insertAll r s t.entries

theorem rename_seedAbsent (s : Selections) (ks : List SelectionKey) :
    (s.seedAbsent ks).rename r = (s.rename r).seedAbsent (ks.map r) := by
  rw [seedAbsent, rename_insertAll, seedAbsent, List.map_map, List.map_map]
  rfl

theorem rename_mergeAll (s : Selections) (results : List (Option Selections)) :
    (s.mergeAll results).map (rename r) =
      (s.rename r).mergeAll (results.map fun result => result.map (rename r)) := by
  induction results generalizing s with
  | nil => rfl
  | cons result results ih =>
    rw [mergeAll_cons, List.map_cons, mergeAll_cons]
    cases result with
    | none => rfl
    | some t =>
      rw [Option.bind_some, ih, rename_merge]
      rfl

theorem rename_columns (rows : List Selections) :
    (columns rows).rename r = columns (rows.map (rename r)) := by
  have hkeys : (rows.map (rename r)).flatMap keys = (rows.flatMap keys).map r := by
    rw [List.flatMap_map, List.map_flatMap]
    simp only [keys_rename]
  rw [columns, rename_ofList, columns, hkeys, eraseDups_map, List.map_map, List.map_map]
  congr 2
  funext k
  simp only [Function.comp_apply, List.filterMap_map]
  congr 3
  funext s
  exact (get?_rename r s k).symm

end Selections

/-- The same captures under other keys. -/
def Replacement.ofKeys (r : KeyRenaming) : Replacement where
  select h k := .select h (r k)
  selectWith h k q := .selectWith h (r k) q
  isMatcher_select _ _ := rfl
  isMatcher_selectWith _ _ _ := rfl
  isOptional_select _ _ := rfl
  isOptional_selectWith _ _ _ := rfl

namespace Pattern

/-- The pattern with its captures under other keys. -/
def rename (r : KeyRenaming) (p : Pattern) : Pattern := p.replace (.ofKeys r)

variable (r : KeyRenaming)

/-! ## Declared keys -/

theorem flatMap_keys_rename {ps : List Pattern} (ih : ∀ p ∈ ps, (p.rename r).keys = p.keys.map r) :
    (ps.map (rename r)).flatMap keys = (ps.flatMap keys).map r := by
  rw [List.flatMap_map, List.map_flatMap]
  exact List.flatMap_congr ih

theorem keys_rename {p : Pattern} (hp : p.CustomFree) : (p.rename r).keys = p.keys.map r := by
  induction p using inductionOnParts with
  | step p ih =>
    have hparts := flatMap_keys_rename r fun q hq => ih q hq (hp.part hq)
    cases p with
    | literal | not | guard | select => rfl
    | object fields =>
      rw [rename, replace, replaceFields_eq_map, keys, keys, fieldKeys_eq_flatMap,
        fieldKeys_eq_flatMap, List.flatMap_map]
      rwa [parts, List.map_map, List.flatMap_map, List.flatMap_map] at hparts
    | map entries =>
      rw [rename, replace, replaceEntries_eq_map, keys, keys, entryKeys_eq_flatMap,
        entryKeys_eq_flatMap, List.flatMap_map]
      rwa [parts, List.map_map, List.flatMap_map, List.flatMap_map] at hparts
    | tuple items =>
      obtain ⟨items⟩ := items
      rw [rename, replace, replaceAll_eq_map, keys, keys, allKeys_eq_flatMap, allKeys_eq_flatMap]
      exact hparts
    | set ps | intersection _ ps | union _ ps =>
      rw [rename, replace, replaceAll_eq_map, keys, keys, allKeys_eq_flatMap, allKeys_eq_flatMap]
      exact hparts
    | optional _ q | array _ q =>
      exact ih q (List.mem_singleton_self q) (hp.part (List.mem_singleton_self q))
    | selectWith _ k q =>
      have hq := ih q (List.mem_singleton_self q) (hp.part (List.mem_singleton_self q))
      exact congrArg (r k :: ·) hq
    | custom => exact absurd hp.here Bool.noConfusion

end Pattern

/-! ## Matches under other keys -/

/-- The second writes are the first ones under other keys. -/
def WritesRenamed (r : KeyRenaming) (writes writes' : List (SelectionKey × Capture)) : Prop :=
  writes' = writes.map fun e => (r e.1, e.2)

/-- A plan whose writes are under other keys, and whose tests select under other keys, selects under
other keys. -/
theorem Plan.Image.run_eq {r : KeyRenaming} {a b : Plan}
    (h : Image (.ofKeys r) (WritesRenamed r) a b)
    (ha : a.isCustom = false)
    (htests : ∀ t ∈ a.tests, ∀ v, (t.1.rename r).run v = (t.1.run v).map (Selections.rename r))
    (hkeys : ∀ t ∈ a.tests, (t.1.rename r).keys = t.1.keys.map r) :
    b.run = a.run.map (Selections.rename r) := by
  cases h with
  | @every writes _ ts hw =>
    rw [WritesRenamed] at hw
    subst hw
    rw [run, run, Selections.rename_mergeAll, Selections.rename_ofList, List.map_map, List.map_map]
    congr 1
    exact List.map_congr_left fun t ht => htests t ht t.2
  | @each p v vs =>
    have hp : (p.rename r).run = fun w => (p.run w).map (Selections.rename r) :=
      funext (htests (p, v) List.mem_cons_self)
    show ((v :: vs).mapM (p.rename r).run).map Selections.columns = _
    rw [hp, Pattern.mapM_map_result, run, Option.map_map, Option.map_map]
    congr 1
    funext rows
    exact (Selections.rename_columns r rows).symm
  | @first ps v =>
    have hps : ∀ q ∈ ps, (q.rename r).keys = q.keys.map r := fun q hq =>
      hkeys (q, v) (List.mem_map_of_mem hq)
    -- The keys of the branches that are not taken are seeded, so it matters that they are renamed.
    have hseeds : Pattern.allKeys (ps.map (Pattern.rename r)) = (Pattern.allKeys ps).map r := by
      rw [Pattern.allKeys_eq_flatMap, Pattern.allKeys_eq_flatMap]
      exact Pattern.flatMap_keys_rename r hps
    have hfirst : (ps.map (Pattern.rename r)).findSome? (·.run v) =
        (ps.findSome? (·.run v)).map (Selections.rename r) := by
      rw [List.findSome?_map, List.map_findSome?, ← List.head?_filterMap, ← List.head?_filterMap]
      exact congrArg List.head? (List.filterMap_congr fun q hq =>
        htests (q, v) (List.mem_map_of_mem hq) v)
    show ((ps.map (Pattern.rename r)).findSome? (·.run v)).map
      (Selections.empty.seedAbsent (Pattern.allKeys (ps.map (Pattern.rename r)))).merge = _
    rw [hfirst, hseeds, run, Option.map_map, Option.map_map]
    congr 1
    funext s
    rw [Function.comp_apply, Function.comp_apply, Selections.rename_merge,
      Selections.rename_seedAbsent]
    rfl
  | @refuse p v =>
    have hp := htests (p, v) (List.mem_singleton_self _) v
    show Pattern.accept ((p.rename r).run v).isNone = _
    rw [hp, Option.isNone_map, run]
    cases (p.run v).isNone <;> rfl
  | custom => contradiction

namespace Pattern

variable (r : KeyRenaming)

theorem image_rename {p : Pattern} (hp : p.CustomFree) (v : Value) :
    Option.Rel (Plan.Image (.ofKeys r) (WritesRenamed r)) (p.plan v) ((p.rename r).plan v) := by
  have hnil : WritesRenamed r [] [] := rfl
  refine image_plan hnil (fun q hq c => ?_) (fun h k u => ?_) (fun h k q u => ?_) v
  · show (q.rename r).keys.map (·, c) = (q.keys.map (·, c)).map fun e => (r e.1, e.2)
    rw [keys_rename r (hp.part hq), List.map_map, List.map_map]
    rfl
  · exact .some (.every rfl)
  · exact .some (.every rfl)

/-- A match of the renamed pattern selects the same under other keys. -/
theorem run_rename {p : Pattern} (hp : p.CustomFree) (v : Value) :
    (p.rename r).run v = (p.run v).map (Selections.rename r) := by
  induction p using inductionOnParts generalizing v with
  | step p ih =>
    have himage := image_rename r hp v
    rw [run_eq_plan, run_eq_plan]
    generalize ha : p.plan v = a? at himage
    generalize (p.rename r).plan v = b? at himage
    cases himage with
    | none => rfl
    | @some a b hab =>
      have hpart {t : Pattern × Value} (ht : t ∈ a.tests) : t.1 ∈ p.parts :=
        mem_parts_of_mem_tests ha ht
      refine hab.run_eq ((isCustom_plan ha).trans hp.here) (fun t ht => ?_) fun t ht => ?_
      · exact ih t.1 (hpart ht) (hp.part (hpart ht))
      · exact keys_rename r (hp.part (hpart ht))

/-- **Selection keys are opaque labels.** A pattern whose captures are put under other keys, no two of
them under one that were not before, matches the same values. It selects the same captures in the same
order, each under its other key, and it declares the same keys, renamed. -/
theorem selections_rename {p : Pattern} (hp : p.CustomFree) (v : Value) :
    (p.rename r).isMatch v = p.isMatch v ∧
      ((p.rename r).selections v).entries =
        (p.selections v).entries.map (fun e => (r e.1, e.2)) ∧
      (p.rename r).keys = p.keys.map r := by
  refine ⟨?_, ?_, keys_rename r hp⟩
  · rw [isMatch, run_rename r hp, Option.isSome_map, isMatch]
  · rw [selections, run_rename r hp, selections]
    cases p.run v <;> rfl

/-- A name and the anonymous key, each in the place of the other one. -/
def swapAnonymous : KeyRenaming := (Equiv.swap (.named "x") .anonymous).toEmbedding

theorem selections_rename_sampleRow :
    sampleRow.CustomFree ∧ sampleRow.isMatch sampleValue ∧
      ((sampleRow.rename swapAnonymous).selections sampleValue).keys =
        [.anonymous, .named "y", .named "x"] ∧
      (sampleRow.rename swapAnonymous).keys =
        [.anonymous, .named "y", .named "x", .anonymous] := by
  have hp : sampleRow.CustomFree := by decide
  have hm : sampleRow.isMatch sampleValue := by decide +kernel
  have hrename := selections_rename swapAnonymous hp sampleValue
  refine ⟨hp, hm, ?_, ?_⟩
  · rw [Selections.keys, hrename.2.1]
    decide +kernel
  · rw [hrename.2.2]
    decide +kernel

end Pattern

end ShapeMatch
