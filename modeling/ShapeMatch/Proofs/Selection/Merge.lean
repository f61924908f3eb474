import ShapeMatch.Proofs.Dictionary.Order
import ShapeMatch.Selection.Columns

/-!
# Proofs: selections are the monoid of runs of writes

Selections are determined by their keys in order and by their look-ups (`Selections.ext_get?`), and
a run of writes is described through these two views. Merging is writing, so selections form a
monoid under `merge` with `∅` as the unit, and a run of writes is the merge with its own collection
(`Selections.insertAll_eq_merge`). The results of several tests are merged in any grouping.
-/

namespace ShapeMatch.Selections

/-! ## The two views -/

@[simp] theorem keys_empty : (∅ : Selections).keys = [] := rfl

@[simp] theorem get?_empty (k : SelectionKey) : (∅ : Selections).get? k = none := rfl

theorem nodup (s : Selections) : s.keys.Nodup := s.nodup_keys

theorem isSome_get?_iff {s : Selections} {k : SelectionKey} : (s.get? k).isSome ↔ k ∈ s.keys :=
  Assoc.isSome_get?_iff

theorem exists_get?_of_mem {s : Selections} {k : SelectionKey} (h : k ∈ s.keys) :
    ∃ c, s.get? k = some c :=
  Option.isSome_iff_exists.1 (isSome_get?_iff.2 h)

theorem get?_eq_none_iff {s : Selections} {k : SelectionKey} : s.get? k = none ↔ k ∉ s.keys := by
  rw [← isSome_get?_iff, Option.not_isSome_iff_eq_none]

/-- To look for a name is to look for the key with this name. -/
theorem getNamed?_eq (s : Selections) (name : String) : s.getNamed? name = s.get? (.named name) := by
  have hkey (k : SelectionKey) : (k.name? == some name) = (k == .named name) := by
    cases k with
    | anonymous => rfl
    | named n =>
      rw [Bool.eq_iff_iff]
      simp [SelectionKey.name?]
  unfold getNamed? get? Assoc.get?
  simp only [hkey]

theorem isEmpty_iff {s : Selections} : s.isEmpty ↔ s.keys = [] := by
  unfold isEmpty keys
  rw [List.isEmpty_iff, List.map_eq_nil_iff]

/-- Selections with the same keys in the same order and the same captures are equal. -/
theorem ext_get? {s t : Selections} (hk : s.keys = t.keys) (hg : ∀ k, s.get? k = t.get? k) :
    s = t :=
  ext (Assoc.ext_get? hk s.nodup_keys hg)

/-! ## Writing -/

/-- The keys after a run of writes: those that were there, then the new ones. -/
theorem keys_insertAll (s : Selections) (new : List (SelectionKey × Capture)) :
    (s.insertAll new).keys = (s.keys ++ new.map Prod.fst).eraseDups :=
  Assoc.map_fst_putAll s.entries new s.nodup_keys

/-- A look-up after a run of writes finds the last one under its key, or what was there. -/
theorem get?_insertAll (s : Selections) (new : List (SelectionKey × Capture)) (k : SelectionKey) :
    (s.insertAll new).get? k = (Assoc.get? (· == ·) k new.reverse).or (s.get? k) := by
  rw [get?, get?, insertAll, Assoc.get?_putAll, Assoc.get?_append]

theorem insertAll_append (s : Selections) (new newer : List (SelectionKey × Capture)) :
    s.insertAll (new ++ newer) = (s.insertAll new).insertAll newer := by
  apply ext
  simp only [insertAll, Assoc.putAll, List.foldl_append]

/-- Writing one capture under each of several keys, one that depends on the key alone. -/
theorem get?_insertAll_map (s : Selections) (ks : List SelectionKey) (f : SelectionKey → Capture)
    (k : SelectionKey) :
    (s.insertAll (ks.map fun j => (j, f j))).get? k = if k ∈ ks then some (f k) else s.get? k := by
  rw [get?_insertAll, ← List.map_reverse, Assoc.get?_map_key]
  simp only [List.mem_reverse]
  split <;> rfl

theorem keys_insertAll_map (s : Selections) (ks : List SelectionKey) (f : SelectionKey → Capture) :
    (s.insertAll (ks.map fun j => (j, f j))).keys = (s.keys ++ ks).eraseDups := by
  rw [keys_insertAll, List.map_map]
  congr 2
  exact List.map_id ks

/-! ## Merging -/

/-- The keys of merged selections: those of the first, then the new ones of the second. -/
theorem keys_merge (s t : Selections) : (s.merge t).keys = (s.keys ++ t.keys).eraseDups :=
  keys_insertAll s t.entries

/-- Of two captures under one key the later one stays. -/
theorem get?_merge (s t : Selections) (k : SelectionKey) :
    (s.merge t).get? k = (t.get? k).or (s.get? k) := by
  rw [merge, get?_insertAll, Assoc.get?_reverse k t.nodup_keys]
  rfl

theorem get?_merge_of_mem {s t : Selections} {k : SelectionKey} (h : k ∈ t.keys) :
    (s.merge t).get? k = t.get? k := by
  obtain ⟨c, hc⟩ := exists_get?_of_mem h
  rw [get?_merge, hc, Option.some_or]

theorem get?_merge_of_not_mem {s t : Selections} {k : SelectionKey} (h : k ∉ t.keys) :
    (s.merge t).get? k = s.get? k := by
  rw [get?_merge, get?_eq_none_iff.2 h, Option.none_or]

@[simp] theorem merge_empty (s : Selections) : s.merge ∅ = s := rfl

@[simp] theorem empty_merge (s : Selections) : merge ∅ s = s := by
  apply ext_get?
  · rw [keys_merge, keys_empty, List.nil_append, eraseDups_of_nodup s.nodup]
  · intro k
    rw [get?_merge, get?_empty, Option.or_none]

/-- Merging is associative, the order of the keys included. -/
theorem merge_assoc (s t u : Selections) : (s.merge t).merge u = s.merge (t.merge u) := by
  apply ext_get?
  · rw [keys_merge, keys_merge, keys_merge, keys_merge, eraseDups_append_left,
      eraseDups_append_right, List.append_assoc]
  · intro k
    rw [get?_merge, get?_merge, get?_merge, get?_merge, Option.or_assoc]

/-- A run of writes is the merge with what it collects. -/
theorem insertAll_eq_merge (s : Selections) (new : List (SelectionKey × Capture)) :
    s.insertAll new = s.merge (ofList new) := by
  apply ext_get?
  · rw [keys_merge, keys_insertAll, ofList, keys_insertAll, eraseDups_append_right]
    rfl
  · intro k
    rw [get?_merge, get?_insertAll, ofList, get?_insertAll]
    exact congrArg (Option.or · _) Option.or_none.symm

theorem keys_seedAbsent (s : Selections) (ks : List SelectionKey) :
    (s.seedAbsent ks).keys = (s.keys ++ ks).eraseDups :=
  keys_insertAll_map s ks fun _ => .absent

theorem get?_seedAbsent (s : Selections) (ks : List SelectionKey) (k : SelectionKey) :
    (s.seedAbsent ks).get? k = if k ∈ ks then some .absent else s.get? k :=
  get?_insertAll_map s ks (fun _ => .absent) k

/-- Marking some of the keys once more changes nothing. -/
theorem seedAbsent_merge_seedAbsent {ks js : List SelectionKey} (h : js ⊆ ks) :
    (empty.seedAbsent ks).merge (empty.seedAbsent js) = empty.seedAbsent ks := by
  apply ext_get?
  · have hsub : (empty.seedAbsent js).keys ⊆ (empty.seedAbsent ks).keys := by
      intro k hk
      rw [keys_seedAbsent, List.mem_eraseDups] at hk ⊢
      exact h hk
    rw [keys_merge, eraseDups_append_of_subset hsub, eraseDups_of_nodup (nodup _)]
  · intro k
    rw [get?_merge, get?_seedAbsent, get?_seedAbsent]
    by_cases hk : k ∈ js
    · rw [if_pos hk, if_pos (h hk)]
      rfl
    · rw [if_neg hk]
      rfl

/-! ## Merging the results of several tests -/

/-- Merging succeeds where all tests did, and then folds their selections. -/
theorem mergeAll_eq_some_iff {s t : Selections} {results : List (Option Selections)} :
    s.mergeAll results = some t ↔
      ∃ rows : List Selections, results = rows.map some ∧ rows.foldl merge s = t := by
  induction results generalizing s with
  | nil => simp
  | cons r results ih =>
    rw [mergeAll_cons]
    cases r with
    | none =>
      constructor
      · intro h
        contradiction
      · rintro ⟨_ | ⟨_, _⟩, h, _⟩ <;> simp at h
    | some u =>
      rw [Option.bind_some, ih]
      constructor
      · rintro ⟨rows, rfl, rfl⟩
        exact ⟨u :: rows, rfl, rfl⟩
      · rintro ⟨_ | ⟨w, rows⟩, h, rfl⟩
        · simp at h
        · rw [List.map_cons, List.cons.injEq, Option.some.injEq] at h
          obtain ⟨rfl, rfl⟩ := h
          exact ⟨rows, rfl, rfl⟩

theorem mergeAll_append (s : Selections) (results more : List (Option Selections)) :
    s.mergeAll (results ++ more) = (s.mergeAll results).bind fun t => t.mergeAll more :=
  List.foldlM_append

/-- What was selected before the tests may be merged after them. -/
theorem mergeAll_eq_map (s : Selections) (results : List (Option Selections)) :
    s.mergeAll results = (mergeAll ∅ results).map s.merge := by
  induction results generalizing s with
  | nil => rfl
  | cons r results ih =>
    rw [mergeAll_cons, mergeAll_cons]
    cases r with
    | none => rfl
    | some t =>
      rw [Option.bind_some, Option.bind_some, empty_merge, ih (s.merge t), ih t, Option.map_map]
      congr 1
      funext u
      exact merge_assoc s t u

/-- Tests that select nothing are merged to nothing. -/
theorem mergeAll_eq_empty {results : List (Option Selections)} (h : ∀ r ∈ results, r = some ∅) :
    mergeAll ∅ results = some ∅ := by
  induction results with
  | nil => rfl
  | cons r results ih =>
    obtain ⟨rfl, hresults⟩ := List.forall_mem_cons.1 h
    rw [mergeAll_cons, Option.bind_some, merge_empty]
    exact ih hresults

/-- The keys of merged selections: those of the first, then the new ones of each in turn. -/
theorem keys_foldl_merge (s : Selections) (rows : List Selections) :
    (rows.foldl merge s).keys = (s.keys ++ rows.flatMap keys).eraseDups := by
  induction rows generalizing s with
  | nil => rw [List.flatMap_nil, List.append_nil, eraseDups_of_nodup s.nodup]; rfl
  | cons t rows ih =>
    rw [List.foldl_cons, ih, keys_merge, eraseDups_append_left, List.flatMap_cons,
      List.append_assoc]

/-- Of the captures that several selections have under one key, the last one stays. -/
theorem get?_foldl_merge (s : Selections) (rows : List Selections) (k : SelectionKey) :
    (rows.foldl merge s).get? k = (rows.filterMap (·.get? k)).getLast?.or (s.get? k) := by
  induction rows generalizing s with
  | nil => rfl
  | cons t rows ih =>
    rw [List.foldl_cons, ih, get?_merge, List.filterMap_cons]
    cases t.get? k with
    | none => rfl
    | some c =>
      rw [List.getLast?_cons]
      cases (rows.filterMap (·.get? k)).getLast? <;> rfl

/-! ## Columns -/

/-- There is a column for each key that some row has. -/
theorem keys_columns (rows : List Selections) :
    (columns rows).keys = (rows.flatMap keys).eraseDups := by
  rw [columns, ofList, keys_insertAll_map]
  exact eraseDups_of_nodup (nodup_eraseDups _)

/-- A column holds what the rows that have its key hold under it. -/
theorem get?_columns (rows : List Selections) (k : SelectionKey) :
    (columns rows).get? k =
      if k ∈ rows.flatMap keys then some (.collected (rows.filterMap (·.get? k))) else none := by
  rw [columns, ofList,
    get?_insertAll_map empty _ (fun j => .collected (rows.filterMap (·.get? j))) k]
  simp only [List.mem_eraseDups]
  rfl

theorem get?_emptyColumns (ks : List SelectionKey) (k : SelectionKey) :
    (emptyColumns ks).get? k = if k ∈ ks then some (.collected []) else none :=
  get?_insertAll_map empty ks (fun _ => .collected []) k

end ShapeMatch.Selections
