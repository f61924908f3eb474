import ShapeMatch.Proofs.Pattern.SelectedKeys

/-!
# Proofs: columns and elements

An array pattern collects what its elements select into one column for each key. A column has no
mark for an element that selects nothing under its key, so it is aligned with the elements only if
every element selects that key (`Pattern.aligned_iff`). By the declared keys this can fail for one
reason alone: an element is, or contains, an empty set that is tested by a single matcher
(`Pattern.Starved`).
-/

namespace ShapeMatch.Pattern

/-- The columns `s` are those of the declared keys, and each has one entry for each of the elements
`vs`: what the pattern selects from this element under the key. -/
structure Aligned (p : Pattern) (vs : List Value) (s : Selections) : Prop where
  /-- There are columns under the declared keys and no other. -/
  mem_keys_iff (k : SelectionKey) : k ∈ s.keys ↔ k ∈ p.keys
  /-- Each column lists the captures of the elements, with none left out. -/
  column {k : SelectionKey} (hk : k ∈ p.keys) : ∃ items, s.get? k = some (.collected items) ∧
    vs.map (fun v => (p.selections v).get? k) = items.map some

section Array

variable {p : Pattern} {h r : Ref} {vs : Array Value} {s : Selections}

/-- A match of an array pattern matches all elements. -/
theorem run_element (hs : (array h p).run (.array r vs) = some s) {v : Value} (hv : v ∈ vs.toList) :
    p.run v = some (p.selections v) := by
  obtain ⟨vs⟩ := vs
  cases vs with
  | nil => contradiction
  | cons w ws =>
    rw [run_eq_plan] at hs
    obtain ⟨rows, hrows, -⟩ := Plan.rows_of_run_each hs
    have hmem : p.run v ∈ ((w :: ws).map (p, ·)).map fun t => t.1.run t.2 := by
      rw [List.map_map]
      exact List.mem_map_of_mem hv
    rw [hrows] at hmem
    obtain ⟨u, -, hu⟩ := List.mem_map.1 hmem
    rw [selections, ← hu]
    rfl

/-- The columns of a match are the columns of what the elements select; on the empty array there is
an empty column for each declared key. -/
theorem eq_columns_of_run (hs : (array h p).run (.array r vs) = some s) :
    s = if vs.toList = [] then .emptyColumns p.keys else .columns (vs.toList.map p.selections) := by
  have element {v : Value} (hv : v ∈ vs.toList) := run_element hs hv
  obtain ⟨vs⟩ := vs
  cases vs with
  | nil =>
    obtain rfl := Option.some.inj hs
    rfl
  | cons w ws =>
    rw [run_eq_plan] at hs
    obtain ⟨rows, hrows, rfl⟩ := Plan.rows_of_run_each hs
    rw [if_neg (List.cons_ne_nil w ws)]
    have hsome : ((w :: ws).map p.selections).map some = rows.map some := by
      rw [← hrows, List.map_map, List.map_map]
      exact List.map_congr_left fun v hv => (element hv).symm
    rw [List.map_inj_right (fun _ _ => Option.some.inj)] at hsome
    rw [hsome]

/-- A column holds what the elements that select its key select under it, and there is one if some
element does. -/
theorem get?_array (hs : (array h p).run (.array r vs) = some s) (k : SelectionKey) :
    s.get? k =
      if vs.toList = [] ∧ k ∈ p.keys ∨ ∃ v ∈ vs.toList, k ∈ (p.selections v).keys then
        some (.collected (vs.toList.filterMap fun v => (p.selections v).get? k))
      else none := by
  rw [eq_columns_of_run hs]
  by_cases hempty : vs.toList = []
  · rw [if_pos hempty, Selections.get?_emptyColumns, hempty]
    simp
  · rw [if_neg hempty, Selections.get?_columns, List.flatMap_map, List.filterMap_map]
    simp only [List.mem_flatMap, hempty, false_and, false_or]
    rfl

theorem map_eq_map_some_filterMap {α β : Type} {f : α → Option β} {l : List α}
    (hl : ∀ a ∈ l, (f a).isSome) : l.map f = (l.filterMap f).map some := by
  induction l with
  | nil => rfl
  | cons a l ih =>
    obtain ⟨b, hb⟩ := Option.isSome_iff_exists.1 (hl a List.mem_cons_self)
    rw [List.map_cons, List.filterMap_cons, hb, List.map_cons,
      ih fun a' ha' => hl a' (List.mem_cons_of_mem a ha')]

/-- If all elements select a declared key, its column lists what they select. -/
theorem get?_array_of_selected (hs : (array h p).run (.array r vs) = some s) {k : SelectionKey}
    (hk : k ∈ p.keys) (hall : ∀ v ∈ vs.toList, k ∈ (p.selections v).keys) :
    s.get? k = some (.collected (vs.toList.filterMap fun v => (p.selections v).get? k)) := by
  rw [get?_array hs k, if_pos]
  cases hvs : vs.toList with
  | nil => exact .inl ⟨rfl, hk⟩
  | cons v _ => exact .inr ⟨v, List.mem_cons_self, hall v (hvs ▸ List.mem_cons_self)⟩

/-- Columns are aligned with the elements exactly if every element selects all declared keys. -/
theorem aligned_iff (hp : p.CustomFree) (hs : (array h p).run (.array r vs) = some s) :
    Aligned p vs.toList s ↔ ∀ v ∈ vs.toList, ∀ k ∈ p.keys, k ∈ (p.selections v).keys := by
  constructor
  · intro ha v hv k hk
    obtain ⟨items, -, hitems⟩ := ha.column hk
    have hmem : (p.selections v).get? k ∈ items.map some := hitems ▸ List.mem_map_of_mem hv
    obtain ⟨c, -, hc⟩ := List.mem_map.1 hmem
    rw [← Selections.isSome_get?_iff, ← hc]
    rfl
  · intro hall
    refine ⟨fun k => ⟨fun hk => ?_, fun hk => ?_⟩, fun {k} hk => ?_⟩
    · rw [← Selections.isSome_get?_iff, get?_array hs k] at hk
      split at hk
      · rename_i hcol
        rcases hcol with ⟨-, hk⟩ | ⟨v, hv, hk⟩
        · exact hk
        · exact keys_subset_of_run hp (run_element hs hv) hk
      · contradiction
    · rw [← Selections.isSome_get?_iff, get?_array_of_selected hs hk fun v hv => hall v hv k hk]
      rfl
    · refine ⟨_, get?_array_of_selected hs hk fun v hv => hall v hv k hk, ?_⟩
      apply map_eq_map_some_filterMap
      intro v hv
      exact Selections.isSome_get?_iff.2 (hall v hv k hk)

/-- An element that is not starved selects all declared keys. -/
theorem mem_keys_of_not_starved (hp : p.CustomFree) (hs : (array h p).run (.array r vs) = some s)
    {v : Value} (hv : v ∈ vs.toList) (hst : ¬ p.Starved v) {k : SelectionKey} (hk : k ∈ p.keys) :
    k ∈ (p.selections v).keys := by
  rw [keys_of_run hp hst (run_element hs hv), List.mem_eraseDups]
  exact hk

/-- **When columns are aligned.** The columns that an array pattern collects are aligned with the
elements exactly if every element selects all declared keys, which it does unless it is starved. In
any case a column holds, in order, what those elements select that select its key. -/
theorem columns_of_array (hp : p.CustomFree) (hs : (array h p).run (.array r vs) = some s) :
    (Aligned p vs.toList s ↔ ∀ v ∈ vs.toList, ∀ k ∈ p.keys, k ∈ (p.selections v).keys) ∧
    ((∀ v ∈ vs.toList, ¬ p.Starved v) → Aligned p vs.toList s) ∧
    ∀ k, s.get? k =
      if vs.toList = [] ∧ k ∈ p.keys ∨ ∃ v ∈ vs.toList, k ∈ (p.selections v).keys then
        some (.collected (vs.toList.filterMap fun v => (p.selections v).get? k))
      else none := by
  refine ⟨aligned_iff hp hs, fun hst => ?_, get?_array hs⟩
  rw [aligned_iff hp hs]
  intro v hv k hk
  exact mem_keys_of_not_starved hp hs hv (hst v hv) hk

end Array

/-- Rows of different kinds: nothing there, and all there. -/
def sampleRows : Array Value :=
  #[.array ⟨9⟩ #[.undefined, .array ⟨10⟩ #[], .null],
    .array ⟨11⟩ #[.null, .array ⟨12⟩ #[.null, .bool true], .undefined]]

theorem columns_of_array_sampleRows :
    sampleRow.CustomFree ∧ (array ⟨13⟩ sampleRow).isMatch (.array ⟨14⟩ sampleRows) ∧
      Aligned sampleRow sampleRows.toList
        ((array ⟨13⟩ sampleRow).selections (.array ⟨14⟩ sampleRows)) := by
  have hp : sampleRow.CustomFree := by decide
  have hlone : sampleRow.LoneMatcherFree := by decide
  have hm : (array ⟨13⟩ sampleRow).isMatch (.array ⟨14⟩ sampleRows) := by decide +kernel
  have hs := run_of_isMatch hm
  exact ⟨hp, hm, (columns_of_array hp hs).2.1 fun v _ => hlone.not_starved v⟩

/-- The members of a set of one value. -/
def singleMember (v : Value) : Members := ⟨#[v], Std.HashMap.insert ∅ v.key 0⟩

theorem ofList_singleMember (v : Value) : Table.ofList [v] = singleMember v := by
  show (Table.exchange Table.empty v).2 = singleMember v
  rw [Table.exchange]
  simp only [Table.empty, Std.HashMap.getElem?_empty]
  rfl

/-- Two sets, the first one empty. -/
def sampleSets : Array Value := #[.set ⟨3⟩ ∅, .set ⟨4⟩ (.ofList [.bool true])]

/-- The empty set matches a single matcher without a selection, so there is a column of one entry
for an array of two elements. -/
theorem not_aligned_of_empty_set :
    (set [select ⟨0⟩ (.named "x")]).CustomFree ∧
      (array ⟨1⟩ (set [select ⟨0⟩ (.named "x")])).isMatch (.array ⟨2⟩ sampleSets) ∧
      ((array ⟨1⟩ (set [select ⟨0⟩ (.named "x")])).selections (.array ⟨2⟩ sampleSets)).equal
        (.ofList [(.named "x", .collected [.value (.bool true)])]) ∧
      ¬ Aligned (set [select ⟨0⟩ (.named "x")]) sampleSets.toList
        ((array ⟨1⟩ (set [select ⟨0⟩ (.named "x")])).selections (.array ⟨2⟩ sampleSets)) := by
  have hp : (set [select ⟨0⟩ (.named "x")]).CustomFree := by decide
  have hm : (array ⟨1⟩ (set [select ⟨0⟩ (.named "x")])).isMatch (.array ⟨2⟩ sampleSets) := by
    rw [sampleSets, ofList_singleMember]
    decide +kernel
  have hnone : ((set [select ⟨0⟩ (.named "x")]).selections (.set ⟨3⟩ ∅)).keys = [] := by
    decide +kernel
  refine ⟨hp, hm, ?_, fun ha => ?_⟩
  · rw [sampleSets, ofList_singleMember]
    decide +kernel
  · have hall := (aligned_iff hp (run_of_isMatch hm)).1 ha
    have hkey := hall (.set ⟨3⟩ ∅) List.mem_cons_self (.named "x") (by decide)
    rw [hnone] at hkey
    contradiction

end ShapeMatch.Pattern
