import ShapeMatch.Proofs.Selection.Merge
import Mathlib.Data.List.Induction

/-!
# Proofs: columns are filled cell by cell

`Selections.columns` says of each key at once what its column is. The columns can also be filled in one
pass over the rows: every capture goes to the end of the column of its key, and the first one under a
key starts the column (`Sheet.fill`). Both give the same columns in the same order
(`Selections.entries_columns`).
-/

namespace ShapeMatch

/-- Columns that are being filled, in the order in which they were started. -/
abbrev Sheet := List (SelectionKey × List Capture)

namespace Sheet

/-- Puts a capture at the end of the column of its key; if there is none yet, the capture starts it. -/
def add (k : SelectionKey) (c : Capture) : Sheet → Sheet
  | [] => [(k, [c])]
  | (j, column) :: sheet =>
    if j = k then (j, column ++ [c]) :: sheet else (j, column) :: add k c sheet

/-- The columns of cells that are filled in one after the other. -/
def fill (cells : List (SelectionKey × Capture)) : Sheet :=
  cells.foldl (fun sheet e => sheet.add e.1 e.2) []

/-- The sheet as captures under keys: each column is a collected sequence. -/
def captures (sheet : Sheet) : List (SelectionKey × Capture) :=
  sheet.map fun e => (e.1, .collected e.2)

/-- What stands in the cells of one key. -/
def under (k : SelectionKey) (cells : List (SelectionKey × Capture)) : List Capture :=
  (cells.filter (·.1 == k)).map Prod.snd

variable (cells : List (SelectionKey × Capture))

/-! ## What a sheet holds -/

theorem under_append (k : SelectionKey) (more : List (SelectionKey × Capture)) :
    under k (cells ++ more) = under k cells ++ under k more := by
  rw [under, List.filter_append, List.map_append]
  rfl

theorem under_of_not_mem {k : SelectionKey} (h : k ∉ cells.map Prod.fst) : under k cells = [] := by
  rw [under, List.map_eq_nil_iff, List.filter_eq_nil_iff]
  intro e he hkey
  exact h (eq_of_beq hkey ▸ List.mem_map_of_mem he)

/-- To add a cell is to write its column anew. -/
theorem add_eq_put (k : SelectionKey) (c : Capture) (sheet : Sheet) :
    sheet.add k c =
      Assoc.put (· == ·) k ((Assoc.get? (· == ·) k sheet).getD [] ++ [c]) sheet := by
  induction sheet with
  | nil => rfl
  | cons e sheet ih =>
    obtain ⟨j, column⟩ := e
    rw [add, Assoc.put, Assoc.get?_cons]
    by_cases hj : j = k
    · rw [if_pos hj, if_pos (beq_iff_eq.2 hj), if_pos (beq_iff_eq.2 hj)]
      rfl
    · rw [if_neg hj, if_neg (mt beq_iff_eq.1 hj), if_neg (mt beq_iff_eq.1 hj), ih]

theorem fill_append (e : SelectionKey × Capture) :
    fill (cells ++ [e]) = (fill cells).add e.1 e.2 := by
  rw [fill, List.foldl_append]
  rfl

/-- Columns stand in the order of their first cells. -/
theorem map_fst_fill : (fill cells).map Prod.fst = (cells.map Prod.fst).eraseDups := by
  induction cells using List.reverseRecOn with
  | nil => rfl
  | append_singleton cells e ih =>
    have hnodup : ((fill cells).map Prod.fst).Nodup := ih ▸ nodup_eraseDups _
    rw [fill_append, add_eq_put, Assoc.map_fst_put_eq_eraseDups e.1 _ hnodup, ih,
      eraseDups_append_left, List.map_append, List.map_singleton]

/-- A column holds the cells of its key. -/
theorem get?_fill (k : SelectionKey) :
    Assoc.get? (· == ·) k (fill cells) =
      if k ∈ cells.map Prod.fst then some (under k cells) else none := by
  induction cells using List.reverseRecOn with
  | nil => rfl
  | append_singleton cells e ih =>
    rw [fill_append, add_eq_put, Assoc.get?_put_of_equivalence Assoc.equivalence_beq, under_append]
    by_cases he : e.1 = k
    · subst he
      have hmem : e.1 ∈ (cells ++ [e]).map Prod.fst := by simp
      have hcolumn : (Assoc.get? (· == ·) e.1 (fill cells)).getD [] = under e.1 cells := by
        rw [ih]
        split
        · rfl
        · rename_i hnot
          rw [under_of_not_mem cells hnot, Option.getD_none]
      have hcell : under e.1 [e] = [e.2] := by simp [under]
      rw [if_pos (beq_self_eq_true e.1), if_pos hmem, hcolumn, hcell]
    · have hmem : k ∈ (cells ++ [e]).map Prod.fst ↔ k ∈ cells.map Prod.fst := by
        rw [List.map_append, List.mem_append, List.map_singleton, List.mem_singleton]
        exact or_iff_left (Ne.symm he)
      have hcell : under k [e] = [] := under_of_not_mem [e] (by simpa using Ne.symm he)
      rw [if_neg (mt beq_iff_eq.1 he), ih, hcell, List.append_nil]
      simp only [hmem]

/-- The columns of the cells, one after the other. -/
theorem captures_fill :
    (fill cells).captures =
      (cells.map Prod.fst).eraseDups.map fun k => (k, .collected (under k cells)) := by
  have hkeys : (fill cells).captures.map Prod.fst = (cells.map Prod.fst).eraseDups := by
    rw [captures, List.map_map, ← map_fst_fill]
    rfl
  refine Assoc.ext_get? ?_ (hkeys ▸ nodup_eraseDups _) fun k => ?_
  · rw [hkeys, List.map_map]
    exact (List.map_id _).symm
  · rw [captures, Assoc.get?_map_snd, get?_fill, Assoc.get?_map_key]
    simp only [List.mem_eraseDups]
    split <;> rfl

end Sheet

namespace Selections

/-- The cells of several rows under one key are what the rows that have the key hold under it. -/
theorem under_flatMap_entries (rows : List Selections) (k : SelectionKey) :
    Sheet.under k (rows.flatMap entries) = rows.filterMap (·.get? k) := by
  induction rows with
  | nil => rfl
  | cons s rows ih =>
    have hrow : Sheet.under k s.entries = (s.get? k).toList :=
      Assoc.map_snd_filter k s.nodup_keys
    rw [List.flatMap_cons, Sheet.under_append, ih, hrow, List.filterMap_cons]
    cases s.get? k <;> rfl

/-- **The columns of the rows are what filling them in cell by cell gives.** -/
theorem entries_columns (rows : List Selections) :
    (columns rows).entries = (Sheet.fill (rows.flatMap entries)).captures := by
  have hkeys : (rows.flatMap entries).map Prod.fst = rows.flatMap keys := List.map_flatMap
  have hcolumns : (rows.flatMap keys).eraseDups.map (fun k =>
      (k, Capture.collected (rows.filterMap (·.get? k)))) =
        (Sheet.fill (rows.flatMap entries)).captures := by
    simp only [Sheet.captures_fill, hkeys, under_flatMap_entries]
  have hnodup : ((Sheet.fill (rows.flatMap entries)).captures.map Prod.fst).Nodup := by
    rw [← hcolumns, List.map_map]
    exact (List.map_id _).symm ▸ nodup_eraseDups _
  rw [columns, hcolumns]
  exact Assoc.collect_of_nodup hnodup

end Selections

end ShapeMatch
