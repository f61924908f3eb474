import ShapeMatch.Selection.Basic

/-!
# Several selections at once

The results of several tests are merged from left to right, so that of two selections under one key the
later one stays, in the place of the earlier one. The selections from the elements of an array are
collected into columns instead, so that none of them is lost.
-/

namespace ShapeMatch.Selections

/-- Merges the results of tests into `s`, one after the other; fails if one of them failed. -/
def mergeAll (s : Selections) (results : List (Option Selections)) : Option Selections :=
  results.foldlM (fun done r => r.map done.merge) s

@[simp] theorem mergeAll_nil (s : Selections) : s.mergeAll [] = some s := rfl

@[simp] theorem mergeAll_cons (s : Selections) (r : Option Selections)
    (results : List (Option Selections)) :
    s.mergeAll (r :: results) = r.bind fun t => (s.merge t).mergeAll results := by
  cases r <;> rfl

/-- The columns of a table whose rows are selections: one sequence for each key that the rows have, in
the order in which the keys first appear. -/
def columns (rows : List Selections) : Selections :=
  .ofList ((rows.flatMap keys).eraseDups.map fun k => (k, .collected (rows.filterMap (·.get? k))))

/-- The columns of a table without rows: an empty sequence under each key. -/
def emptyColumns (keys : List SelectionKey) : Selections :=
  .ofList (keys.map (·, .collected []))

end ShapeMatch.Selections
