import ShapeMatch.Proofs.Selection.Record
import Mathlib.Logic.Function.Basic

/-!
# Proofs: selections over a run of calls

Some selections are kept in registers. A run of calls writes to them, merges one into another and
collects new ones (`Selections.Call`). Beside the registers stand plain lists of the writes that went
into them, where a merge brings along all writes of its source (`Selections.Call.record`). Each call
keeps it true that a register holds what collecting its writes gives (`Selections.Call.apply_ofList`),
so what holds of collected writes holds after every run.

Collected writes are an ordered dictionary (`Selections.isDictionaryOf_ofList`): each key stands in the
place of its first write with the capture of its last one.
-/

namespace ShapeMatch

namespace Selections

/-- Captures written under keys, from the first write to the last. -/
abbrev Writes := List (SelectionKey × Capture)

/-! ## The last write under a key -/

/-- Under the key `k`, the capture `c` was written last. -/
def LastWrite (writes : Writes) (k : SelectionKey) (c : Capture) : Prop :=
  ∃ before after, writes = before ++ (k, c) :: after ∧ k ∉ after.map Prod.fst

theorem get?_reverse_eq_some_iff {writes : Writes} {k : SelectionKey} {c : Capture} :
    Assoc.get? (· == ·) k writes.reverse = some c ↔ LastWrite writes k c := by
  unfold Assoc.get?
  rw [Option.map_eq_some_iff]
  simp only [List.find?_eq_some_iff_append]
  constructor
  · rintro ⟨⟨j, d⟩, ⟨hkey, after, before, hreverse, hafter⟩, rfl⟩
    obtain rfl : j = k := by simpa using hkey
    refine ⟨before.reverse, after.reverse, ?_, fun hmem => ?_⟩
    · rw [← List.reverse_reverse writes, hreverse]
      simp
    · obtain ⟨e, he, hej⟩ := List.mem_map.1 hmem
      have hne := hafter e (List.mem_reverse.1 he)
      simp [hej] at hne
  · rintro ⟨before, after, rfl, hafter⟩
    refine ⟨(k, c), ⟨by simp, after.reverse, before.reverse, by simp, fun e he => ?_⟩, rfl⟩
    have hne : e.1 ≠ k := fun h => hafter (h ▸ List.mem_map_of_mem (List.mem_reverse.1 he))
    simpa using hne

/-- Where the keys are distinct, each write is the last one under its key. -/
theorem lastWrite_iff_mem {writes : Writes} (h : (writes.map Prod.fst).Nodup) {k : SelectionKey}
    {c : Capture} : LastWrite writes k c ↔ (k, c) ∈ writes := by
  constructor
  · rintro ⟨before, after, rfl, -⟩
    exact List.mem_append_right before List.mem_cons_self
  · intro hmem
    obtain ⟨before, after, rfl⟩ := List.append_of_mem hmem
    rw [List.map_append, List.map_cons] at h
    exact ⟨before, after, rfl, (List.nodup_cons.1 h.of_append_right).1⟩

theorem get?_eq_some_iff {s : Selections} {k : SelectionKey} {c : Capture} :
    s.get? k = some c ↔ (k, c) ∈ s.entries := by
  unfold get?
  rw [← Assoc.get?_reverse k s.nodup_keys, get?_reverse_eq_some_iff, lastWrite_iff_mem s.nodup_keys]

/-! ## Dictionaries of writes -/

/-- The entries are an ordered dictionary of the writes, each of the look-ups finds the entry under its
key, and the record has the named entries as its fields. -/
structure IsDictionaryOf (s : Selections) (writes : Writes) : Prop where
  nodup : s.keys.Nodup
  keys : s.keys = (writes.map Prod.fst).eraseDups
  entries (k : SelectionKey) (c : Capture) : (k, c) ∈ s.entries ↔ LastWrite writes k c
  get? (k : SelectionKey) (c : Capture) : s.get? k = some c ↔ (k, c) ∈ s.entries
  getNamed? (name : String) (c : Capture) :
    s.getNamed? name = some c ↔ (.named name, c) ∈ s.entries
  anonymous? (c : Capture) : s.anonymous? = some c ↔ (.anonymous, c) ∈ s.entries
  toValue (next : Nat) :
    (s.toValue.run next).1.IsRecordOf (s.keys.filterMap SelectionKey.name?) s.getNamed?

theorem isDictionaryOf_ofList (writes : Writes) : (ofList writes).IsDictionaryOf writes where
  nodup := (ofList writes).nodup
  keys := by
    rw [ofList, keys_insertAll]
    rfl
  entries k c := by
    have hget : (ofList writes).get? k = Assoc.get? (· == ·) k writes.reverse := by
      rw [ofList, get?_insertAll]
      exact Option.or_none
    rw [← get?_eq_some_iff, hget, get?_reverse_eq_some_iff]
  get? _ _ := get?_eq_some_iff
  getNamed? name c := by
    rw [getNamed?_eq, get?_eq_some_iff]
  anonymous? _ := get?_eq_some_iff
  toValue := (ofList writes).isRecordOf_toValue

/-- The selections hold what `t` has under its keys and what `s` has under the other ones, the keys of
`s` first. -/
structure IsMergeOf (u s t : Selections) : Prop where
  keys : u.keys = s.keys ++ t.keys.filter (· ∉ s.keys)
  right (k : SelectionKey) (h : k ∈ t.keys) : u.get? k = t.get? k
  left (k : SelectionKey) (h : k ∉ t.keys) : u.get? k = s.get? k

theorem isMergeOf_merge (s t : Selections) : (s.merge t).IsMergeOf s t where
  keys := by
    rw [keys_merge, eraseDups_append_filter, eraseDups_of_nodup s.nodup, eraseDups_of_nodup t.nodup]
    simp
  right _ := get?_merge_of_mem
  left _ := get?_merge_of_not_mem

/-! ## Runs of calls -/

/-- A call on selections that are kept in registers. To collect is to start a register over. -/
inductive Call where
  | insert (r : Nat) (k : SelectionKey) (c : Capture)
  | merge (r source : Nat)
  | seedAbsent (r : Nat) (keys : List SelectionKey)
  | collect (r : Nat) (writes : Writes)

namespace Call

/-- The registers after a call. -/
def apply (regs : Nat → Selections) : Call → Nat → Selections
  | insert r k c => Function.update regs r ((regs r).insert k c)
  | merge r source => Function.update regs r ((regs r).merge (regs source))
  | seedAbsent r keys => Function.update regs r ((regs r).seedAbsent keys)
  | collect r writes => Function.update regs r (ofList writes)

/-- The writes that went into each register, after a call. -/
def record (logs : Nat → Writes) : Call → Nat → Writes
  | insert r k c => Function.update logs r (logs r ++ [(k, c)])
  | merge r source => Function.update logs r (logs r ++ logs source)
  | seedAbsent r keys => Function.update logs r (logs r ++ keys.map (·, .absent))
  | collect r writes => Function.update logs r writes

/-- The registers after a run of calls, from empty ones. -/
def run (calls : List Call) : Nat → Selections := calls.foldl apply fun _ => ∅

/-- The writes that went into each register over a run of calls. -/
def history (calls : List Call) : Nat → Writes := calls.foldl record fun _ => []

end Call

/-- Writing to one register adds to the writes of this register. -/
theorem update_insertAll (logs : Nat → Writes) (r : Nat) (later : Writes) :
    Function.update (ofList ∘ logs) r ((ofList (logs r)).insertAll later) =
      ofList ∘ Function.update logs r (logs r ++ later) := by
  have hwrite : (ofList (logs r)).insertAll later = ofList (logs r ++ later) :=
    (insertAll_append empty (logs r) later).symm
  rw [Function.comp_update, hwrite]

/-- **A call keeps it true that registers hold their writes.** -/
theorem Call.apply_ofList (logs : Nat → Writes) (call : Call) :
    call.apply (ofList ∘ logs) = ofList ∘ call.record logs := by
  cases call with
  | insert r k c => exact update_insertAll logs r [(k, c)]
  | merge r source =>
    have hmerge : (ofList (logs r)).merge (ofList (logs source)) =
        (ofList (logs r)).insertAll (logs source) := by
      rw [insertAll_eq_merge]
    show Function.update (ofList ∘ logs) r ((ofList (logs r)).merge (ofList (logs source))) = _
    rw [hmerge, update_insertAll]
    rfl
  | seedAbsent r keys => exact update_insertAll logs r (keys.map (·, .absent))
  | collect r writes =>
    unfold apply record
    rw [Function.comp_update]

/-- **After a run of calls, each register holds the writes that went into it.** -/
theorem Call.run_eq_ofList (calls : List Call) : run calls = ofList ∘ history calls := by
  unfold run history
  have hrun : ∀ logs : Nat → Writes,
      calls.foldl apply (ofList ∘ logs) = ofList ∘ calls.foldl record logs := by
    induction calls with
    | nil =>
      intro logs
      rfl
    | cons call calls ih =>
      intro logs
      rw [List.foldl_cons, List.foldl_cons, apply_ofList, ih]
  exact hrun fun _ => []

/-- **Selections are an ordered dictionary over every run of calls.** Their keys are distinct and in the
order of their first writes, each with its last capture; the look-ups find the entries, and the record
has a field for each named one. Merging keeps what is there, except under the keys of the source. -/
theorem isDictionaryOf_run (calls : List Call) :
    (∀ r, (Call.run calls r).IsDictionaryOf (Call.history calls r)) ∧
      ∀ r source, (Call.run (calls ++ [.merge r source]) r).IsMergeOf (Call.run calls r)
        (Call.run calls source) := by
  constructor
  · intro r
    rw [Call.run_eq_ofList]
    exact isDictionaryOf_ofList (Call.history calls r)
  · intro r source
    have hmerge : Call.run (calls ++ [.merge r source]) r =
        (Call.run calls r).merge (Call.run calls source) := by
      unfold Call.run
      rw [List.foldl_append]
      exact Function.update_self ..
    rw [hmerge]
    exact isMergeOf_merge _ _

end Selections

end ShapeMatch
