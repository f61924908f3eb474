import ShapeMatch.Proofs.Dictionary.Tables
import ShapeMatch.Proofs.Value.Identity

/-!
# Proofs: records, maps and sets are dictionaries

Records are seen by the names of their fields, maps by their keys, and sets by their members, where
keys and members are the same under `sameValueZero`. In each of these views a run of insertions leaves
a `Table.Dictionary`. Names are their own keys in the table. A map or a set finds a value by its
`Value.key`, which tells values apart as long as their identities do.
-/

namespace ShapeMatch

/-- The fields of a record under their names. -/
def Record.view : Table.View (String × Value) String Value where
  label := Prod.fst
  content := Prod.snd
  same := (· == ·)
  key := id
  key_label _ := rfl
  label_overwrite _ _ := rfl
  content_overwrite _ _ := rfl
  same_comm _ _ := BEq.comm

/-- The entries of a map under their keys. -/
def Mapping.view : Table.View (Value × Value) Value Value where
  label := Prod.fst
  content := Prod.snd
  same := Value.sameValueZero
  key := Value.key
  key_label _ := rfl
  label_overwrite _ _ := rfl
  content_overwrite _ _ := rfl
  same_comm _ _ := Bool.eq_iff_iff.2 ⟨Value.sameValueZero_symm, Value.sameValueZero_symm⟩

/-- The members of a set, which stand for themselves and hold nothing. -/
def Members.view : Table.View Value Value Unit where
  label := id
  content _ := ()
  same := Value.sameValueZero
  key := Value.key
  key_label _ := rfl
  label_overwrite _ _ := rfl
  content_overwrite _ _ := rfl
  same_comm _ _ := Bool.eq_iff_iff.2 ⟨Value.sameValueZero_symm, Value.sameValueZero_symm⟩

theorem Record.faithful_view : Record.view.Faithful fun _ => True :=
  fun _ _ _ _ => beq_iff_eq

namespace Value

variable {live : List Value}

theorem Coherent.faithful_mapping (h : Coherent live) : Mapping.view.Faithful (· ∈ live) :=
  fun _ _ hj hk => (h.key_eq_iff hj hk).symm

theorem Coherent.faithful_members (h : Coherent live) : Members.view.Faithful (· ∈ live) :=
  fun _ _ hj hk => (h.key_eq_iff hj hk).symm

/-! ## The contents after a run of insertions -/

theorem toList_fields (fields : List (String × Value)) :
    (Table.ofList fields : Record).toList = Assoc.collect (· == ·) fields := by
  have hpairs : Record.view.pairs (Table.ofList fields) =
      Assoc.collect (· == ·) (fields.map Record.view.pair) :=
    Table.View.pairs_ofList Record.faithful_view fun _ _ => trivial
  have hpair : Record.view.pair = id := rfl
  rwa [Table.View.pairs, hpair, List.map_id, List.map_id] at hpairs

theorem Coherent.toList_entries {entries : List (Value × Value)}
    (h : Coherent (entries.map Prod.fst)) :
    (Table.ofList entries : Mapping).toList = Assoc.collect sameValueZero entries := by
  have hpairs : Mapping.view.pairs (Table.ofList entries) =
      Assoc.collect sameValueZero (entries.map Mapping.view.pair) :=
    Table.View.pairs_ofList h.faithful_mapping fun e he => List.mem_map_of_mem he
  have hpair : Mapping.view.pair = id := rfl
  rwa [Table.View.pairs, hpair, List.map_id, List.map_id] at hpairs

theorem Coherent.toList_members {members : List Value} (h : Coherent members) :
    (Table.ofList members : Members).toList = members.eraseDupsBy sameValueZero := by
  have hdict : Table.Dictionary Members.view (· ∈ members) members (Table.ofList members) :=
    Table.View.dictionary_ofList h.faithful_members fun _ hm => hm
  have hlabels := hdict.labels
  have hlabel : Members.view.label = id := rfl
  have hsame : Members.view.same = sameValueZero := rfl
  rwa [hlabel, hsame, List.map_id, List.map_id] at hlabels

/-- **Containers are ordered dictionaries.** Whatever is inserted into an empty record, map or set,
the entries and the index are those of an ordered dictionary, whose labels are names for a record,
and values up to `sameValueZero` for a map or a set. -/
theorem dictionaries_of_insertions (h : Coherent live) :
    (∀ fields : List (String × Value),
      Table.Dictionary Record.view (fun _ => True) fields (Table.ofList fields)) ∧
    (∀ entries : List (Value × Value), (∀ e ∈ entries, e.1 ∈ live) →
      Table.Dictionary Mapping.view (· ∈ live) entries (Table.ofList entries)) ∧
    ∀ members : List Value, (∀ m ∈ members, m ∈ live) →
      Table.Dictionary Members.view (· ∈ live) members (Table.ofList members) := by
  refine ⟨fun fields => ?_, fun entries hentries => ?_, fun members hmembers => ?_⟩
  · exact Table.View.dictionary_ofList Record.faithful_view fun _ _ => trivial
  · exact Table.View.dictionary_ofList h.faithful_mapping hentries
  · exact Table.View.dictionary_ofList h.faithful_members hmembers

/-- Entries in which both zeros, both NaNs and a container come as keys, some of them again. -/
def sampleEntries : List (Value × Value) :=
  [(number ⟨0x8000000000000000⟩, null), (array ⟨0⟩ #[], bool true), (number .nan, undefined),
    (number .zero, bool false), (number ⟨0xfff0000000000001⟩, null)]

theorem dictionaries_of_sampleEntries :
    Coherent sampleLive ∧ (∀ e ∈ sampleEntries, e.1 ∈ sampleLive) ∧
      (Table.ofList sampleEntries : Mapping).toList.map Prod.fst =
        [number ⟨0x8000000000000000⟩, array ⟨0⟩ #[], number .nan] ∧
      ((Table.ofList sampleEntries : Mapping).get? (number .zero).key).map Prod.snd =
        some (bool false) ∧
      (Table.ofList sampleEntries : Mapping).size = 3 := by
  have hlive : Coherent sampleLive := coherent_of_nodup (by decide)
  have hentries : ∀ e ∈ sampleEntries, e.1 ∈ sampleLive := by simp [sampleEntries, sampleLive]
  have hdict := (dictionaries_of_insertions hlive).2.1 sampleEntries hentries
  refine ⟨hlive, hentries, ?_, ?_, ?_⟩
  · exact hdict.labels
  · exact hdict.get? (k := number .zero) (by simp [sampleLive])
  · exact hdict.size

end Value

end ShapeMatch
