import ShapeMatch.Proofs.Selection.Merge
import ShapeMatch.Proofs.Value.Containers
import ShapeMatch.Selection.Record
import ShapeMatch.Value.Property
import Mathlib.Data.List.Forall2
import Mathlib.Data.List.Nodup

/-!
# Proofs: the record of the named selections

Selections become a record by giving each capture the form of a value and then collecting these values
under the names. `Capture.Becomes` says which values a capture may become, whatever makes them: all that
was captured is in them, in its place. Since keys are distinct, so are names, and the record has a field
for each named selection, in the same order, and no other (`Selections.isRecordOf_toValue`).
-/

namespace ShapeMatch

namespace Capture

/-- The capture may become the value. A value that was captured becomes itself, with its identity, and
a collected sequence becomes an array, of whatever identity, of what its captures become, one element
for each of them and in their order. -/
inductive Becomes : Capture → Value → Prop where
  | value (v : Value) : Becomes (value v) v
  | collected {cs : List Capture} {r : Ref} {items : Array Value}
      (h : List.Forall₂ Becomes cs items.toList) : Becomes (collected cs) (.array r items)

theorem becomes_value_iff {v w : Value} : (value v).Becomes w ↔ w = v := by
  constructor
  · intro h
    cases h
    rfl
  · rintro rfl
    exact .value w

mutual

/-- Giving a capture the form of a value makes what it is to become. -/
theorem becomes_toValue (c : Capture) (next : Nat) : c.Becomes (c.toValue.run next).1 := by
  cases c with
  | value v => exact .value v
  | collected cs => exact .collected (forall₂_toValues cs next)

theorem forall₂_toValues (cs : List Capture) (next : Nat) :
    List.Forall₂ Becomes cs ((toValues cs).run next).1 := by
  cases cs with
  | nil => exact .nil
  | cons c cs => exact .cons (becomes_toValue c next) (forall₂_toValues cs (c.toValue.run next).2)

end

end Capture

/-- The value is a record with these names of fields, in this order, and the property under each name
is what is there for it. -/
structure Value.IsRecordOf (w : Value) (names : List String) (get? : String → Option Capture) :
    Prop where
  fields : ∃ r fields, w = .object r fields ∧ fields.toList.map Prod.fst = names
  property (name : String) : Option.Rel Capture.Becomes (get? name) (w.property? name)
  hasProperty (name : String) : w.hasProperty name ↔ name ∈ names

namespace Value.IsRecordOf

variable {w : Value} {names : List String} {get? : String → Option Capture} {name : String}

theorem exists_property? (h : w.IsRecordOf names get?) {c : Capture} (hc : get? name = some c) :
    ∃ u, w.property? name = some u ∧ c.Becomes u := by
  have hrel := h.property name
  rw [hc] at hrel
  cases hw : w.property? name with
  | none =>
    rw [hw] at hrel
    contradiction
  | some u =>
    rw [hw] at hrel
    cases hrel with
    | some hbecomes => exact ⟨u, rfl, hbecomes⟩

/-- The property of a value that was captured is this value. -/
theorem property?_eq (h : w.IsRecordOf names get?) {v : Value}
    (hv : get? name = some (.value v)) : w.property? name = some v := by
  obtain ⟨u, hu, hbecomes⟩ := h.exists_property? hv
  rw [hu, Capture.becomes_value_iff.1 hbecomes]

/-- The property of a collected sequence is an array of what was collected. -/
theorem property?_eq_array (h : w.IsRecordOf names get?) {cs : List Capture}
    (hcs : get? name = some (.collected cs)) :
    ∃ r items, w.property? name = some (.array r items) ∧
      List.Forall₂ Capture.Becomes cs items.toList := by
  obtain ⟨u, hu, hbecomes⟩ := h.exists_property? hcs
  cases hbecomes with
  | collected hitems => exact ⟨_, _, hu, hitems⟩

end Value.IsRecordOf

/-! ## Fields that take their values from a list -/

/-- A look-up under a name finds the value in the place of the capture. -/
theorem rel_get?_zip {entries : List (String × Capture)} {values : List Value}
    (h : List.Forall₂ Capture.Becomes (entries.map Prod.snd) values) (name : String) :
    Option.Rel Capture.Becomes (Assoc.get? (· == ·) name entries)
      (Assoc.get? (· == ·) name ((entries.map Prod.fst).zip values)) := by
  induction entries generalizing values with
  | nil => exact .none
  | cons e entries ih =>
    rw [List.map_cons] at h
    cases h with
    | cons hvalue hvalues =>
      rw [List.map_cons, List.zip_cons_cons, Assoc.get?_cons, Assoc.get?_cons]
      by_cases hname : e.1 == name
      · rw [if_pos hname, if_pos hname]
        exact .some hvalue
      · rw [if_neg hname, if_neg hname]
        exact ih hvalues

theorem Record.property?_ofList (fields : List (String × Value))
    (h : (fields.map Prod.fst).Nodup) (r : Ref) (name : String) :
    (Value.object r (Table.ofList fields)).property? name = Assoc.get? (· == ·) name fields := by
  have hvalid : (Table.ofList fields : Record).Valid := Table.valid_ofList fields
  show ((Table.ofList fields : Record).get? name).map Prod.snd = _
  rw [hvalid.get?_eq_find?, Value.toList_fields, Assoc.collect_of_nodup h]
  rfl

namespace Selections

variable (s : Selections)

/-! ## Named selections -/

theorem map_fst_named : s.named.map Prod.fst = s.keys.filterMap SelectionKey.name? := by
  unfold named keys
  rw [List.map_filterMap, List.filterMap_map]
  congr 1
  funext e
  simp [Option.map_map, Function.comp_def]

theorem nodup_names : (s.keys.filterMap SelectionKey.name?).Nodup := by
  refine List.Nodup.filterMap ?_ s.nodup
  intro j k name hj hk
  cases j <;> cases k <;> simp_all [SelectionKey.name?]

theorem get?_named (name : String) : Assoc.get? (· == ·) name s.named = s.getNamed? name := by
  rw [getNamed?_eq]
  unfold named get?
  induction s.entries with
  | nil => rfl
  | cons e entries ih =>
    obtain ⟨k, c⟩ := e
    rw [Assoc.get?_cons, List.filterMap_cons]
    cases k with
    | anonymous => exact ih
    | named n =>
      have hbeq : (SelectionKey.named n == SelectionKey.named name) = (n == name) := by
        rw [Bool.eq_iff_iff]
        simp
      show Assoc.get? (· == ·) name ((n, c) :: entries.filterMap _) = _
      rw [Assoc.get?_cons, ih, hbeq]

/-! ## The record -/

/-- Selections become a record with a field for each named one. -/
theorem isRecordOf_toValue (next : Nat) :
    (s.toValue.run next).1.IsRecordOf (s.keys.filterMap SelectionKey.name?) s.getNamed? := by
  obtain ⟨values, hvalues⟩ : ∃ values,
      values = ((Capture.toValues (s.named.map Prod.snd)).run next).1 := ⟨_, rfl⟩
  have hbecome : List.Forall₂ Capture.Becomes (s.named.map Prod.snd) values := by
    rw [hvalues]
    exact Capture.forall₂_toValues _ next
  have hlength : (s.named.map Prod.fst).length = values.length := by
    have := hbecome.length_eq
    simpa using this
  have hnames : ((s.named.map Prod.fst).zip values).map Prod.fst =
      s.keys.filterMap SelectionKey.name? := by
    rw [List.map_fst_zip hlength.le, map_fst_named]
  have hnodup : (((s.named.map Prod.fst).zip values).map Prod.fst).Nodup := by
    rw [hnames]
    exact s.nodup_names
  obtain ⟨r, hrecord⟩ : ∃ r, (s.toValue.run next).1 =
      .object r (Table.ofList ((s.named.map Prod.fst).zip values)) := by
    rw [hvalues]
    exact ⟨_, rfl⟩
  have hlist : (Table.ofList ((s.named.map Prod.fst).zip values) : Record).toList =
      (s.named.map Prod.fst).zip values := by
    rw [Value.toList_fields, Assoc.collect_of_nodup hnodup]
  rw [hrecord]
  refine ⟨⟨r, _, rfl, ?_⟩, fun name => ?_, fun name => ?_⟩
  · rw [hlist, hnames]
  · rw [Record.property?_ofList _ hnodup, ← get?_named]
    exact rel_get?_zip hbecome name
  · show (Table.ofList ((s.named.map Prod.fst).zip values) : Record).contains name ↔ _
    rw [Record.view.contains_ofList, ← hnames, List.mem_map]
    rfl

end Selections

end ShapeMatch
