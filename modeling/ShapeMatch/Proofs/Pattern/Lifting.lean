import ShapeMatch.Pattern.Lift
import ShapeMatch.Pattern.Matching
import ShapeMatch.Proofs.Selection.Merge
import ShapeMatch.Proofs.Value.DeepEquality

/-!
# Proofs: a lifted value matches its equals

The pattern of a value asks at each place for the pattern of the value there, and a deeply equal value
has an equal one at that place. So a lifted value matches whatever it equals, by induction on the value.
The pattern has no selection in it, and selects nothing.
-/

namespace ShapeMatch

open Value (Place equal_iff mem_parts_of_at?)

/-- The property that a field pattern is tested on is the value at the place of the field. -/
theorem Value.part?_eq_some {v w : Value} {name : String} {mayMiss : Bool} (hv : v.IsIndexed)
    (h : v.at? (.field name) = some w) : v.part? name mayMiss = some w := by
  have hproperty {fields : Record} (hf : fields.Valid)
      (hw : (fields.get? name).map Prod.snd = some w) : fields.contains name = true := by
    rw [hf.contains_eq_isSome_get?, ← Option.isSome_map, hw, Option.isSome_some]
  cases v <;> try contradiction
  case object r fields | inst r c fields =>
    have hw : (fields.get? name).map Prod.snd = some w := h
    rw [part?, hasProperty, property?, hproperty hv hw, hw]
    rfl

namespace Pattern

theorem liftItems_eq_map (vs : List Value) : liftItems vs = vs.map lift := by
  induction vs with
  | nil => rfl
  | cons v vs ih => rw [liftItems, ih, List.map_cons]

theorem liftFields_eq_map (fields : List (String × Value)) :
    liftFields fields = fields.map fun f => (f.1, lift f.2) := by
  induction fields with
  | nil => rfl
  | cons f fields ih => rw [liftFields, ih, List.map_cons]

theorem liftEntries_eq_map (entries : List (Value × Value)) :
    liftEntries entries = entries.map fun e => (e.1, lift e.2) := by
  induction entries with
  | nil => rfl
  | cons e entries ih => rw [liftEntries, ih, List.map_cons]

/-! ## One level -/

section Level

variable {r r' : Ref} {w : Value}

theorem run_lift_array {xs ys : Array Value} (hsize : xs.size = ys.size)
    (h : ∀ (i : Nat) v, xs[i]? = some v → ∃ w, ys[i]? = some w ∧ (lift v).run w = some ∅) :
    (lift (.array r xs)).run (.array r' ys) = some ∅ := by
  obtain ⟨xs⟩ := xs
  have hlength : (liftItems xs).toArray.size = ys.size := by
    rw [List.size_toArray, liftItems_eq_map, List.length_map]
    exact hsize
  rw [lift, run, Value.items?, Option.bind_eq_bind, Option.bind_some, if_pos hlength]
  show runItems (liftItems xs) ys.toList ∅ = some ∅
  rw [runItems_eq, liftItems_eq_map, List.zipWith_map_left]
  refine Selections.mergeAll_eq_empty fun result hresult => ?_
  obtain ⟨i, hi⟩ := List.mem_iff_getElem?.1 hresult
  obtain ⟨v, w, hv, hw, rfl⟩ := List.getElem?_zipWith_eq_some.1 hi
  obtain ⟨u, hu, hrun⟩ := h i v (by simpa using hv)
  rw [Array.getElem?_toList, hu] at hw
  obtain rfl := Option.some.inj hw
  exact hrun

theorem run_lift_fields {fields : List (String × Value)} (hw : w.IsIndexed)
    (hobject : w.isObjectLike)
    (h : ∀ f ∈ fields, ∃ u, w.at? (.field f.1) = some u ∧ (lift f.2).run u = some ∅) :
    (object (liftFields fields)).run w = some ∅ := by
  rw [run, if_pos hobject, runFields_eq, liftFields_eq_map, List.map_map]
  refine Selections.mergeAll_eq_empty (List.forall_mem_map.2 fun f hf => ?_)
  obtain ⟨u, hu, hrun⟩ := h f hf
  rw [Function.comp_apply, Value.part?_eq_some hw hu, Option.bind_some]
  exact hrun

theorem run_lift_map {es ds : Mapping}
    (h : ∀ e ∈ es.toList, ∃ u, (ds.get? e.1.key).map Prod.snd = some u ∧ (lift e.2).run u = some ∅) :
    (lift (.map r es)).run (.map r' ds) = some ∅ := by
  rw [lift, run, Value.entries?, Option.bind_eq_bind, Option.bind_some, runEntries_eq,
    liftEntries_eq_map, List.map_map]
  refine Selections.mergeAll_eq_empty (List.forall_mem_map.2 fun e he => ?_)
  obtain ⟨u, hu, hrun⟩ := h e he
  rw [Function.comp_apply, hu, Option.getD_some]
  exact hrun

/-- The rule of a set pattern depends on the number of its members: none asks for the empty set, and
one or more literals for their membership. -/
theorem run_lift_set {ms ns : Members} (h : Members.equal ms ns) :
    (lift (.set r ms)).run (.set r' ns) = some ∅ := by
  rw [Members.equal, Bool.and_eq_true, beq_iff_eq] at h
  obtain ⟨hsize, hall⟩ := h
  have hin : ∀ m ∈ ms.toList, ns.contains m.key := fun m hm =>
    Array.all_eq_true_iff_forall_mem.1 hall m (Array.mem_toList_iff.1 hm)
  rw [lift]
  cases hms : ms.toList with
  | nil =>
    have hempty : ns.isEmpty := by
      have hlength : ms.size = 0 := congrArg List.length hms
      rw [Table.isEmpty, Array.isEmpty_iff_size_eq_zero]
      exact hsize.symm.trans hlength
    rw [List.map_nil, run, Value.members?, Option.bind_eq_bind, Option.bind_some, accept,
      if_pos hempty]
  | cons m rest =>
    rw [hms] at hin
    cases rest with
    | nil =>
      have hm : (literal m).isIn ns := hin m List.mem_cons_self
      rw [List.map_singleton, run, Value.members?, Option.bind_eq_bind, Option.bind_some,
        if_neg (by simp [isMatcher, handle?]), accept, if_pos hm]
    | cons n rest =>
      have hall : ((m :: n :: rest).map literal).all (isIn ns) := by
        rw [List.all_map, List.all_eq_true]
        exact hin
      rw [List.map_cons, List.map_cons] at hall ⊢
      rw [run, Value.members?, Option.bind_eq_bind, Option.bind_some, accept, if_pos hall]

/-- A primitive matches by `sameValue`. -/
theorem run_literal {v : Value} (h : w.sameValue v) : (literal v).run w = some ∅ := by
  rw [run, accept, if_pos h]

end Level

/-! ## All levels -/

theorem run_lift_of_equal {a b : Value} (ha : a.WellFormed) (hb : b.WellFormed) (h : a.equal b) :
    (lift a).run b = some ∅ := by
  induction ha generalizing b with
  | @intro a ha _ ih =>
    obtain ⟨hout, hat⟩ := (equal_iff ha hb.isIndexed).1 h
    have hplace {p : Place} {v : Value} (hv : a.at? p = some v) :
        ∃ w, b.at? p = some w ∧ (lift v).run w = some ∅ := by
      have hrel := hat p
      rw [hv] at hrel
      obtain ⟨w, hw, hvw⟩ := rel_some_iff.1 hrel
      have hpart : w ∈ b.parts := mem_parts_of_at? hb.isIndexed hw
      exact ⟨w, hw, ih v (mem_parts_of_at? ha hv) (hb.part hpart) hvw⟩
    cases a with
    | array r xs =>
      cases b with
      | array r' ys =>
        have hsize : xs.size = ys.size := Value.size_eq_of_equal h
        exact run_lift_array hsize fun i v hv => hplace (p := .index i) hv
      | _ => contradiction
    | object r fs =>
      cases b with
      | object r' gs =>
        exact run_lift_fields hb.isIndexed rfl fun f hf =>
          hplace (p := .field f.1) (congrArg (Option.map Prod.snd) (ha.get?_eq_some_iff.2 ⟨hf, rfl⟩))
      | _ => contradiction
    | map r es =>
      cases b with
      | map r' ds =>
        exact run_lift_map fun e he =>
          hplace (p := .key e.1.key) (congrArg (Option.map Prod.snd) (ha.get?_eq_some_iff.2 ⟨he, rfl⟩))
      | _ => contradiction
    | set r ms =>
      cases b with
      | set r' ns => exact run_lift_set (Value.equal_set r r' ms ns ▸ h)
      | _ => contradiction
    | inst r c fs =>
      cases b with
      | inst r' d gs =>
        exact run_lift_fields hb.isIndexed rfl fun f hf =>
          hplace (p := .field f.1) (congrArg (Option.map Prod.snd) (ha.get?_eq_some_iff.2 ⟨hf, rfl⟩))
      | _ => contradiction
    | _ =>
      rw [Value.equal_of_ref? rfl] at h
      exact run_literal (Value.sameValue_symm h)

/-- **A lifted value matches its equals.** The pattern lifted from a value that a program has made
matches the value itself and all that deeply equal it, and selects nothing. -/
theorem run_lift {s : Store} (hs : s.Reachable) :
    (∀ a ∈ s.values, ∀ b ∈ s.values, a.equal b → (lift a).run b = some ∅) ∧
      ∀ a ∈ s.values, (lift a).run a = some ∅ := by
  have hsound := hs.sound
  refine ⟨fun a ha b hb h => ?_, fun a ha => ?_⟩
  · exact run_lift_of_equal (hsound.wellFormed a ha) (hsound.wellFormed b hb) h
  · have hrefl : a.equal a := Value.equal_refl (hsound.wellFormed a ha)
    exact run_lift_of_equal (hsound.wellFormed a ha) (hsound.wellFormed a ha) hrefl

/-- Two arrays with NaNs of different bits, and a map that has a NaN and an array as keys. -/
def nestedStore : Store :=
  ⟨[.map ⟨2⟩ (Table.ofList [(.number .nan, .array ⟨0⟩ #[.number .nan]),
      (.array ⟨0⟩ #[.number .nan], .array ⟨1⟩ #[.number ⟨0xfff0000000000001⟩])]),
    .array ⟨1⟩ #[.number ⟨0xfff0000000000001⟩], .array ⟨0⟩ #[.number .nan],
    .number ⟨0xfff0000000000001⟩, .number .nan], [], 3⟩

theorem reachable_nestedStore : nestedStore.Reachable := by
  have hnumbers : Store.Reachable ⟨[.number ⟨0xfff0000000000001⟩, .number .nan], [], 0⟩ :=
    (Store.Reachable.start.withValue (.number _)).withValue (.number _)
  have harray : Store.Reachable ⟨[.array ⟨0⟩ #[.number .nan], .number ⟨0xfff0000000000001⟩,
      .number .nan], [], 1⟩ :=
    hnumbers.withValue (m := Value.newArray [.number .nan]) (.array (by simp))
  have harrays : Store.Reachable ⟨[.array ⟨1⟩ #[.number ⟨0xfff0000000000001⟩],
      .array ⟨0⟩ #[.number .nan], .number ⟨0xfff0000000000001⟩, .number .nan], [], 2⟩ :=
    harray.withValue (m := Value.newArray [.number ⟨0xfff0000000000001⟩]) (.array (by simp))
  exact harrays.withValue (.map (by simp))

theorem run_lift_nestedStore :
    nestedStore.Reachable ∧
      (lift (.array ⟨0⟩ #[.number .nan])).run (.array ⟨1⟩ #[.number ⟨0xfff0000000000001⟩]) =
        some ∅ ∧
      ∀ v ∈ nestedStore.values, (lift v).run v = some ∅ := by
  have hmatch := run_lift reachable_nestedStore
  refine ⟨reachable_nestedStore, ?_, hmatch.2⟩
  refine hmatch.1 _ (by simp [nestedStore]) _ (by simp [nestedStore]) ?_
  have hnan : (Value.number .nan).equal (.number ⟨0xfff0000000000001⟩) :=
    Value.equal_of_isNaN (by decide) (by decide)
  simp [Value.equal, Value.equalItems, hnan]

end Pattern

end ShapeMatch
