import ShapeMatch.Pattern.Builder
import ShapeMatch.Proofs.Dictionary.Collecting
import ShapeMatch.Proofs.Pattern.Lifting
import ShapeMatch.Proofs.Value.Containers

/-!
# Proofs: lifting commutes with building

A container is built through the index of a table, and a pattern by a search through the entries that
it has already. Both keep the same of the entries that are given to them: the first of the keys that
are the same, with the last content. So the pattern lifted from a container that was built from some
contents is the pattern built from the lifted contents (`Pattern.lift_built`).
-/

namespace ShapeMatch.Pattern

/-! ## The pattern of a container -/

/-- A field or an entry with the pattern lifted from its value. -/
def liftContent {κ : Type} (e : κ × Value) : κ × Pattern := (e.1, lift e.2)

theorem lift_object (r : Ref) (fields : Record) :
    lift (.object r fields) = object (fields.toList.map liftContent) := by
  obtain ⟨⟨fields⟩, index⟩ := fields
  rw [lift, liftFields_eq_map]
  rfl

theorem lift_inst (r : Ref) (c : Class) (fields : Record) :
    lift (.inst r c fields) = object (fields.toList.map liftContent) := by
  obtain ⟨⟨fields⟩, index⟩ := fields
  rw [lift, liftFields_eq_map]
  rfl

theorem lift_map (r : Ref) (entries : Mapping) :
    lift (.map r entries) = map (entries.toList.map liftContent) := by
  obtain ⟨⟨entries⟩, index⟩ := entries
  rw [lift, liftEntries_eq_map]
  rfl

/-! ## The members of a set pattern -/

theorem equivalence_sameValueZero :
    Equivalence fun a b : Value => (a.sameValueZero b : Prop) :=
  ⟨Value.sameValueZero_refl, Value.sameValueZero_symm, Value.sameValueZero_trans⟩

/-- Literals are added to a set pattern as values are to a list without repetitions. -/
theorem foldl_addMember_literal (kept members : List Value) :
    (members.map literal).foldl addMember (kept.map literal) =
      (List.eraseDupsBy.loop Value.sameValueZero members kept.reverse).map literal := by
  induction members generalizing kept with
  | nil => simp [List.eraseDupsBy.loop]
  | cons v members ih =>
    have hcomm : ∀ w : Value, w.sameValueZero v = v.sameValueZero w := fun w =>
      Assoc.comm_of_equivalence equivalence_sameValueZero w v
    have hany : (kept.map literal).any (·.sameMember (literal v)) =
        kept.reverse.any (v.sameValueZero ·) := by
      simp [List.any_map, Function.comp_def, sameMember, hcomm]
    rw [List.map_cons, List.foldl_cons, addMember, hany, List.eraseDupsBy.loop]
    cases kept.reverse.any (v.sameValueZero ·) with
    | true => exact ih kept
    | false =>
      have hnew := ih (kept ++ [v])
      simpa using hnew

theorem ofMembers_literal (members : List Value) :
    ofMembers (members.map literal) =
      set ((members.eraseDupsBy Value.sameValueZero).map literal) := by
  unfold ofMembers
  exact congrArg set (foldl_addMember_literal [] members)

/-! ## Building and lifting -/

/-- **Lifting commutes with building.** The pattern lifted from a record, an instance, a map or a set
is the one that is built from the same contents lifted one by one, whatever keys come again: both have
the first of the keys that are the same in its place, and under it what came last. Sets keep the first
of the members that are the same, as a literal. -/
theorem lift_built (next : Nat) :
    (∀ fields : List (String × Value), ∃ kept,
      lift ((Value.newObject fields).run next).1 = object kept ∧
      (∀ c, lift ((Value.newInstance c fields).run next).1 = object kept) ∧
      ofFields (fields.map liftContent) = object kept ∧
      Assoc.Kept (· == ·) (fields.map liftContent) kept) ∧
    (∀ entries : List (Value × Value), Value.Coherent (entries.map Prod.fst) → ∃ kept,
      lift ((Value.newMap entries).run next).1 = map kept ∧
      ofEntries (entries.map liftContent) = map kept ∧
      Assoc.Kept Value.sameValueZero (entries.map liftContent) kept) ∧
    ∀ members : List Value, Value.Coherent members → ∃ kept,
      lift ((Value.newSet members).run next).1 = set (kept.map literal) ∧
      ofMembers (members.map literal) = set (kept.map literal) ∧
      kept = members.eraseDupsBy Value.sameValueZero := by
  refine ⟨fun fields => ?_, fun entries hentries => ?_, fun members hmembers => ?_⟩
  · have hkept : (Table.ofList fields : Record).toList.map liftContent =
        Assoc.collect (· == ·) (fields.map liftContent) := by
      rw [Value.toList_fields]
      exact (Assoc.collect_map lift fields).symm
    refine ⟨_, ?_, fun c => ?_, rfl, Assoc.kept_collect Assoc.equivalence_beq _⟩
    · exact (lift_object _ _).trans (congrArg object hkept)
    · exact (lift_inst _ c _).trans (congrArg object hkept)
  · have hkept : (Table.ofList entries : Mapping).toList.map liftContent =
        Assoc.collect Value.sameValueZero (entries.map liftContent) := by
      rw [hentries.toList_entries]
      exact (Assoc.collect_map lift entries).symm
    refine ⟨_, ?_, rfl, Assoc.kept_collect equivalence_sameValueZero _⟩
    exact (lift_map _ _).trans (congrArg map hkept)
  · refine ⟨_, ?_, ofMembers_literal members, rfl⟩
    show lift (.set _ (Table.ofList members)) = _
    rw [lift, hmembers.toList_members]

theorem lift_built_sampleEntries :
    Value.Coherent (Value.sampleEntries.map Prod.fst) ∧ Value.Coherent Value.sampleLive ∧
      (∃ kept, lift ((Value.newMap Value.sampleEntries).run 2).1 = map kept ∧
        kept.map Prod.fst = [.number ⟨0x8000000000000000⟩, .array ⟨0⟩ #[], .number .nan] ∧
        Assoc.get? Value.sameValueZero (.number .zero) kept = some (literal (.bool false))) ∧
      lift ((Value.newSet Value.sampleLive).run 2).1 =
        set [literal (.number .zero), literal (.number .nan), literal (.array ⟨0⟩ #[]),
          literal (.set ⟨1⟩ ∅)] := by
  have hkeys : Value.Coherent (Value.sampleEntries.map Prod.fst) :=
    Value.coherent_of_nodup (by decide)
  have hmembers : Value.Coherent Value.sampleLive := Value.coherent_of_nodup (by decide)
  obtain ⟨-, hmap, hset⟩ := lift_built 2
  obtain ⟨kept, hkept, -, hfirst, hlast⟩ := (hmap Value.sampleEntries hkeys)
  obtain ⟨literals, hliterals, -, rfl⟩ := hset Value.sampleLive hmembers
  refine ⟨hkeys, hmembers, ⟨kept, hkept, ?_, ?_⟩, hliterals⟩
  · rw [hfirst]
    rfl
  · rw [hlast]
    rfl

end ShapeMatch.Pattern
