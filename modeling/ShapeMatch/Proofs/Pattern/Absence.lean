import ShapeMatch.Proofs.Pattern.Verdict
import ShapeMatch.Proofs.Value.Containers

/-!
# Proofs: a missing field and a field that holds `undefined`

An object pattern sees of its subject no more than `Value.part?`, the value that the pattern of a field
is tested on. For a missing field this is `undefined` if the pattern is optional, and else there is no
such value and no match. So a field that holds `undefined` may as well be missing as long as the
patterns under its name are optional, and only then (`Pattern.object_of_missing_field`).
-/

namespace ShapeMatch

namespace Value

/-- The value is a record or an instance with these fields. -/
inductive HasFields (t : Record) : Value → Prop where
  | object (r : Ref) : HasFields t (.object r t)
  | inst (r : Ref) (c : Class) : HasFields t (.inst r c t)

section HasFields

variable {t : Record} {v v' : Value} {k : String}

theorem HasFields.isObjectLike (h : v.HasFields t) : v.isObjectLike := by
  cases h <;> rfl

theorem HasFields.property?_eq (h : v.HasFields t) (name : String) :
    v.property? name = (t.get? name).map Prod.snd := by
  cases h <;> rfl

theorem HasFields.hasProperty_eq (h : v.HasFields t) (ht : t.Valid) (name : String) :
    v.hasProperty name = (t.get? name).isSome := by
  rw [← ht.contains_eq_isSome_get?]
  cases h <;> rfl

theorem HasFields.get?_of_missing (h : v.HasFields t) (ht : t.Valid) (hk : v.hasProperty k = false) :
    t.get? k = none := by
  rw [h.hasProperty_eq ht] at hk
  exact Option.not_isSome_iff_eq_none.1 (Bool.eq_false_iff.1 hk)

/-- A missing field counts as `undefined` if it may be missing. -/
theorem HasFields.part?_eq (h : v.HasFields t) (ht : t.Valid) (name : String) (mayMiss : Bool) :
    v.part? name mayMiss =
      ((t.get? name).map Prod.snd).or (if mayMiss then some .undefined else none) := by
  unfold part?
  rw [h.hasProperty_eq ht, h.property?_eq]
  cases t.get? name with
  | some e => rfl
  | none => cases mayMiss <;> rfl

theorem HasFields.part?_of_missing (h : v.HasFields t) (ht : t.Valid)
    (hk : v.hasProperty k = false) (mayMiss : Bool) :
    v.part? k mayMiss = if mayMiss then some .undefined else none := by
  rw [h.part?_eq ht, h.get?_of_missing ht hk]
  rfl

/-- A new field that holds `undefined` is only seen by a pattern whose field must not be missing. -/
theorem HasFields.part?_insert (h : v.HasFields t) (h' : v'.HasFields (t.insert (k, .undefined)))
    (ht : t.Valid) (hk : v.hasProperty k = false) {name : String} {mayMiss : Bool}
    (hmiss : name = k → mayMiss) : v'.part? name mayMiss = v.part? name mayMiss := by
  have ht' : (t.insert (k, .undefined) : Record).Valid := ht.insert _
  by_cases hname : k = name
  · subst hname
    have hself : (t.insert (k, .undefined) : Record).get? k = some (k, .undefined) := by
      have hget := ht.get?_insert_self (k, Value.undefined)
      have hkey : Keyed.key (k, Value.undefined) = k := rfl
      rw [hkey, h.get?_of_missing ht hk] at hget
      exact hget
    rw [h.part?_of_missing ht hk, h'.part?_eq ht', hself, hmiss rfl]
    rfl
  · have hne : Keyed.key (k, Value.undefined) ≠ name := hname
    rw [h.part?_eq ht, h'.part?_eq ht', ht.get?_insert_of_ne hne]

end HasFields

end Value

namespace Pattern

/-- The field of an optional pattern may be missing, and that of a matcher of the caller that claims to
be of this kind; the field of any other pattern may not. -/
theorem isOptional_iff {p : Pattern} :
    p.isOptional ↔ (∃ h q, p = optional h q) ∨ ∃ h m, p = custom h m ∧ m.kind = some .optional := by
  rw [isOptional, beq_iff_eq]
  constructor
  · intro hkind
    cases p with
    | optional h q => exact .inl ⟨h, q, rfl⟩
    | custom h m => exact .inr ⟨h, m, rfl, hkind⟩
    | _ => simp [kind?] at hkind
  · rintro (⟨h, q, rfl⟩ | ⟨h, m, rfl, hkind⟩)
    · rfl
    · exact hkind

theorem run_object_congr {fields : List (String × Pattern)} {v v' : Value}
    (hlike : v.isObjectLike = v'.isObjectLike)
    (hparts : ∀ f ∈ fields, v.part? f.1 f.2.isOptional = v'.part? f.1 f.2.isOptional) :
    (object fields).run v = (object fields).run v' := by
  have hresults : (fields.map fun f => (v.part? f.1 f.2.isOptional).bind f.2.run) =
      fields.map fun f => (v'.part? f.1 f.2.isOptional).bind f.2.run := by
    refine List.map_congr_left fun f hf => ?_
    rw [hparts f hf]
  rw [run, run, hlike, runFields_eq, runFields_eq, hresults]

theorem isSome_part?_of_isMatch {fields : List (String × Pattern)} {v : Value}
    (h : (object fields).isMatch v) : ∀ f ∈ fields, (v.part? f.1 f.2.isOptional).isSome := by
  rw [isMatch, run] at h
  split at h
  · rw [runFields_eq, Selections.isSome_mergeAll_iff] at h
    intro f hf
    have hf' := h _ (List.mem_map_of_mem hf)
    exact Option.isSome_of_isSome_bind hf'
  · contradiction

/-- **A missing field may as well hold `undefined`.** If every pattern under the name of a missing field
is optional, an object pattern gives the same result with the field and without it. If one of them is
not, the object pattern does not match without the field. -/
theorem object_of_missing_field {t : Record} (ht : t.Valid) {k : String} {o o' : Value}
    (ho : o.HasFields t) (hk : o.hasProperty k = false)
    (ho' : o'.HasFields (t.insert (k, .undefined))) (fields : List (String × Pattern)) :
    ((∀ f ∈ fields, f.1 = k → f.2.isOptional) →
      (object fields).run o' = (object fields).run o) ∧
    ((∃ f ∈ fields, f.1 = k ∧ ¬ f.2.isOptional) → (object fields).isMatch o = false) := by
  constructor
  · intro hoptional
    refine run_object_congr (ho'.isObjectLike.trans ho.isObjectLike.symm) fun f hf => ?_
    exact ho.part?_insert ho' ht hk (hoptional f hf)
  · rintro ⟨f, hf, rfl, hnot⟩
    rw [Bool.eq_false_iff]
    intro hm
    have hsome := isSome_part?_of_isMatch hm f hf
    rw [ho.part?_of_missing ht hk, if_neg hnot] at hsome
    contradiction

/-- A record without a field of the name "a". -/
def sampleRecord : Record := Table.ofList [("b", .null)]

theorem object_of_missing_field_sampleRecord :
    sampleRecord.Valid ∧ (Value.object ⟨0⟩ sampleRecord).hasProperty "a" = false ∧
      (object [("a", optional ⟨1⟩ (select ⟨2⟩ .anonymous))]).isMatch (.object ⟨0⟩ sampleRecord) ∧
      (object [("a", optional ⟨1⟩ (select ⟨2⟩ .anonymous))]).isMatch
        (.object ⟨3⟩ (sampleRecord.insert ("a", .undefined))) ∧
      (object [("b", literal .null), ("a", literal .undefined)]).isMatch
        (.object ⟨0⟩ sampleRecord) = false := by
  have hvalid : sampleRecord.Valid := Table.valid_ofList _
  have hk : (Value.object ⟨0⟩ sampleRecord).hasProperty "a" = false := by
    rw [Bool.eq_false_iff]
    intro hcontains
    obtain ⟨e, he, hname⟩ := (Record.view.contains_ofList _ _).1 hcontains
    obtain rfl := List.mem_singleton.1 he
    exact absurd hname (by decide)
  have hfields := object_of_missing_field hvalid (.object ⟨0⟩) hk (.object ⟨3⟩)
  have hoptional : (optional ⟨1⟩ (select ⟨2⟩ .anonymous)).isOptional :=
    isOptional_iff.2 (.inl ⟨_, _, rfl⟩)
  have hnot : ¬ (literal .undefined).isOptional := by
    rw [isOptional_iff]
    rintro (⟨_, _, h⟩ | ⟨_, _, h, _⟩) <;> contradiction
  have hpart : (Value.object ⟨0⟩ sampleRecord).part? "a" true = some .undefined :=
    Value.HasFields.part?_of_missing (.object ⟨0⟩) hvalid hk true
  have hwithout : (object [("a", optional ⟨1⟩ (select ⟨2⟩ .anonymous))]).isMatch
      (.object ⟨0⟩ sampleRecord) := by
    show (runFields _ (.object ⟨0⟩ sampleRecord) ∅).isSome
    rw [runFields_eq]
    show (Selections.mergeAll ∅ [((Value.object ⟨0⟩ sampleRecord).part? "a" true).bind _]).isSome
    rw [hpart]
    rfl
  refine ⟨hvalid, hk, hwithout, ?_, ?_⟩
  · rw [isMatch, (hfields _).1 fun f hf _ => List.mem_singleton.1 hf ▸ hoptional]
    exact hwithout
  · exact (hfields _).2 ⟨("a", literal .undefined), by simp, rfl, hnot⟩

end Pattern

end ShapeMatch
