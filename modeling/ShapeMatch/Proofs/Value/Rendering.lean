import ShapeMatch.Value.Render
import Mathlib.Logic.Relation

/-!
# Proofs: when a value has a JSON text, and what is rendered

JSON looks into arrays, records and instances, and a value exposes what can be seen by such looks, one
after the other. A big integer anywhere among that leaves the whole value without a JSON text, and
nothing else does (`Value.toJson_fails_iff`): a failure passes from a part to what is around it, by
induction on the looks, and comes from a part, by induction on the value.
-/

namespace ShapeMatch

/-- Two computations one after the other succeed if both of them do. -/
theorem isOk_bind_pure {ε α β γ : Type} (x : Except ε α) (y : Except ε β) (f : α → β → γ) :
    (do return f (← x) (← y)).isOk = (x.isOk && y.isOk) := by
  cases x <;> cases y <;> rfl

namespace Value

variable {v w : Value}

/-! ## What a value exposes -/

/-- The parts of a value that lie open: elements and fields, but nothing that is in a map or a set. -/
def openParts : Value → List Value
  | array _ items => items.toList
  | object _ fields | inst _ _ fields => fields.toList.map Prod.snd
  | _ => []

/-- The value itself and all that comes to light by looking into open parts again and again. -/
def Exposes : Value → Value → Prop := Relation.ReflTransGen fun v w => w ∈ v.openParts

theorem Exposes.refl (v : Value) : v.Exposes v := Relation.ReflTransGen.refl

theorem Exposes.of_part {u : Value} (hw : w ∈ v.openParts) (h : w.Exposes u) : v.Exposes u :=
  Relation.ReflTransGen.head hw h

theorem exposes_iff {u : Value} : v.Exposes u ↔ u = v ∨ ∃ w ∈ v.openParts, w.Exposes u := by
  constructor
  · intro h
    rcases Relation.ReflTransGen.cases_head h with rfl | ⟨w, hw, hwu⟩
    · exact .inl rfl
    · exact .inr ⟨w, hw, hwu⟩
  · rintro (rfl | ⟨w, hw, hwu⟩)
    · exact .refl u
    · exact .of_part hw hwu

theorem sizeOf_lt_of_mem_record {fields : Record} (h : w ∈ fields.toList.map Prod.snd) :
    sizeOf w < sizeOf fields := by
  obtain ⟨⟨k, u⟩, hf, rfl⟩ := List.mem_map.1 h
  obtain ⟨entries, index⟩ := fields
  have hlt := Array.sizeOf_lt_of_mem (Array.mem_toList_iff.1 hf)
  simp only [Prod.mk.sizeOf_spec] at hlt
  simp only [Table.mk.sizeOf_spec]
  omega

theorem sizeOf_lt_of_mem_openParts (h : w ∈ v.openParts) : sizeOf w < sizeOf v := by
  cases v with
  | array r items =>
    have hlt := Array.sizeOf_lt_of_mem (Array.mem_toList_iff.1 h)
    simp only [array.sizeOf_spec]
    omega
  | object r fields =>
    have hlt := sizeOf_lt_of_mem_record h
    simp only [object.sizeOf_spec]
    omega
  | inst r c fields =>
    have hlt := sizeOf_lt_of_mem_record h
    simp only [inst.sizeOf_spec]
    omega
  | _ => contradiction

/-- What passes from the open parts of a value to the value holds of all values. -/
theorem inductionOnOpenParts {motive : Value → Prop}
    (step : ∀ v : Value, (∀ w ∈ v.openParts, motive w) → motive v) (v : Value) : motive v :=
  step v fun w hw =>
    have := sizeOf_lt_of_mem_openParts hw
    inductionOnOpenParts step w
termination_by sizeOf v

/-! ## Failure -/

/-- Whether the value is a big integer. -/
def isBigint : Value → Bool
  | bigint _ => true
  | _ => false

theorem isOk_toJsonItems (vs : List Value) :
    (toJsonItems vs).isOk = vs.all (·.toJson.isOk) := by
  induction vs with
  | nil => rfl
  | cons v vs ih =>
    rw [toJsonItems, isOk_bind_pure, ih]
    rfl

/-- What a field must not hold to be shown. -/
theorem isHidden_iff : v.isHidden ↔ v = undefined ∨ ∃ s, v = symbol s := by
  constructor
  · intro h
    cases v with
    | undefined => exact .inl rfl
    | symbol s => exact .inr ⟨s, rfl⟩
    | _ => contradiction
  · rintro (rfl | ⟨s, rfl⟩) <;> rfl

theorem isOk_toJson_of_isHidden (h : v.isHidden) : v.toJson.isOk := by
  cases v <;> first | contradiction | rfl

/-- A field that is left out cannot fail. -/
theorem isOk_toJsonFields (fs : List (String × Value)) :
    (toJsonFields fs).isOk = (fs.map Prod.snd).all (·.toJson.isOk) := by
  induction fs with
  | nil => rfl
  | cons f fs ih =>
    obtain ⟨k, v⟩ := f
    rw [toJsonFields, List.map_cons, List.all_cons]
    by_cases hv : v.isHidden
    · rw [if_pos hv, ih, isOk_toJson_of_isHidden hv, Bool.true_and]
    · rw [if_neg hv, isOk_bind_pure, ih]

/-- A value fails if it is a big integer, or if one of its open parts fails. -/
theorem isOk_toJson (v : Value) :
    v.toJson.isOk = (!v.isBigint && v.openParts.all (·.toJson.isOk)) := by
  have harray (vs : List Value) :
      (do return Json.array (← toJsonItems vs)).isOk = vs.all (·.toJson.isOk) := by
    rw [← isOk_toJsonItems]
    cases toJsonItems vs <;> rfl
  have hrecord (fs : List (String × Value)) :
      (do return Json.object (← toJsonFields fs)).isOk =
        (fs.map Prod.snd).all (·.toJson.isOk) := by
    rw [← isOk_toJsonFields]
    cases toJsonFields fs <;> rfl
  cases v with
  | array r items =>
    rw [toJson]
    exact harray items.toList
  | object r fields =>
    rw [toJson]
    exact hrecord fields.toList
  | inst r c fields =>
    rw [toJson]
    exact hrecord fields.toList
  | _ => rfl

/-- A value has a JSON view exactly if it exposes no big integer. -/
theorem isOk_toJson_iff : v.toJson.isOk ↔ ∀ w, v.Exposes w → w.isBigint = false := by
  induction v using inductionOnOpenParts with
  | step v ih =>
    rw [isOk_toJson, Bool.and_eq_true, Bool.not_eq_true', List.all_eq_true]
    constructor
    · rintro ⟨hv, hparts⟩ u hu
      rcases exposes_iff.1 hu with rfl | ⟨w, hw, hwu⟩
      · exact hv
      · exact (ih w hw).1 (hparts w hw) u hwu
    · intro h
      refine ⟨h v (.refl v), fun w hw => (ih w hw).2 fun u hu => ?_⟩
      exact h u (.of_part hw hu)

theorem jsonText_fails_iff : (∃ e, v.jsonText = .error e) ↔ ∃ n, v.Exposes (bigint n) := by
  have hfails : (∃ e, v.jsonText = .error e) ↔ ¬ v.toJson.isOk := by
    rw [jsonText]
    cases v.toJson with
    | error e => exact iff_of_true ⟨e, rfl⟩ Bool.false_ne_true
    | ok j => exact iff_of_false (fun ⟨e, he⟩ => by contradiction) (fun h => h rfl)
  rw [hfails, isOk_toJson_iff]
  constructor
  · intro h
    refine Classical.byContradiction fun hnone => h fun w hw => ?_
    cases w with
    | bigint n => exact absurd ⟨n, hw⟩ hnone
    | _ => rfl
  · rintro ⟨n, hn⟩ h
    have hfalse := h _ hn
    contradiction

/-! ## What is rendered -/

theorem renderWhole_of_text {text : String} (hv : v.isHidden = false) (h : v.jsonText = .ok text) :
    v.renderWhole = text := by
  rw [renderWhole, hv, h]
  rfl

theorem renderWhole_of_fails (h : ∃ e, v.jsonText = .error e) : v.renderWhole = v.display := by
  obtain ⟨e, he⟩ := h
  have hv : v.isHidden = false := by
    cases v <;> first | rfl | contradiction
  rw [renderWhole, hv, he]
  rfl

/-- A text is kept up to the limit, and the ellipsis tells that something was cut off. -/
theorem truncate_of_lt {text : String} {n : Nat} (h : n < text.length) :
    ∃ kept cut, text.toList = kept ++ cut ∧ kept.length = n ∧
      (truncate (some n) text).toList = kept ++ ['…'] := by
  refine ⟨text.toList.take n, text.toList.drop n, ?_, ?_, ?_⟩
  · rw [List.take_append_drop]
  · rw [List.length_take, String.length_toList]
    omega
  · rw [truncate, if_neg (by omega), String.toList_ofList]

/-- **What is rendered.** A value has no JSON text exactly if it exposes a big integer, wherever that
stands. It is rendered all the same: as its JSON text if there is one, and as its display, whole and
without a trace of JSON, if there is none; and what has no place in JSON at all is rendered as
`undefined`. A limit keeps so many characters, and puts an ellipsis behind them if there were more. -/
theorem rendering (v : Value) :
    ((∃ e, v.jsonText = .error e) ↔ ∃ n, v.Exposes (bigint n)) ∧
    ((v = undefined ∨ ∃ s, v = symbol s) → v.render ⟨none⟩ = "undefined") ∧
    (v ≠ undefined → (∀ s, v ≠ symbol s) → ∀ text, v.jsonText = .ok text →
      v.render ⟨none⟩ = text) ∧
    ((∃ n, v.Exposes (bigint n)) → v.render ⟨none⟩ = v.display) ∧
    ∀ n : Nat,
      ((v.render ⟨none⟩).length ≤ n → v.render ⟨some n⟩ = v.render ⟨none⟩) ∧
      (n < (v.render ⟨none⟩).length → ∃ kept cut, (v.render ⟨none⟩).toList = kept ++ cut ∧
        kept.length = n ∧ (v.render ⟨some n⟩).toList = kept ++ ['…']) := by
  refine ⟨jsonText_fails_iff, ?_, ?_, ?_, fun n => ⟨fun h => ?_, fun h => ?_⟩⟩
  · rintro (rfl | ⟨s, rfl⟩)
    · rfl
    · rfl
  · intro hundefined hsymbol text h
    have hv : ¬ v.isHidden := by
      rw [isHidden_iff]
      rintro (hv | ⟨s, hv⟩)
      · exact hundefined hv
      · exact hsymbol s hv
    exact renderWhole_of_text (Bool.eq_false_iff.2 hv) h
  · intro h
    exact renderWhole_of_fails (jsonText_fails_iff.2 h)
  · exact if_pos h
  · exact truncate_of_lt h

end Value

end ShapeMatch
