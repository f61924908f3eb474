import ShapeMatch.Pattern.Basic

/-!
# Proofs: patterns by their parts

A pattern is built from its direct parts (`Pattern.parts`), which are smaller than it. Hence a
statement about all patterns follows from a single step, that it passes from the parts of a pattern
to the pattern (`Pattern.inductionOnParts`). A condition on a pattern as a whole says something of
all patterns inside it (`Pattern.Everywhere`), and passes to the parts.
-/

namespace ShapeMatch.Pattern

/-- The direct parts of a pattern, in order. -/
def parts : Pattern → List Pattern
  | literal _ | guard .. | select .. | custom .. => []
  | object fields => fields.map Prod.snd
  | tuple items => items.toList
  | map entries => entries.map Prod.snd
  | set members => members
  | optional _ p | array _ p | not _ p | selectWith _ _ p => [p]
  | intersection _ ps | union _ ps => ps

theorem sizeOf_lt_of_mem_values {κ : Type} [SizeOf κ] {q : Pattern} {es : List (κ × Pattern)}
    (h : q ∈ es.map Prod.snd) : sizeOf q < sizeOf es := by
  obtain ⟨⟨k, p⟩, he, rfl⟩ := List.mem_map.1 h
  have hlt := List.sizeOf_lt_of_mem he
  simp only [Prod.mk.sizeOf_spec] at hlt
  simp only
  omega

/-- A part of a pattern is smaller than the pattern. -/
theorem sizeOf_lt_of_mem_parts {p q : Pattern} (h : q ∈ p.parts) : sizeOf q < sizeOf p := by
  cases p with
  | literal | guard | select | custom => simp [parts] at h
  | object fields =>
    have := sizeOf_lt_of_mem_values h
    simp only [object.sizeOf_spec]
    omega
  | tuple items =>
    have := Array.sizeOf_lt_of_mem (Array.mem_toList_iff.1 h)
    simp only [tuple.sizeOf_spec]
    omega
  | map entries =>
    have := sizeOf_lt_of_mem_values h
    simp only [map.sizeOf_spec]
    omega
  | set members =>
    have : sizeOf q < sizeOf members := List.sizeOf_lt_of_mem h
    simp only [set.sizeOf_spec]
    omega
  | optional _ p | array _ p | not _ p | selectWith _ _ p =>
    obtain rfl := List.mem_singleton.1 h
    simp only [optional.sizeOf_spec, array.sizeOf_spec, not.sizeOf_spec, selectWith.sizeOf_spec]
    omega
  | intersection _ ps =>
    have : sizeOf q < sizeOf ps := List.sizeOf_lt_of_mem h
    simp only [intersection.sizeOf_spec]
    omega
  | union _ ps =>
    have : sizeOf q < sizeOf ps := List.sizeOf_lt_of_mem h
    simp only [union.sizeOf_spec]
    omega

/-- What passes from the parts of a pattern to the pattern holds of all patterns. -/
theorem inductionOnParts {motive : Pattern → Prop}
    (step : ∀ p : Pattern, (∀ q ∈ p.parts, motive q) → motive p) (p : Pattern) : motive p :=
  step p fun q hq =>
    have := sizeOf_lt_of_mem_parts hq
    inductionOnParts step q
termination_by sizeOf p

/-! ## The patterns inside a pattern -/

mutual

/-- The pattern itself and all patterns inside it, at any depth. -/
def inside : Pattern → List Pattern
  | literal l => [literal l]
  | object fields => object fields :: insideFields fields
  | tuple ⟨items⟩ => tuple ⟨items⟩ :: insideAll items
  | map entries => map entries :: insideEntries entries
  | set members => set members :: insideAll members
  | optional h p => optional h p :: p.inside
  | array h p => array h p :: p.inside
  | intersection h ps => intersection h ps :: insideAll ps
  | union h ps => union h ps :: insideAll ps
  | not h p => not h p :: p.inside
  | guard h label holds => [guard h label holds]
  | select h k => [select h k]
  | selectWith h k p => selectWith h k p :: p.inside
  | custom h m => [custom h m]

/-- The patterns inside several patterns. -/
def insideAll : List Pattern → List Pattern
  | [] => []
  | p :: ps => p.inside ++ insideAll ps

/-- The patterns inside the patterns of fields. -/
def insideFields : List (String × Pattern) → List Pattern
  | [] => []
  | (_, p) :: fields => p.inside ++ insideFields fields

/-- The patterns inside the patterns of entries. -/
def insideEntries : List (Value × Pattern) → List Pattern
  | [] => []
  | (_, p) :: entries => p.inside ++ insideEntries entries

end

theorem insideAll_eq (ps : List Pattern) : insideAll ps = ps.flatMap inside := by
  induction ps with
  | nil => rfl
  | cons p ps ih => rw [insideAll, ih, List.flatMap_cons]

theorem insideFields_eq (fields : List (String × Pattern)) :
    insideFields fields = (fields.map Prod.snd).flatMap inside := by
  induction fields with
  | nil => rfl
  | cons f fields ih => rw [insideFields, ih, List.map_cons, List.flatMap_cons]

theorem insideEntries_eq (entries : List (Value × Pattern)) :
    insideEntries entries = (entries.map Prod.snd).flatMap inside := by
  induction entries with
  | nil => rfl
  | cons e entries ih => rw [insideEntries, ih, List.map_cons, List.flatMap_cons]

/-- Inside a pattern are the pattern and what is inside its parts. -/
theorem inside_eq (p : Pattern) : p.inside = p :: p.parts.flatMap inside := by
  cases p with
  | literal | guard | select | custom => rfl
  | object fields => rw [inside, insideFields_eq]; rfl
  | tuple items => rw [inside, insideAll_eq]; rfl
  | map entries => rw [inside, insideEntries_eq]; rfl
  | set ps | intersection _ ps | union _ ps => rw [inside, insideAll_eq]; rfl
  | optional _ p | array _ p | not _ p | selectWith _ _ p =>
    rw [inside, parts, List.flatMap_singleton]

/-- The property holds of a pattern and of all patterns inside it. -/
def Everywhere (P : Pattern → Prop) (p : Pattern) : Prop := ∀ q ∈ p.inside, P q

section Everywhere

variable {P : Pattern → Prop} {p q : Pattern}

instance [DecidablePred P] : Decidable (p.Everywhere P) :=
  inferInstanceAs (Decidable (∀ q ∈ p.inside, P q))

theorem Everywhere.here (h : p.Everywhere P) : P p := by
  apply h
  rw [inside_eq]
  exact List.mem_cons_self

theorem Everywhere.part (h : p.Everywhere P) (hq : q ∈ p.parts) : q.Everywhere P := by
  intro r hr
  apply h
  rw [inside_eq]
  exact List.mem_cons_of_mem p (List.mem_flatMap.2 ⟨q, hq, hr⟩)

/-- What holds of a pattern and everywhere in its parts holds everywhere in the pattern. -/
theorem Everywhere.of_parts (hp : P p) (h : ∀ q ∈ p.parts, q.Everywhere P) : p.Everywhere P := by
  intro r hr
  rw [inside_eq] at hr
  rcases List.mem_cons.1 hr with rfl | hr
  · exact hp
  · obtain ⟨q, hq, hr⟩ := List.mem_flatMap.1 hr
    exact h q hq r hr

end Everywhere

/-! ## Two conditions on patterns -/

/-- Whether the pattern is a matcher of the caller. -/
def isCustom : Pattern → Bool
  | custom .. => true
  | _ => false

/-- Whether the pattern is a set pattern with a single member that is a matcher. -/
def isLoneMatcherSet : Pattern → Bool
  | set [p] => p.isMatcher
  | _ => false

/-- There is no matcher of the caller in the pattern. -/
abbrev CustomFree (p : Pattern) : Prop := p.Everywhere fun q => q.isCustom = false

/-- No set pattern in the pattern consists of a single matcher. -/
abbrev LoneMatcherFree (p : Pattern) : Prop := p.Everywhere fun q => q.isLoneMatcherSet = false

end ShapeMatch.Pattern
