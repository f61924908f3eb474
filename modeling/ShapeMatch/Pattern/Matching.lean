import ShapeMatch.Pattern.Keys
import ShapeMatch.Selection.Columns
import ShapeMatch.Value.Property
import ShapeMatch.Value.Same

/-!
# Matching

`Pattern.run` tests a value against a pattern: it gives what the pattern selects from the value, or
nothing where the value does not match. A form with several parts asks them from left to right and
merges what they select. No part is asked after one that failed, and the keys that a pattern declares
are only computed where they are selected; shared parts may make a pattern larger than could ever be
gone through. The list functions are summed up by the equations at the end (`runEvery_eq` and its
sisters), which say which results they merge.
-/

namespace ShapeMatch

/-- What the pattern of a field is tested on: the property, or `undefined` if it is missing and may
be. -/
def Value.part? (v : Value) (name : String) (mayMiss : Bool) : Option Value :=
  if v.hasProperty name || mayMiss then some ((v.property? name).getD .undefined) else none

namespace Pattern

/-- Selects nothing, and succeeds where the test does. -/
def accept (test : Bool) : Option Selections := if test then some ∅ else none

/-- Whether the pattern asks for a value that is in the set. What is not a literal is in no set. -/
def isIn (vs : Members) : Pattern → Bool
  | literal l => vs.contains l.key
  | _ => false

mutual

/-- What the pattern selects from the value, or nothing where it does not match. -/
def run : Pattern → Matcher
  | literal l, v => accept (v.sameValue l)
  | object fields, v => if v.isObjectLike then runFields fields v ∅ else none
  | tuple items, v => do
    let vs ← v.items?
    if items.size = vs.size then match items with | ⟨items⟩ => runItems items vs.toList ∅ else none
  | map entries, v => do runEntries entries (← v.entries?) ∅
  | set [], v => do accept (← v.members?).isEmpty
  | set [p], v => do
    let vs ← v.members?
    if p.isMatcher then vs.entries.foldlM (fun s w => (p.run w).map s.merge) ∅
    else accept (p.isIn vs)
  | set (p :: q :: ps), v => do
    let vs ← v.members?
    accept ((p :: q :: ps).all (isIn vs))
  | optional _ p, v => if v.isUndefined then some (Selections.empty.seedAbsent p.keys) else p.run v
  | array _ p, v => do
    let vs ← v.items?
    if vs.isEmpty then return .emptyColumns p.keys
    else return .columns (← vs.mapM p.run).toList
  | intersection _ ps, v => runEvery ps v ∅
  | union _ ps, v => do
    let s ← runFirst ps v
    return (Selections.empty.seedAbsent (allKeys ps)).merge s
  | not _ p, v => accept (p.run v).isNone
  | guard _ _ holds, v => accept (holds v)
  | select _ k, v => some (Selections.empty.insert k (.value v))
  | selectWith _ k p, v => do return (Selections.empty.insert k (.value v)).merge (← p.run v)
  | custom _ m, v => m.run v

/-- Tests the value against every pattern. -/
def runEvery : List Pattern → Value → Selections → Option Selections
  | [], _, s => some s
  | p :: ps, v, s => do runEvery ps v (s.merge (← p.run v))

/-- Tests the value against the patterns until one matches. -/
def runFirst : List Pattern → Value → Option Selections
  | [], _ => none
  | p :: ps, v =>
    match p.run v with
    | some s => some s
    | none => runFirst ps v

/-- Tests each value against the pattern in the same place. -/
def runItems : List Pattern → List Value → Selections → Option Selections
  | p :: ps, v :: vs, s => do runItems ps vs (s.merge (← p.run v))
  | _, _, s => some s

/-- Tests the properties of the value. -/
def runFields : List (String × Pattern) → Value → Selections → Option Selections
  | [], _, s => some s
  | (k, p) :: fields, v, s => do
    let w ← v.part? k p.isOptional
    runFields fields v (s.merge (← p.run w))

/-- Tests the values under the keys of a map. A missing one counts as `undefined`. -/
def runEntries : List (Value × Pattern) → Mapping → Selections → Option Selections
  | [], _, s => some s
  | (k, p) :: entries, es, s => do
    let w := ((es.get? k.key).map Prod.snd).getD .undefined
    runEntries entries es (s.merge (← p.run w))

end

/-- Whether the pattern matches the value. -/
def isMatch (p : Pattern) (v : Value) : Bool := (p.run v).isSome

/-- What the pattern selects from the value; nothing where it does not match. -/
def selections (p : Pattern) (v : Value) : Selections := (p.run v).getD ∅

/-! ## The results that are merged -/

theorem runEvery_eq (ps : List Pattern) (v : Value) (s : Selections) :
    runEvery ps v s = s.mergeAll (ps.map (·.run v)) := by
  induction ps generalizing s with
  | nil => rfl
  | cons p ps ih =>
    rw [runEvery, List.map_cons, Selections.mergeAll_cons]
    cases p.run v with
    | none => rfl
    | some t => exact ih (s.merge t)

theorem runFirst_eq (ps : List Pattern) (v : Value) : runFirst ps v = ps.findSome? (·.run v) := by
  induction ps with
  | nil => rfl
  | cons p ps ih =>
    rw [runFirst, List.findSome?_cons]
    cases p.run v with
    | none => exact ih
    | some t => rfl

theorem runItems_eq (ps : List Pattern) (vs : List Value) (s : Selections) :
    runItems ps vs s = s.mergeAll (List.zipWith run ps vs) := by
  induction ps generalizing vs s with
  | nil => cases vs <;> rfl
  | cons p ps ih =>
    cases vs with
    | nil => rfl
    | cons v vs =>
      rw [runItems, List.zipWith_cons_cons, Selections.mergeAll_cons]
      cases p.run v with
      | none => rfl
      | some t => exact ih vs (s.merge t)

theorem runFields_eq (fields : List (String × Pattern)) (v : Value) (s : Selections) :
    runFields fields v s =
      s.mergeAll (fields.map fun f => (v.part? f.1 f.2.isOptional).bind f.2.run) := by
  induction fields generalizing s with
  | nil => rfl
  | cons f fields ih =>
    obtain ⟨k, p⟩ := f
    rw [runFields, List.map_cons, Selections.mergeAll_cons]
    cases v.part? k p.isOptional with
    | none => rfl
    | some w =>
      simp only [Option.bind_some, bind]
      cases p.run w with
      | none => rfl
      | some t => exact ih (s.merge t)

theorem runEntries_eq (entries : List (Value × Pattern)) (es : Mapping) (s : Selections) :
    runEntries entries es s =
      s.mergeAll (entries.map fun e => e.2.run (((es.get? e.1.key).map Prod.snd).getD .undefined)) := by
  induction entries generalizing s with
  | nil => rfl
  | cons e entries ih =>
    obtain ⟨k, p⟩ := e
    rw [runEntries, List.map_cons, Selections.mergeAll_cons]
    cases p.run (((es.get? k.key).map Prod.snd).getD .undefined) with
    | none => rfl
    | some t => exact ih (s.merge t)

end Pattern

end ShapeMatch
