import ShapeMatch.Pattern.Matching
import ShapeMatch.Proofs.Pattern.Parts
import ShapeMatch.Proofs.Selection.Merge

/-!
# Proofs: what a test comes down to

Testing a value against a pattern is one step on the form of the pattern, and then tests of parts of
the value against parts of the pattern. The `Plan` of a test is this step as data. Tuples, objects,
maps, sets with a single matcher, intersections, captures and optional patterns all come down to one
kind of plan, some captures to write and some tests to pass; the others are the collection along an
array, the choice of a branch, the negation and the matcher of the caller.

`Pattern.run_eq_plan` says that a match is the outcome of its plan. An induction over patterns has
then to look at the five kinds of plan instead of all forms of pattern: the tests of a plan are
tests against parts of the pattern (`Pattern.mem_parts_of_mem_tests`).
-/

namespace ShapeMatch

/-- A run of partial computations succeeds when all of them do. -/
theorem mapM_eq_some_iff {α β : Type} {f : α → Option β} {l : List α} {bs : List β} :
    l.mapM f = some bs ↔ l.map f = bs.map some := by
  induction l generalizing bs with
  | nil => cases bs <;> simp
  | cons a l ih =>
    rw [List.mapM_cons, List.map_cons]
    cases ha : f a with
    | none => cases bs <;> simp
    | some b =>
      cases bs with
      | nil => cases l.mapM f <;> simp
      | cons b' bs =>
        rw [List.map_cons, List.cons.injEq, Option.some.injEq, ← ih]
        cases l.mapM f <;> simp

/-- Each result of a run that succeeded is that of one of the computations. -/
theorem exists_of_mem_of_map_eq {α β : Type} {f : α → Option β} {l : List α} {bs : List β} {b : β}
    (h : l.map f = bs.map some) (hb : b ∈ bs) : ∃ a ∈ l, f a = some b := by
  have hmem : some b ∈ bs.map some := List.mem_map_of_mem hb
  rw [← h] at hmem
  exact List.mem_map.1 hmem

/-- What a test comes down to, one level deep. -/
inductive Plan where
  /-- Captures to write, and tests that must all be passed. -/
  | every (writes : List (SelectionKey × Capture)) (tests : List (Pattern × Value))
  /-- Values that must all match one pattern, with a column for each key. There is a first one. -/
  | each (p : Pattern) (v : Value) (vs : List Value)
  /-- Branches of which the first one that matches the value counts. -/
  | first (ps : List Pattern) (v : Value)
  /-- A test that must fail. -/
  | refuse (p : Pattern) (v : Value)
  /-- A test by a matcher of the caller. -/
  | custom (m : CustomMatcher) (v : Value)

namespace Plan

/-- The outcome of a plan: what it selects, or nothing where it fails. -/
def run : Plan → Option Selections
  | every writes tests => (Selections.ofList writes).mergeAll (tests.map fun t => t.1.run t.2)
  | each p v vs => ((v :: vs).mapM p.run).map Selections.columns
  | first ps v =>
    (ps.findSome? (·.run v)).map (Selections.empty.seedAbsent (Pattern.allKeys ps)).merge
  | refuse p v => Pattern.accept (p.run v).isNone
  | custom m v => m.run v

/-- The tests that a plan may have made. -/
def tests : Plan → List (Pattern × Value)
  | every _ ts => ts
  | each p v vs => (v :: vs).map (p, ·)
  | first ps v => ps.map (·, v)
  | refuse p v => [(p, v)]
  | custom .. => []

/-- The plan to select nothing, if there is to be a match. -/
def check (test : Bool) : Option Plan := if test then some (every [] []) else none

theorem bind_run_check (test : Bool) : (check test).bind run = Pattern.accept test := by
  cases test <;> rfl

theorem check_eq_some_iff {test : Bool} {a : Plan} :
    check test = some a ↔ test = true ∧ a = every [] [] := by
  cases test <;> simp [check, eq_comm]

end Plan

namespace Pattern

/-- What testing a value against the pattern comes down to, or nothing where the value has not the
shape that the pattern asks for. -/
def plan : Pattern → Value → Option Plan
  | literal l, v => Plan.check (v.sameValue l)
  | object fields, v =>
    if v.isObjectLike then
      (fields.mapM fun f => (v.part? f.1 f.2.isOptional).map (f.2, ·)).map (.every [])
    else none
  | tuple items, v => v.items?.bind fun vs =>
    if items.size = vs.size then some (.every [] (items.toList.zip vs.toList)) else none
  | map entries, v => v.entries?.map fun es =>
    .every [] (entries.map fun e => (e.2, ((es.get? e.1.key).map Prod.snd).getD .undefined))
  | set [], v => v.members?.bind fun vs => Plan.check vs.isEmpty
  | set [p], v => v.members?.bind fun vs =>
    if p.isMatcher then some (.every [] (vs.toList.map (p, ·))) else Plan.check (p.isIn vs)
  | set (p :: q :: ps), v => v.members?.bind fun vs => Plan.check ((p :: q :: ps).all (isIn vs))
  | optional _ p, v =>
    some (if v.isUndefined then .every (p.keys.map (·, .absent)) [] else .every [] [(p, v)])
  | array _ p, v => v.items?.map fun vs =>
    match vs.toList with
    | [] => .every (p.keys.map (·, .collected [])) []
    | v :: vs => .each p v vs
  | intersection _ ps, v => some (.every [] (ps.map (·, v)))
  | union _ ps, v => some (.first ps v)
  | not _ p, v => some (.refuse p v)
  | guard _ _ holds, v => Plan.check (holds v)
  | select _ k, v => some (.every [(k, .value v)] [])
  | selectWith _ k p, v => some (.every [(k, .value v)] [(p, v)])
  | custom _ m, v => some (.custom m v)

/-! ## A match is the outcome of its plan -/

/-- The parts of a value that are missing make an object pattern fail, whatever their place. -/
theorem mergeAll_bind (s : Selections) (parts : List (Option (Pattern × Value))) :
    s.mergeAll (parts.map fun t => t.bind fun t => t.1.run t.2) =
      (parts.mapM id).bind fun ts => s.mergeAll (ts.map fun t => t.1.run t.2) := by
  induction parts generalizing s with
  | nil => rfl
  | cons t parts ih =>
    rw [List.map_cons, Selections.mergeAll_cons, List.mapM_cons]
    cases t with
    | none => rfl
    | some t =>
      simp only [id, Option.bind_some, bind, pure]
      cases ht : t.1.run t.2 with
      | none =>
        rw [Option.bind_none]
        cases parts.mapM id with
        | none => rfl
        | some ts => simp [ht]
      | some u =>
        rw [Option.bind_some, ih (s.merge u)]
        cases parts.mapM id with
        | none => rfl
        | some ts => simp [ht]

theorem run_eq_plan (p : Pattern) (v : Value) : p.run v = (p.plan v).bind Plan.run := by
  cases p with
  | literal l => rw [run, plan, Plan.bind_run_check]
  | object fields =>
    rw [run, plan]
    by_cases hv : v.isObjectLike
    · rw [if_pos hv, if_pos hv, runFields_eq]
      have := mergeAll_bind ∅ (fields.map fun f => (v.part? f.1 f.2.isOptional).map (f.2, ·))
      simp only [List.map_map, List.mapM_map] at this
      rw [Option.bind_map]
      refine Eq.trans ?_ this
      congr 2
      funext f
      simp only [Function.comp]
      cases v.part? f.1 f.2.isOptional <;> rfl
    · rw [if_neg hv, if_neg hv, Option.bind_none]
  | tuple items =>
    rw [run, plan]
    cases v.items? with
    | none => rfl
    | some vs =>
      simp only [bind, Option.bind_some]
      split
      · rw [runItems_eq, Option.bind_some, Plan.run, ← List.map_uncurry_zip_eq_zipWith]
        rfl
      · rfl
  | map entries =>
    rw [run, plan]
    cases v.entries? with
    | none => rfl
    | some es =>
      simp only [bind, Option.bind_some, Option.map_some]
      rw [runEntries_eq, Plan.run, List.map_map]
      rfl
  | set members =>
    rcases members with _ | ⟨p, _ | ⟨q, ps⟩⟩
    · rw [run, plan]
      cases v.members? with
      | none => rfl
      | some vs => exact (Plan.bind_run_check _).symm
    · rw [run, plan]
      cases v.members? with
      | none => rfl
      | some vs =>
        simp only [bind, Option.bind_some]
        by_cases hp : p.isMatcher
        · rw [if_pos hp, if_pos hp, Option.bind_some, Plan.run, List.map_map,
            Selections.mergeAll, List.foldlM_map, ← Array.foldlM_toList]
          rfl
        · rw [if_neg hp, if_neg hp, Plan.bind_run_check]
    · rw [run, plan]
      cases v.members? with
      | none => rfl
      | some vs => exact (Plan.bind_run_check _).symm
  | optional _ p =>
    rw [run, plan]
    by_cases hv : v.isUndefined
    · rw [if_pos hv, if_pos hv]
      rfl
    · rw [if_neg hv, if_neg hv, Option.bind_some, Plan.run, List.map_singleton,
        Selections.mergeAll_cons]
      cases p.run v with
      | none => rfl
      | some s => exact congrArg some (Selections.empty_merge s).symm
  | array _ p =>
    rw [run, plan]
    cases v.items? with
    | none => rfl
    | some vs =>
      obtain ⟨vs⟩ := vs
      cases vs with
      | nil => rfl
      | cons w ws =>
        simp only [bind, pure, Option.bind_some, Option.map_some, Plan.run, List.isEmpty_toArray,
          List.isEmpty_cons, Bool.false_eq_true, if_false, List.mapM_toArray]
        cases (w :: ws).mapM p.run <;> rfl
  | intersection _ ps =>
    rw [run, plan, runEvery_eq, Option.bind_some, Plan.run, List.map_map]
    rfl
  | union _ ps =>
    rw [run, plan, runFirst_eq, Option.bind_some, Plan.run]
    cases ps.findSome? (·.run v) <;> rfl
  | not _ p => rw [run, plan, Option.bind_some, Plan.run]
  | guard _ _ holds => rw [run, plan, Plan.bind_run_check]
  | select _ k => rfl
  | selectWith _ k p =>
    rw [run, plan, Option.bind_some, Plan.run, List.map_singleton, Selections.mergeAll_cons]
    cases p.run v <;> rfl
  | custom _ m => rfl

theorem run_of_isMatch {p : Pattern} {v : Value} (h : p.isMatch v) :
    p.run v = some (p.selections v) := by
  obtain ⟨s, hs⟩ := Option.isSome_iff_exists.1 h
  rw [selections, hs]
  rfl

/-! ## The plans of each form -/

/-- The plans that tests against each form of pattern have, with what the value must be for that. -/
inductive Planned : Pattern → Value → Plan → Prop where
  | literal {l v : Value} (h : v.sameValue l) : Planned (.literal l) v (.every [] [])
  | guard {r : Ref} {label : String} {holds : Value → Bool} {v : Value} (h : holds v) :
    Planned (.guard r label holds) v (.every [] [])
  /-- Every field is there or may be missing, and is tested. -/
  | object {fields : List (String × Pattern)} {v : Value} {ts : List (Pattern × Value)}
      (h : fields.map (fun f => (v.part? f.1 f.2.isOptional).map (f.2, ·)) = ts.map some) :
    Planned (.object fields) v (.every [] ts)
  | tuple {items : Array Pattern} {v : Value} {vs : Array Value} (hv : v.items? = some vs)
      (hsize : items.size = vs.size) :
    Planned (.tuple items) v (.every [] (items.toList.zip vs.toList))
  | map {entries : List (Value × Pattern)} {v : Value} {es : Mapping} (hv : v.entries? = some es) :
    Planned (.map entries) v
      (.every [] (entries.map fun e => (e.2, ((es.get? e.1.key).map Prod.snd).getD .undefined)))
  /-- The set pattern asks for values that are in the set, or for the empty set. -/
  | members {ps : List Pattern} {v : Value} {vs : Members} (hv : v.members? = some vs)
      (h : ∀ p ∈ ps, p.isIn vs) : Planned (.set ps) v (.every [] [])
  /-- All members are tested by a single matcher. -/
  | loneMatcher {p : Pattern} {v : Value} {vs : Members} (hv : v.members? = some vs)
      (hp : p.isMatcher) : Planned (.set [p]) v (.every [] (vs.toList.map (p, ·)))
  /-- The value is absent, and so are all captures. -/
  | optionalAbsent {r : Ref} {p : Pattern} {v : Value} (hv : v.isUndefined) :
    Planned (.optional r p) v (.every (p.keys.map (·, .absent)) [])
  | optionalPresent {r : Ref} {p : Pattern} {v : Value} (hv : v.isUndefined = false) :
    Planned (.optional r p) v (.every [] [(p, v)])
  /-- There is no element, and each column is empty. -/
  | arrayEmpty {r : Ref} {p : Pattern} {v : Value} (hv : v.items? = some #[]) :
    Planned (.array r p) v (.every (p.keys.map (·, .collected [])) [])
  | arrayCons {r : Ref} {p : Pattern} {v w : Value} {ws : List Value}
      (hv : v.items? = some (w :: ws).toArray) : Planned (.array r p) v (.each p w ws)
  | intersection {r : Ref} {ps : List Pattern} {v : Value} :
    Planned (.intersection r ps) v (.every [] (ps.map (·, v)))
  | union {r : Ref} {ps : List Pattern} {v : Value} : Planned (.union r ps) v (.first ps v)
  | not {r : Ref} {p : Pattern} {v : Value} : Planned (.not r p) v (.refuse p v)
  | select {r : Ref} {k : SelectionKey} {v : Value} :
    Planned (.select r k) v (.every [(k, .value v)] [])
  | selectWith {r : Ref} {k : SelectionKey} {p : Pattern} {v : Value} :
    Planned (.selectWith r k p) v (.every [(k, .value v)] [(p, v)])
  | custom {r : Ref} {m : CustomMatcher} {v : Value} : Planned (.custom r m) v (.custom m v)

theorem planned_of_plan {p : Pattern} {v : Value} {a : Plan} (h : p.plan v = some a) :
    p.Planned v a := by
  cases p with
  | literal l =>
    obtain ⟨hl, rfl⟩ := Plan.check_eq_some_iff.1 h
    exact .literal hl
  | guard _ _ holds =>
    obtain ⟨hh, rfl⟩ := Plan.check_eq_some_iff.1 h
    exact .guard hh
  | object fields =>
    rw [plan] at h
    split at h
    · obtain ⟨ts, hts, rfl⟩ := Option.map_eq_some_iff.1 h
      exact .object (mapM_eq_some_iff.1 hts)
    · contradiction
  | tuple items =>
    obtain ⟨vs, hvs, h⟩ := Option.bind_eq_some_iff.1 h
    split at h
    · rename_i hsize
      obtain rfl := Option.some.inj h
      exact .tuple hvs hsize
    · contradiction
  | map entries =>
    obtain ⟨es, hes, rfl⟩ := Option.map_eq_some_iff.1 h
    exact .map hes
  | set members =>
    rcases members with _ | ⟨p, _ | ⟨q, ps⟩⟩
    · obtain ⟨vs, hvs, h⟩ := Option.bind_eq_some_iff.1 h
      obtain ⟨-, rfl⟩ := Plan.check_eq_some_iff.1 h
      exact .members hvs (by simp)
    · obtain ⟨vs, hvs, h⟩ := Option.bind_eq_some_iff.1 h
      split at h
      · rename_i hp
        obtain rfl := Option.some.inj h
        exact .loneMatcher hvs hp
      · obtain ⟨hin, rfl⟩ := Plan.check_eq_some_iff.1 h
        exact .members hvs (by simpa using hin)
    · obtain ⟨vs, hvs, h⟩ := Option.bind_eq_some_iff.1 h
      obtain ⟨hin, rfl⟩ := Plan.check_eq_some_iff.1 h
      exact .members hvs (List.all_eq_true.1 hin)
  | optional _ p =>
    obtain rfl := Option.some.inj h
    cases hv : v.isUndefined with
    | true => exact .optionalAbsent hv
    | false => exact .optionalPresent hv
  | array _ p =>
    obtain ⟨⟨vs⟩, hvs, rfl⟩ := Option.map_eq_some_iff.1 h
    cases vs with
    | nil => exact .arrayEmpty hvs
    | cons w ws => exact .arrayCons hvs
  | intersection =>
    obtain rfl := Option.some.inj h
    exact .intersection
  | union =>
    obtain rfl := Option.some.inj h
    exact .union
  | not =>
    obtain rfl := Option.some.inj h
    exact .not
  | select =>
    obtain rfl := Option.some.inj h
    exact .select
  | selectWith =>
    obtain rfl := Option.some.inj h
    exact .selectWith
  | custom =>
    obtain rfl := Option.some.inj h
    exact .custom

/-- The tests of a plan are tests against parts of the pattern. -/
theorem mem_parts_of_mem_tests {p : Pattern} {v : Value} {a : Plan} (h : p.plan v = some a)
    {t : Pattern × Value} (ht : t ∈ a.tests) : t.1 ∈ p.parts := by
  cases planned_of_plan h with
  | literal | guard | members | optionalAbsent | arrayEmpty | select | custom => contradiction
  | object hts =>
    obtain ⟨f, hf, hft⟩ := exists_of_mem_of_map_eq hts ht
    obtain ⟨w, -, rfl⟩ := Option.map_eq_some_iff.1 hft
    exact List.mem_map_of_mem hf
  | tuple => exact (List.of_mem_zip ht).1
  | map =>
    obtain ⟨e, he, rfl⟩ := List.mem_map.1 ht
    exact List.mem_map_of_mem he
  | loneMatcher | arrayCons =>
    obtain ⟨w, -, rfl⟩ := List.mem_map.1 ht
    exact List.mem_singleton_self _
  | intersection | union =>
    obtain ⟨q, hq, rfl⟩ := List.mem_map.1 ht
    exact hq
  | optionalPresent | not | selectWith =>
    obtain rfl := List.mem_singleton.1 ht
    exact List.mem_singleton_self _

end Pattern

end ShapeMatch
