import ShapeMatch.Proofs.Pattern.Plan

/-!
# Proofs: the verdict of a match

Whether a value matches is settled by the tests of its plan, and by what the plan demands of them: that
all of them match, that some do, or that none does. What is written meanwhile has no part in it
(`Pattern.isMatch_iff`). So two matches have one verdict if their plans demand the same and every test
of one plan has a counterpart among those of the other, with the same verdict. The order and the number
of the tests do not matter (`Demand.Met.congr`).
-/

namespace ShapeMatch

/-- What a plan demands of its tests. -/
inductive Demand where
  | all
  | some
  | none
  /-- There are no tests: the verdict is that of a matcher of the caller. -/
  | custom (m : CustomMatcher) (v : Value)

namespace Demand

/-- Whether the tests are as demanded. -/
def Met : Demand → List (Pattern × Value) → Prop
  | all, ts => ∀ t ∈ ts, t.1.isMatch t.2
  | some, ts => ∃ t ∈ ts, t.1.isMatch t.2
  | none, ts => ∀ t ∈ ts, t.1.isMatch t.2 = false
  | custom m v, _ => (m.run v).isSome

/-- Tests that have counterparts with the same verdict, in both directions, meet the same demands. -/
theorem Met.congr {d : Demand} {ts ts' : List (Pattern × Value)} (hd : d.Met ts)
    (h : ∀ t ∈ ts, ∃ t' ∈ ts', t.1.isMatch t.2 = t'.1.isMatch t'.2)
    (h' : ∀ t' ∈ ts', ∃ t ∈ ts, t.1.isMatch t.2 = t'.1.isMatch t'.2) : d.Met ts' := by
  cases d with
  | all | none =>
    intro t' ht'
    obtain ⟨t, ht, heq⟩ := h' t' ht'
    exact heq ▸ hd t ht
  | some =>
    obtain ⟨t, ht, hmatch⟩ := hd
    obtain ⟨t', ht', heq⟩ := h t ht
    exact ⟨t', ht', heq ▸ hmatch⟩
  | custom => exact hd

end Demand

/-- A list of results is one of successes if every single one is. -/
theorem exists_eq_map_some_iff {α : Type} {results : List (Option α)} :
    (∃ rows : List α, results = rows.map some) ↔ ∀ r ∈ results, r.isSome := by
  constructor
  · rintro ⟨rows, rfl⟩ r hr
    obtain ⟨a, -, rfl⟩ := List.mem_map.1 hr
    rfl
  · intro h
    refine ⟨results.attach.map fun r => r.1.get (h r.1 r.2), ?_⟩
    rw [List.map_map]
    refine (List.attach_map_subtype_val results).symm.trans ?_
    exact List.map_congr_left fun r _ => (Option.some_get _).symm

theorem Selections.isSome_mergeAll_iff {s : Selections} {results : List (Option Selections)} :
    (s.mergeAll results).isSome ↔ ∀ r ∈ results, r.isSome := by
  rw [← exists_eq_map_some_iff, Option.isSome_iff_exists]
  simp only [Selections.mergeAll_eq_some_iff]
  constructor
  · rintro ⟨t, rows, hrows, -⟩
    exact ⟨rows, hrows⟩
  · rintro ⟨rows, hrows⟩
    exact ⟨_, rows, hrows, rfl⟩

namespace Plan

/-- What the plan demands of its tests. -/
def demand : Plan → Demand
  | every .. | each .. => .all
  | first .. => .some
  | refuse .. => .none
  | custom m v => .custom m v

/-- A plan succeeds if its tests are as it demands. -/
theorem isSome_run_iff (a : Plan) : a.run.isSome ↔ a.demand.Met a.tests := by
  cases a with
  | every writes ts =>
    rw [run, Selections.isSome_mergeAll_iff, List.forall_mem_map]
    rfl
  | each p v vs =>
    have hall : ((v :: vs).mapM p.run).isSome ↔ ∀ w ∈ v :: vs, (p.run w).isSome := by
      have hmem : (∃ rows : List Selections, (v :: vs).map p.run = rows.map some) ↔
          ∀ w ∈ v :: vs, (p.run w).isSome := by
        rw [exists_eq_map_some_iff, List.forall_mem_map]
      rw [Option.isSome_iff_exists, ← hmem]
      simp only [mapM_eq_some_iff]
    rw [run, Option.isSome_map, hall, demand, tests, Demand.Met, List.forall_mem_map]
    rfl
  | first ps v =>
    rw [run, Option.isSome_map, List.findSome?_isSome_iff]
    constructor
    · rintro ⟨q, hq, hmatch⟩
      exact ⟨(q, v), List.mem_map_of_mem hq, hmatch⟩
    · rintro ⟨t, ht, hmatch⟩
      obtain ⟨q, hq, rfl⟩ := List.mem_map.1 ht
      exact ⟨q, hq, hmatch⟩
  | refuse p v =>
    rw [run, Pattern.accept, demand, tests, Demand.Met, List.forall_mem_singleton]
    simp only [Pattern.isMatch]
    cases p.run v <;> simp
  | custom => rfl

end Plan

namespace Pattern

/-- A value matches if it has the shape for a plan, and the tests of the plan are as it demands. -/
theorem isMatch_iff {p : Pattern} {v : Value} :
    p.isMatch v ↔ ∃ a, p.plan v = some a ∧ a.demand.Met a.tests := by
  rw [isMatch, run_eq_plan, Option.isSome_bind]
  simp only [Option.any_eq_true_iff_get, Plan.isSome_run_iff]
  cases p.plan v <;> simp

/-! ## The rules of set patterns -/

/-- A matcher is no literal, and in no set. -/
theorem isIn_of_isMatcher {p : Pattern} (h : p.isMatcher) (vs : Members) : p.isIn vs = false := by
  cases p <;> first | contradiction | rfl

theorem isMatch_accept_iff {p : Pattern} {v : Value} (test : Members → Bool)
    (hrun : p.run v = v.members?.bind fun vs => accept (test vs)) :
    p.isMatch v ↔ ∃ vs, v.members? = some vs ∧ test vs := by
  rw [isMatch, hrun]
  cases v.members? with
  | none => simp
  | some vs =>
    rw [Option.bind_some, accept]
    cases htest : test vs <;> simp [htest]

/-- A single matcher asks every member of the set. -/
theorem isMatch_set_of_matcher {p : Pattern} (hp : p.isMatcher) {v : Value} :
    (set [p]).isMatch v ↔ ∃ vs, v.members? = some vs ∧ ∀ w ∈ vs.toList, p.isMatch w := by
  have hplan : (set [p]).plan v = v.members?.map fun vs => .every [] (vs.toList.map (p, ·)) := by
    rw [plan]
    cases v.members? with
    | none => rfl
    | some vs => rw [Option.bind_some, if_pos hp, Option.map_some]
  rw [isMatch_iff, hplan]
  cases v.members? with
  | none => simp
  | some vs =>
    simp only [Option.map_some, Option.some.injEq, exists_eq_left']
    exact List.forall_mem_map

/-- Any other set pattern asks for its own members in the set, and for nothing else in the set if it
has none. -/
theorem isMatch_set_of_others {ps : List Pattern} (hps : (set ps).isLoneMatcherSet = false)
    {v : Value} :
    (set ps).isMatch v ↔
      ∃ vs, v.members? = some vs ∧ (ps = [] → vs.isEmpty) ∧ ∀ p ∈ ps, p.isIn vs := by
  rcases ps with _ | ⟨p, _ | ⟨q, ps⟩⟩
  · rw [isMatch_accept_iff Table.isEmpty (by rw [run]; rfl)]
    simp
  · have hp : ¬ p.isMatcher := by simpa [isLoneMatcherSet] using hps
    have hrun : (set [p]).run v = v.members?.bind fun vs => accept (p.isIn vs) := by
      rw [run]
      simp only [if_neg hp]
      rfl
    rw [isMatch_accept_iff p.isIn hrun]
    simp
  · rw [isMatch_accept_iff (fun vs => (p :: q :: ps).all (isIn vs)) (by rw [run]; rfl)]
    simp

end Pattern

end ShapeMatch
