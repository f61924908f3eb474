import ShapeMatch.Pattern.Keys
import ShapeMatch.Proofs.Pattern.Plan

/-!
# Proofs: the selected keys are the declared keys

Matching and the collection of declared keys are two separate recursions over a pattern. A match
selects declared keys only (`Pattern.keys_subset_of_run`), and it selects all of them, each in the
place of its first declaration (`Pattern.keys_of_run`), but for one form: a set pattern with a
single matcher matches the empty set and then selects nothing. `Pattern.Starved` says that a test
comes to this.

Both statements are proved for one plan first, from what holds of its tests.
-/

namespace ShapeMatch

namespace Plan

/-- The keys that a plan declares, in order and with repetitions. -/
def keys : Plan → List SelectionKey
  | every writes tests => writes.map Prod.fst ++ tests.flatMap fun t => t.1.keys
  | each p .. => p.keys
  | first ps _ => Pattern.allKeys ps
  | refuse .. => []
  | custom m _ => m.keys

/-- The tests that have to select their keys if the plan is to select its own. Of a choice of
branches all keys are marked anyway, so it depends on no branch. -/
def contributing : Plan → List (Pattern × Value)
  | every _ ts => ts
  | each p v vs => (v :: vs).map (p, ·)
  | first .. | refuse .. | custom .. => []

theorem mem_tests_of_mem_contributing {a : Plan} {t : Pattern × Value} (h : t ∈ a.contributing) :
    t ∈ a.tests := by
  cases a with
  | every | each => exact h
  | first | refuse | custom => contradiction

/-- Whether the plan is a test by a matcher of the caller. -/
def isCustom : Plan → Bool
  | custom .. => true
  | _ => false

/-! ## The keys of one plan -/

theorem flatMap_keys_of_rows {ts : List (Pattern × Value)} {rows : List Selections}
    (h : ts.map (fun t => t.1.run t.2) = rows.map some)
    (ih : ∀ t ∈ ts, ∀ u, t.1.run t.2 = some u → u.keys = t.1.keys.eraseDups) :
    rows.flatMap Selections.keys = ts.flatMap fun t => t.1.keys.eraseDups := by
  induction ts generalizing rows with
  | nil => rw [List.map_eq_nil_iff.1 h.symm]; rfl
  | cons t ts iht =>
    cases rows with
    | nil => simp at h
    | cons u rows =>
      rw [List.map_cons, List.map_cons, List.cons.injEq] at h
      rw [List.flatMap_cons, List.flatMap_cons, ih t (by simp) u h.1,
        iht h.2 fun t' ht' => ih t' (List.mem_cons_of_mem t ht')]

theorem rows_of_run_each {p : Pattern} {v : Value} {vs : List Value} {s : Selections}
    (h : (each p v vs).run = some s) : ∃ rows : List Selections,
      ((v :: vs).map (p, ·)).map (fun t => t.1.run t.2) = rows.map some ∧ .columns rows = s := by
  obtain ⟨rows, hrows, hs⟩ := Option.map_eq_some_iff.1 h
  refine ⟨rows, ?_, hs⟩
  rw [List.map_map]
  exact mapM_eq_some_iff.1 hrows

theorem branch_of_run_first {ps : List Pattern} {v : Value} {s : Selections}
    (h : (first ps v).run = some s) : ∃ q ∈ ps, ∃ u, q.run v = some u ∧
      (Selections.empty.seedAbsent (Pattern.allKeys ps)).merge u = s := by
  obtain ⟨u, hu, hs⟩ := Option.map_eq_some_iff.1 h
  obtain ⟨q, hq, hqu⟩ := List.exists_of_findSome?_eq_some hu
  exact ⟨q, hq, u, hqu, hs⟩

theorem eq_empty_of_run_refuse {p : Pattern} {v : Value} {s : Selections}
    (h : (refuse p v).run = some s) : s = ∅ := by
  rw [run, Pattern.accept] at h
  split at h
  · exact (Option.some.inj h).symm
  · contradiction

/-- If the tests of a plan select declared keys only, so does the plan. -/
theorem keys_subset_of_run {a : Plan} (ha : a.isCustom = false) {s : Selections}
    (h : a.run = some s)
    (ih : ∀ t ∈ a.tests, ∀ u, t.1.run t.2 = some u → u.keys ⊆ t.1.keys) : s.keys ⊆ a.keys := by
  intro k hk
  cases a with
  | every writes ts =>
    obtain ⟨rows, hrows, rfl⟩ := Selections.mergeAll_eq_some_iff.1 h
    rw [Selections.keys_foldl_merge, List.mem_eraseDups, Selections.ofList,
      Selections.keys_insertAll, List.mem_append, List.mem_eraseDups] at hk
    rw [keys, List.mem_append]
    rcases hk with hk | hk
    · exact .inl hk
    · obtain ⟨u, hu, hku⟩ := List.mem_flatMap.1 hk
      obtain ⟨t, ht, htu⟩ := exists_of_mem_of_map_eq hrows hu
      exact .inr (List.mem_flatMap.2 ⟨t, ht, ih t ht u htu hku⟩)
  | each p v vs =>
    obtain ⟨rows, hrows, rfl⟩ := rows_of_run_each h
    rw [Selections.keys_columns, List.mem_eraseDups] at hk
    obtain ⟨u, hu, hku⟩ := List.mem_flatMap.1 hk
    obtain ⟨t, ht, htu⟩ := exists_of_mem_of_map_eq hrows hu
    have hkt := ih t ht u htu hku
    obtain ⟨w, -, rfl⟩ := List.mem_map.1 ht
    exact hkt
  | first ps v =>
    obtain ⟨q, hq, u, hqu, rfl⟩ := branch_of_run_first h
    rw [Selections.keys_merge, List.mem_eraseDups, Selections.keys_seedAbsent, List.mem_append,
      List.mem_eraseDups] at hk
    rcases hk with hk | hk
    · exact hk
    · rw [keys, Pattern.mem_allKeys]
      exact ⟨q, hq, ih (q, v) (List.mem_map_of_mem hq) u hqu hk⟩
  | refuse p v =>
    rw [eq_empty_of_run_refuse h] at hk
    contradiction
  | custom => contradiction

/-- If moreover the tests that matter select all their keys, so does the plan. -/
theorem keys_of_run {a : Plan} (ha : a.isCustom = false) {s : Selections} (h : a.run = some s)
    (sub : ∀ t ∈ a.tests, ∀ u, t.1.run t.2 = some u → u.keys ⊆ t.1.keys)
    (ih : ∀ t ∈ a.contributing, ∀ u, t.1.run t.2 = some u → u.keys = t.1.keys.eraseDups) :
    s.keys = a.keys.eraseDups := by
  cases a with
  | every writes ts =>
    obtain ⟨rows, hrows, rfl⟩ := Selections.mergeAll_eq_some_iff.1 h
    rw [Selections.keys_foldl_merge, flatMap_keys_of_rows hrows ih, Selections.ofList,
      Selections.keys_insertAll, eraseDups_append_left, ← eraseDups_append_right,
      eraseDups_flatMap_eraseDups, eraseDups_append_right]
    rfl
  | each p v vs =>
    obtain ⟨rows, hrows, rfl⟩ := rows_of_run_each h
    rw [Selections.keys_columns, flatMap_keys_of_rows hrows ih, eraseDups_flatMap_eraseDups,
      List.flatMap_map]
    exact eraseDups_flatMap_const (List.cons_ne_nil v vs) p.keys
  | first ps v =>
    obtain ⟨q, hq, u, hqu, rfl⟩ := branch_of_run_first h
    have hsub : u.keys ⊆ (Pattern.allKeys ps).eraseDups := by
      intro k hk
      rw [List.mem_eraseDups, Pattern.mem_allKeys]
      exact ⟨q, hq, sub (q, v) (List.mem_map_of_mem hq) u hqu hk⟩
    rw [Selections.keys_merge, Selections.keys_seedAbsent]
    exact (eraseDups_append_of_subset hsub).trans (eraseDups_of_nodup (nodup_eraseDups _))
  | refuse p v =>
    rw [eq_empty_of_run_refuse h]
    rfl
  | custom => contradiction

end Plan

namespace Pattern

/-! ## The keys of a pattern and of its plan -/

theorem keys_eq_nil_of_isIn {vs : Members} {p : Pattern} (h : p.isIn vs) : p.keys = [] := by
  cases p with
  | literal => rfl
  | _ => contradiction

theorem flatMap_keys_of_fields {g : String × Pattern → Option Value}
    {fields : List (String × Pattern)} {ts : List (Pattern × Value)}
    (h : fields.map (fun f => (g f).map (f.2, ·)) = ts.map some) :
    (ts.flatMap fun t => t.1.keys) = fieldKeys fields := by
  induction fields generalizing ts with
  | nil => rw [List.map_eq_nil_iff.1 h.symm]; rfl
  | cons f fields ih =>
    cases ts with
    | nil => simp at h
    | cons t ts =>
      rw [List.map_cons, List.map_cons, List.cons.injEq] at h
      obtain ⟨w, -, rfl⟩ := Option.map_eq_some_iff.1 h.1
      rw [List.flatMap_cons, ih h.2, fieldKeys]

/-- The plan of a test declares the keys of the pattern, but for a set pattern with a single
matcher, which declares them once for each member of the set. -/
theorem keys_plan {p : Pattern} {v : Value} {a : Plan} (h : p.plan v = some a) :
    a.keys = p.keys ∨
      p.isLoneMatcherSet ∧ ∃ vs, v.members? = some vs ∧
        a.keys = vs.toList.flatMap fun _ => p.keys := by
  cases planned_of_plan h with
  | literal | guard | union | not | select | custom => exact .inl rfl
  | object hts => exact .inl (flatMap_keys_of_fields hts)
  | @tuple items _ vs _ hsize =>
    have hzip : (items.toList.zip vs.toList).map Prod.fst = items.toList :=
      List.map_fst_zip (Nat.le_of_eq hsize)
    left
    calc (Plan.every [] (items.toList.zip vs.toList)).keys
        = ((items.toList.zip vs.toList).map Prod.fst).flatMap keys := (List.flatMap_map ..).symm
      _ = (tuple items).keys := by rw [hzip, keys, allKeys_eq_flatMap]
  | map =>
    left
    rw [Plan.keys, List.map_nil, List.nil_append, List.flatMap_map, keys, entryKeys_eq_flatMap]
  | members _ hin =>
    left
    rw [keys, allKeys_eq_flatMap]
    exact (List.flatMap_eq_nil_iff.2 fun q hq => keys_eq_nil_of_isIn (hin q hq)).symm
  | @loneMatcher _ _ vs hvs hp =>
    refine .inr ⟨hp, vs, hvs, ?_⟩
    rw [Plan.keys, List.map_nil, List.nil_append, List.flatMap_map, keys, allKeys, allKeys,
      List.append_nil]
  | optionalAbsent | arrayEmpty =>
    left
    rw [Plan.keys, List.map_map, List.flatMap_nil, List.append_nil]
    exact List.map_id _
  | optionalPresent => exact .inl (List.append_nil _)
  | arrayCons => exact .inl rfl
  | intersection =>
    left
    rw [Plan.keys, List.map_nil, List.nil_append, List.flatMap_map, keys, allKeys_eq_flatMap]
  | selectWith =>
    left
    rw [Plan.keys, List.flatMap_singleton, keys]
    rfl

theorem isCustom_plan {p : Pattern} {v : Value} {a : Plan} (h : p.plan v = some a) :
    a.isCustom = p.isCustom := by
  cases planned_of_plan h <;> rfl

/-! ## The keys of a match -/

/-- A match selects declared keys only. -/
theorem keys_subset_of_run {p : Pattern} (hp : p.CustomFree) {v : Value} {s : Selections}
    (h : p.run v = some s) : s.keys ⊆ p.keys := by
  induction p using inductionOnParts generalizing v s with
  | step p ih =>
    rw [run_eq_plan] at h
    obtain ⟨a, ha, hs⟩ := Option.bind_eq_some_iff.1 h
    have hsub : s.keys ⊆ a.keys := by
      refine Plan.keys_subset_of_run ((isCustom_plan ha).trans hp.here) hs fun t ht u hu => ?_
      have hpart := mem_parts_of_mem_tests ha ht
      exact ih t.1 hpart (hp.part hpart) hu
    intro k hk
    rcases keys_plan ha with hkeys | ⟨-, vs, -, hkeys⟩
    · exact hkeys ▸ hsub hk
    · have := hsub hk
      rw [hkeys] at this
      obtain ⟨_, -, hkp⟩ := List.mem_flatMap.1 this
      exact hkp

/-- The test comes to a test of the empty set against a set pattern with a single matcher, in a
place where that leaves keys unselected. -/
inductive Starved : Pattern → Value → Prop where
  /-- The test is one of the empty set against a single matcher. -/
  | here {p : Pattern} {v : Value} {vs : Members} (hp : p.isLoneMatcherSet)
      (hv : v.members? = some vs) (hempty : vs.toList = []) : Starved p v
  /-- A test on which the selected keys depend comes to one. -/
  | test {p : Pattern} {v : Value} {a : Plan} {t : Pattern × Value} (ha : p.plan v = some a)
      (ht : t ∈ a.contributing) (h : Starved t.1 t.2) : Starved p v

/-- A match that is not starved selects all declared keys, each in the place of its first
declaration. -/
theorem keys_of_run {p : Pattern} (hp : p.CustomFree) {v : Value} (hv : ¬ p.Starved v)
    {s : Selections} (h : p.run v = some s) : s.keys = p.keys.eraseDups := by
  induction p using inductionOnParts generalizing v s with
  | step p ih =>
    rw [run_eq_plan] at h
    obtain ⟨a, ha, hs⟩ := Option.bind_eq_some_iff.1 h
    have part {t : Pattern × Value} (ht : t ∈ a.tests) : t.1 ∈ p.parts :=
      mem_parts_of_mem_tests ha ht
    have hkeys : s.keys = a.keys.eraseDups := by
      refine Plan.keys_of_run ((isCustom_plan ha).trans hp.here) hs (fun t ht u hu => ?_)
        fun t ht u hu => ?_
      · exact keys_subset_of_run (hp.part (part ht)) hu
      · have hmem := part (Plan.mem_tests_of_mem_contributing ht)
        exact ih t.1 hmem (hp.part hmem) (fun hst => hv (.test ha ht hst)) hu
    rw [hkeys]
    rcases keys_plan ha with hkeys | ⟨hlone, vs, hvs, hkeys⟩
    · rw [hkeys]
    · rw [hkeys]
      exact eraseDups_flatMap_const (fun hempty => hv (.here hlone hvs hempty)) p.keys

/-- Only a set pattern with a single matcher starves. -/
theorem LoneMatcherFree.not_starved {p : Pattern} (hp : p.LoneMatcherFree) (v : Value) :
    ¬ p.Starved v := by
  intro h
  induction h with
  | here hlone =>
    rw [hp.here] at hlone
    contradiction
  | test ha ht _ ih =>
    exact ih (hp.part (mem_parts_of_mem_tests ha (Plan.mem_tests_of_mem_contributing ht)))

/-- **The selected keys are the declared keys.** A failed match selects nothing. A match selects
distinct keys, all of them declared, and if no set pattern consists of a single matcher, it selects
the same keys in the same order from every value. -/
theorem keys_selections {p : Pattern} (hp : p.CustomFree) (v : Value) :
    (p.isMatch v = false → p.selections v = ∅) ∧
    (p.isMatch v = true →
      (p.selections v).keys.Nodup ∧ (∀ k ∈ (p.selections v).keys, k ∈ p.keys) ∧
      (p.LoneMatcherFree → (p.selections v).keys = p.keys.eraseDups)) := by
  rw [isMatch, selections]
  cases h : p.run v with
  | none => exact ⟨fun _ => rfl, fun hm => by contradiction⟩
  | some s =>
    refine ⟨fun hm => by contradiction, fun _ => ⟨s.nodup, ?_, fun hlone => ?_⟩⟩
    · intro k hk
      exact keys_subset_of_run hp h hk
    · exact keys_of_run hp (hlone.not_starved v) h

/-- A row of a field that may be absent and a sequence of choices. -/
def sampleRow : Pattern :=
  tuple #[optional ⟨0⟩ (select ⟨1⟩ (.named "x")),
    array ⟨2⟩ (union ⟨3⟩ [selectWith ⟨4⟩ (.named "y") (literal .null), select ⟨5⟩ .anonymous]),
    select ⟨6⟩ (.named "x")]

/-- A value of that row: nothing, and two choices. -/
def sampleValue : Value := .array ⟨7⟩ #[.undefined, .array ⟨8⟩ #[.null, .bool true], .null]

theorem keys_selections_sampleRow :
    sampleRow.CustomFree ∧ sampleRow.LoneMatcherFree ∧ sampleRow.isMatch sampleValue = true ∧
      (sampleRow.selections sampleValue).keys = [.named "x", .named "y", .anonymous] := by
  have hp : sampleRow.CustomFree := by decide
  have hlone : sampleRow.LoneMatcherFree := by decide
  have hm : sampleRow.isMatch sampleValue = true := by decide +kernel
  exact ⟨hp, hlone, hm, ((keys_selections hp _).2 hm).2.2 hlone⟩

end Pattern

end ShapeMatch
