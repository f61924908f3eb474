import ShapeMatch.Proofs.Dictionary.Tables
import ShapeMatch.Proofs.Pattern.SelectedKeys
import Mathlib.Logic.Relation

/-!
# Proofs: where captures come from

A match captures values that it comes to on its way through the subject, with their identities, and
marks of absence, and it collects captures along arrays. Nothing else is captured
(`Pattern.from_of_run`); in particular no container comes from the pattern.

One plan writes captures of the value it is for, and its tests are of values that the value shows. So
this follows by induction over patterns, as what is reached from a part of the subject is reached from
the subject.
-/

namespace ShapeMatch

namespace Value

variable {u v w : Value}

/-- One look into a value. -/
inductive Shows : Value → Value → Prop where
  | property {v w : Value} {name : String} (h : v.property? name = some w) : Shows v w
  | element {v w : Value} {items : Array Value} (h : v.items? = some items) (hw : w ∈ items.toList) :
    Shows v w
  | entry {v : Value} {es : Mapping} {e : Value × Value} (h : v.entries? = some es)
      (he : e ∈ es.toList) : Shows v e.2
  | member {v w : Value} {ms : Members} (h : v.members? = some ms) (hw : w ∈ ms.toList) : Shows v w

/-- Any number of looks, each into what the one before showed. -/
abbrev Reaches : Value → Value → Prop := Relation.ReflTransGen Shows

/-- There is nothing to be seen in `undefined`. -/
theorem eq_undefined_of_reaches (h : undefined.Reaches w) : w = undefined := by
  induction h with
  | refl => rfl
  | tail _ hshow ih =>
    subst ih
    cases hshow <;> contradiction

end Value

/-- What a match may capture of a value. -/
inductive Capture.From (v : Value) : Capture → Prop where
  | absent : From v .absent
  | part {w : Value} (h : v.Reaches w) : From v (.value w)
  | collected {items : List Capture} (h : ∀ c ∈ items, From v c) : From v (.collected items)

/-- The value is what is captured, or stands in a collected sequence, at any depth. -/
inductive Capture.Holds (w : Value) : Capture → Prop where
  | value : Holds w (.value w)
  | collected {items : List Capture} {c : Capture} (hc : c ∈ items) (h : Holds w c) :
    Holds w (.collected items)

section From

variable {u v w : Value} {c : Capture}

/-- What is captured of a part of the subject, or of a missing part, is captured of the subject. -/
theorem Capture.From.of_part (hu : u = .undefined ∨ v.Reaches u) (h : From u c) : From v c := by
  induction h with
  | absent => exact .absent
  | part h =>
    rcases hu with rfl | hu
    · rw [Value.eq_undefined_of_reaches h]
      exact .absent
    · exact .part (hu.trans h)
  | collected _ ih => exact .collected ih

/-- A container in a capture is one of those in the subject. -/
theorem Capture.From.reaches (h : From v c) (hw : Holds w c) (hobject : w.isObjectLike) :
    v.Reaches w := by
  induction h with
  | absent =>
    cases hw
    contradiction
  | part h =>
    cases hw
    exact h
  | collected _ ih =>
    cases hw with
    | collected hc hw => exact ih _ hc hw

end From

/-! ## The captures of a plan -/

theorem Assoc.exists_mem_of_get? {κ α : Type} {same : κ → κ → Bool} {k : κ} {a : α}
    {entries : List (κ × α)} (h : get? same k entries = some a) : ∃ e ∈ entries, e.2 = a := by
  obtain ⟨e, he, ha⟩ := Option.map_eq_some_iff.1 h
  exact ⟨e, List.mem_of_find?_eq_some he, ha⟩

namespace Selections

variable {P : Capture → Prop} {s t : Selections}

/-- All captures are of one kind. -/
def All (P : Capture → Prop) (s : Selections) : Prop := ∀ k c, s.get? k = some c → P c

theorem all_empty : All P ∅ := by
  intro k c h
  contradiction

theorem All.merge (hs : s.All P) (ht : t.All P) : (s.merge t).All P := by
  intro k c h
  rw [get?_merge, Option.or_eq_some_iff] at h
  rcases h with h | ⟨-, h⟩
  · exact ht k c h
  · exact hs k c h

theorem all_ofList {entries : List (SelectionKey × Capture)} (h : ∀ e ∈ entries, P e.2) :
    (ofList entries).All P := by
  intro k c hc
  rw [ofList, get?_insertAll] at hc
  obtain ⟨e, he, rfl⟩ := Assoc.exists_mem_of_get? ((Option.or_none).symm.trans hc)
  exact h e (List.mem_reverse.1 he)

theorem All.foldl_merge {rows : List Selections} (hs : s.All P) (hrows : ∀ u ∈ rows, u.All P) :
    (rows.foldl Selections.merge s).All P := by
  induction rows generalizing s with
  | nil => exact hs
  | cons u rows ih =>
    obtain ⟨hu, hrows⟩ := List.forall_mem_cons.1 hrows
    exact ih (hs.merge hu) hrows

theorem all_columns {rows : List Selections}
    (hcollected : ∀ items : List Capture, (∀ c ∈ items, P c) → P (.collected items))
    (hrows : ∀ u ∈ rows, u.All P) : (columns rows).All P := by
  intro k c h
  rw [get?_columns] at h
  split at h
  · obtain rfl := Option.some.inj h
    refine hcollected _ fun c hc => ?_
    obtain ⟨u, hu, huc⟩ := List.mem_filterMap.1 hc
    exact hrows u hu k c huc
  · contradiction

end Selections

namespace Plan

/-- What a plan writes by itself. -/
def writes : Plan → List (SelectionKey × Capture)
  | every ws _ => ws
  | first ps _ => (Pattern.allKeys ps).map (·, .absent)
  | each .. | refuse .. | custom .. => []

/-- What holds of all that a plan writes and that its tests capture, and passes to collected sequences,
holds of all captures. -/
theorem all_of_run {P : Capture → Prop} {a : Plan} (ha : a.isCustom = false) {s : Selections}
    (h : a.run = some s)
    (hcollected : ∀ items : List Capture, (∀ c ∈ items, P c) → P (.collected items))
    (hwrites : ∀ e ∈ a.writes, P e.2)
    (htests : ∀ t ∈ a.tests, ∀ u, t.1.run t.2 = some u → u.All P) : s.All P := by
  cases a with
  | every ws ts =>
    obtain ⟨rows, hrows, rfl⟩ := Selections.mergeAll_eq_some_iff.1 h
    refine (Selections.all_ofList hwrites).foldl_merge fun u hu => ?_
    obtain ⟨t, ht, htu⟩ := exists_of_mem_of_map_eq hrows hu
    exact htests t ht u htu
  | each p v vs =>
    obtain ⟨rows, hrows, rfl⟩ := rows_of_run_each h
    refine Selections.all_columns hcollected fun u hu => ?_
    obtain ⟨t, ht, htu⟩ := exists_of_mem_of_map_eq hrows hu
    exact htests t ht u htu
  | first ps v =>
    obtain ⟨q, hq, u, hqu, rfl⟩ := branch_of_run_first h
    exact (Selections.all_ofList hwrites).merge (htests (q, v) (List.mem_map_of_mem hq) u hqu)
  | refuse p v =>
    rw [eq_empty_of_run_refuse h]
    exact Selections.all_empty
  | custom => contradiction

end Plan

theorem Table.mem_toList_of_get? {ι ε : Type} [BEq ι] [Hashable ι] {t : Table ι ε} {k : ι} {e : ε}
    (h : t.get? k = some e) : e ∈ t.toList := by
  obtain ⟨i, -, hi⟩ := Option.bind_eq_some_iff.1 h
  exact Table.mem_toList_iff.2 ⟨i, hi⟩

namespace Pattern

variable {p : Pattern} {v : Value} {a : Plan}

theorem from_of_mem_writes (h : p.plan v = some a) {e : SelectionKey × Capture}
    (he : e ∈ a.writes) : e.2.From v := by
  cases planned_of_plan h with
  | select | selectWith =>
    obtain rfl := List.mem_singleton.1 he
    exact .part .refl
  | optionalAbsent | union =>
    obtain ⟨k, -, rfl⟩ := List.mem_map.1 he
    exact .absent
  | arrayEmpty =>
    obtain ⟨k, -, rfl⟩ := List.mem_map.1 he
    exact .collected (by simp)
  | _ => contradiction

/-- The tests of a plan are of parts of the value, or of a missing part. -/
theorem reaches_of_mem_tests (h : p.plan v = some a) {t : Pattern × Value} (ht : t ∈ a.tests) :
    t.2 = .undefined ∨ v.Reaches t.2 := by
  cases planned_of_plan h with
  | literal | guard | members | optionalAbsent | arrayEmpty | select | custom => contradiction
  | object hts =>
    obtain ⟨f, -, hft⟩ := exists_of_mem_of_map_eq hts ht
    obtain ⟨w, hw, rfl⟩ := Option.map_eq_some_iff.1 hft
    rw [Value.part?] at hw
    split at hw
    · -- A field that may be missing, and is, gets tested on `undefined`.
      obtain rfl := Option.some.inj hw
      cases hproperty : v.property? f.1 with
      | none => exact .inl rfl
      | some u => exact .inr (.single (.property hproperty))
    · contradiction
  | tuple hv => exact .inr (.single (.element hv (List.of_mem_zip ht).2))
  | @map entries _ es hv =>
    obtain ⟨e, -, rfl⟩ := List.mem_map.1 ht
    cases hd : es.get? e.1.key with
    | none => exact .inl rfl
    | some d => exact .inr (.single (.entry hv (Table.mem_toList_of_get? hd)))
  | loneMatcher hv =>
    obtain ⟨w, hw, rfl⟩ := List.mem_map.1 ht
    exact .inr (.single (.member hv hw))
  | arrayCons hv =>
    obtain ⟨w, hw, rfl⟩ := List.mem_map.1 ht
    exact .inr (.single (.element hv hw))
  | intersection | union =>
    obtain ⟨q, -, rfl⟩ := List.mem_map.1 ht
    exact .inr .refl
  | optionalPresent | not | selectWith =>
    obtain rfl := List.mem_singleton.1 ht
    exact .inr .refl

theorem all_from_of_run (hp : p.CustomFree) {s : Selections} (h : p.run v = some s) :
    s.All (Capture.From v) := by
  induction p using inductionOnParts generalizing v s with
  | step p ih =>
    rw [run_eq_plan] at h
    obtain ⟨a, ha, hs⟩ := Option.bind_eq_some_iff.1 h
    refine Plan.all_of_run ((isCustom_plan ha).trans hp.here) hs (fun _ => .collected)
      (fun e he => from_of_mem_writes ha he) fun t ht u hu k c hc => ?_
    have hpart := mem_parts_of_mem_tests ha ht
    exact (ih t.1 hpart (hp.part hpart) hu k c hc).of_part (reaches_of_mem_tests ha ht)

/-- **No capture is invented.** What a match selects is a mark of absence, a value that is reached from
the subject, or a sequence of such captures. A container in it, also inside a sequence, is always one
that is reached from the subject, and never one that only the pattern has. -/
theorem from_of_run (hp : p.CustomFree) {s : Selections} (h : p.run v = some s) {k : SelectionKey}
    {c : Capture} (hc : s.get? k = some c) :
    c.From v ∧ ∀ w : Value, c.Holds w → w.isObjectLike → v.Reaches w := by
  have hfrom : c.From v := all_from_of_run hp h k c hc
  exact ⟨hfrom, fun w hw hobject => hfrom.reaches hw hobject⟩

/-- A value other than a certain array, and a sequence. -/
def samplePair : Pattern :=
  tuple #[selectWith ⟨0⟩ (.named "x") (not ⟨1⟩ (literal (.array ⟨9⟩ #[]))),
    array ⟨2⟩ (select ⟨3⟩ (.named "y"))]

/-- Two arrays, the second one with an array in it. -/
def sampleNested : Value :=
  .array ⟨4⟩ #[.array ⟨5⟩ #[.null], .array ⟨6⟩ #[.array ⟨7⟩ #[], .undefined]]

theorem from_of_run_samplePair :
    samplePair.CustomFree ∧ samplePair.isMatch sampleNested ∧
      (samplePair.selections sampleNested).get? (.named "y") =
        some (.collected [.value (.array ⟨7⟩ #[]), .value .undefined]) ∧
      sampleNested.Reaches (.array ⟨7⟩ #[]) := by
  have hp : samplePair.CustomFree := by decide
  have hm : samplePair.isMatch sampleNested := by decide +kernel
  have hc : (samplePair.selections sampleNested).get? (.named "y") =
      some (.collected [.value (.array ⟨7⟩ #[]), .value .undefined]) := by with_unfolding_all rfl
  refine ⟨hp, hm, hc, ?_⟩
  exact (from_of_run hp (run_of_isMatch hm) hc).2 _ (.collected List.mem_cons_self .value) rfl

end Pattern

end ShapeMatch
