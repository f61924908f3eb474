import ShapeMatch.Proofs.Pattern.Branches
import ShapeMatch.Proofs.Pattern.SelectedKeys
import ShapeMatch.Proofs.Pattern.Verdict
import Mathlib.Data.List.Basic

/-!
# Proofs: the order of independent parts

The fields of an object pattern, the entries of a map pattern and the parts of an intersection are
asked one by one, each for a value that does not depend on its place, and all of them have to match.
So their order has no part in the verdict, although no part is asked after one that failed. It has one
in the selections, where the later capture under a key stays; but a match selects declared keys only,
so nothing is overwritten if the parts declare no key in common (`Pattern.order_of_parts`).
-/

namespace ShapeMatch

/-! ## Merging in another order -/

/-- Members of which at most one has a result may stand in any order. -/
theorem filterMap_eq_of_perm {α β : Type} {f : α → Option β} {l l' : List α} (h : l.Perm l')
    (hone : l.Pairwise fun a b => ¬ ((f a).isSome ∧ (f b).isSome)) :
    l.filterMap f = l'.filterMap f := by
  have hperm : (l.filterMap f).Perm (l'.filterMap f) := h.filterMap f
  have hpair : (l.filterMap f).Pairwise fun _ _ => False := by
    rw [List.pairwise_filterMap]
    refine hone.imp fun {a a'} hnot b hb b' hb' => hnot ⟨?_, ?_⟩
    · rw [hb, Option.isSome_some]
    · rw [hb', Option.isSome_some]
  rcases hl : l.filterMap f with _ | ⟨b, _ | ⟨c, bs⟩⟩
  · rw [hl] at hperm
    exact (List.nil_perm.1 hperm).symm
  · rw [hl] at hperm
    exact (List.perm_singleton.1 hperm.symm).symm
  · rw [hl] at hpair
    exact absurd (List.rel_of_pairwise_cons hpair List.mem_cons_self) id

namespace Selections

variable {α : Type} {f : α → Option Selections} {l l' : List α} {s s' : Selections}

/-- Of the captures that the results of tests have under one key, the last one stays. -/
theorem get?_mergeAll (hs : mergeAll ∅ (l.map f) = some s) (k : SelectionKey) :
    s.get? k = (l.filterMap fun a => (f a).bind (·.get? k)).getLast? := by
  obtain ⟨rows, hrows, rfl⟩ := mergeAll_eq_some_iff.1 hs
  have hfilter : l.filterMap f = rows := by
    have hid : (l.map f).filterMap id = (rows.map some).filterMap id := congrArg _ hrows
    simpa using hid
  rw [get?_foldl_merge, get?_empty, Option.or_none, ← hfilter, List.filterMap_filterMap]

/-- Results of which no two have a capture under one key may be merged in any order. -/
theorem get?_mergeAll_perm (h : l.Perm l') (hs : mergeAll ∅ (l.map f) = some s)
    (hs' : mergeAll ∅ (l'.map f) = some s') (k : SelectionKey)
    (hone : l.Pairwise fun a b =>
      ¬ (((f a).bind (·.get? k)).isSome ∧ ((f b).bind (·.get? k)).isSome)) :
    s.get? k = s'.get? k := by
  rw [get?_mergeAll hs, get?_mergeAll hs', filterMap_eq_of_perm h hone]

theorem isSome_mergeAll_perm (h : l.Perm l') :
    (mergeAll ∅ (l.map f)).isSome = (mergeAll ∅ (l'.map f)).isSome := by
  have hmem : ∀ r, r ∈ l.map f ↔ r ∈ l'.map f := fun r => (h.map f).mem_iff
  rw [Bool.eq_iff_iff, isSome_mergeAll_iff, isSome_mergeAll_iff]
  simp only [hmem]

end Selections

namespace Pattern

/-! ## Entries that are asked one by one -/

section AskEach

variable {α : Type} (part : α → Pattern) (about? : Option (α → Option Value))

/-- What the entries select if each is asked for the value that it is about. There is no result if the
subject has not the shape that is asked for, if the value of an entry is missing, or if it does not
match. -/
def askEach (entries : List α) : Option Selections :=
  about?.bind fun about => Selections.mergeAll ∅ (entries.map fun e => (about e).bind (part e).run)

variable {part about?} {entries entries' : List α}

theorem isSome_askEach_perm (h : entries.Perm entries') :
    (askEach part about? entries).isSome = (askEach part about? entries').isSome := by
  unfold askEach
  cases about? with
  | none => rfl
  | some about => exact Selections.isSome_mergeAll_perm h

/-- What an entry selects stands under a key that its pattern declares. -/
theorem mem_keys_of_ask {p : Pattern} (hp : p.CustomFree) {w? : Option Value} {k : SelectionKey}
    (hk : ((w?.bind p.run).bind (·.get? k)).isSome) : k ∈ p.keys := by
  obtain ⟨c, hc⟩ := Option.isSome_iff_exists.1 hk
  obtain ⟨s, hs, hsc⟩ := Option.bind_eq_some_iff.1 hc
  obtain ⟨w, -, hw⟩ := Option.bind_eq_some_iff.1 hs
  have hmem : k ∈ s.keys := by
    rw [← Selections.isSome_get?_iff, hsc, Option.isSome_some]
  exact keys_subset_of_run hp hw hmem

/-- No two entries select under one key if their patterns declare none in common. -/
theorem pairwise_ask (about : α → Option Value) (hfree : ∀ e ∈ entries, (part e).CustomFree)
    (hapart : entries.Pairwise fun e d => (part e).keys.Disjoint (part d).keys) (k : SelectionKey) :
    entries.Pairwise fun e d => ¬ ((((about e).bind (part e).run).bind (·.get? k)).isSome ∧
      (((about d).bind (part d).run).bind (·.get? k)).isSome) := by
  refine hapart.imp_of_mem fun {e d} he hd hdisjoint hboth => ?_
  have hke : k ∈ (part e).keys := mem_keys_of_ask (hfree e he) hboth.1
  have hkd : k ∈ (part d).keys := mem_keys_of_ask (hfree d hd) hboth.2
  exact hdisjoint hke hkd

theorem get?_askEach_perm (h : entries.Perm entries') (hfree : ∀ e ∈ entries, (part e).CustomFree)
    (hapart : entries.Pairwise fun e d => (part e).keys.Disjoint (part d).keys) (k : SelectionKey) :
    ((askEach part about? entries).getD ∅).get? k =
      ((askEach part about? entries').getD ∅).get? k := by
  have hsome : (askEach part about? entries).isSome = (askEach part about? entries').isSome :=
    isSome_askEach_perm h
  unfold askEach at hsome ⊢
  cases about? with
  | none => rfl
  | some about =>
    simp only [Option.bind_some] at hsome ⊢
    rcases hs : Selections.mergeAll ∅ (entries.map fun e => (about e).bind (part e).run) with _ | s
    · rw [hs, Option.isSome_none, eq_comm, Option.isSome_eq_false_iff,
        Option.isNone_iff_eq_none] at hsome
      rw [hsome]
    · rw [hs, Option.isSome_some, eq_comm, Option.isSome_iff_exists] at hsome
      obtain ⟨s', hs'⟩ := hsome
      rw [hs']
      exact Selections.get?_mergeAll_perm h hs hs' k (pairwise_ask about hfree hapart k)

end AskEach

/-! ## Three forms that ask one by one -/

theorem run_object_eq_askEach (fields : List (String × Pattern)) (v : Value) :
    (object fields).run v =
      askEach Prod.snd
        (if v.isObjectLike then some fun f => v.part? f.1 f.2.isOptional else none) fields := by
  rw [run]
  by_cases hv : v.isObjectLike
  · rw [if_pos hv, if_pos hv, runFields_eq]
    rfl
  · rw [if_neg hv, if_neg hv]
    rfl

theorem run_map_eq_askEach (entries : List (Value × Pattern)) (v : Value) :
    (map entries).run v =
      askEach Prod.snd
        (v.entries?.map fun es e => some (((es.get? e.1.key).map Prod.snd).getD .undefined))
        entries := by
  rw [run]
  cases v.entries? with
  | none => rfl
  | some es =>
    show runEntries entries es ∅ = _
    rw [runEntries_eq]
    rfl

theorem run_intersection_eq_askEach (h : Ref) (ps : List Pattern) (v : Value) :
    (intersection h ps).run v = askEach id (some fun _ => some v) ps := by
  rw [run_intersection]
  rfl

/-- Two patterns give the same verdict on the value, and if the parts of the first one declare no key
in common, both select the same under every key. -/
structure Interchangeable (p q : Pattern) (v : Value) : Prop where
  verdict : p.isMatch v = q.isMatch v
  captures : p.CustomFree → (p.parts.Pairwise fun a b => a.keys.Disjoint b.keys) →
    ∀ k, (p.selections v).get? k = (q.selections v).get? k

theorem interchangeable_of_askEach {α : Type} {part : α → Pattern}
    {about? : Option (α → Option Value)} {entries entries' : List α} {p q : Pattern} {v : Value}
    (h : entries.Perm entries') (hp : p.run v = askEach part about? entries)
    (hq : q.run v = askEach part about? entries') (hparts : p.parts = entries.map part) :
    Interchangeable p q v where
  verdict := by
    rw [isMatch, isMatch, hp, hq]
    exact isSome_askEach_perm h
  captures := by
    intro hfree hapart k
    rw [selections, selections, hp, hq]
    refine get?_askEach_perm h ?_ ?_ k
    · intro e he
      have hmem : part e ∈ p.parts := hparts ▸ List.mem_map_of_mem he
      exact hfree.part hmem
    · rw [hparts] at hapart
      rwa [List.pairwise_map] at hapart

/-- **The order of independent parts does not matter.** Rearranging the fields of an object pattern, the
entries of a map pattern, the parts of an intersection or the branches of a union changes no verdict.
What the first three select stays the same under every key if their parts declare no key in common. -/
theorem order_of_parts (v : Value) :
    (∀ fields fields' : List (String × Pattern), fields.Perm fields' →
      Interchangeable (object fields) (object fields') v) ∧
    (∀ entries entries' : List (Value × Pattern), entries.Perm entries' →
      Interchangeable (map entries) (map entries') v) ∧
    (∀ (h h' : Ref) (ps ps' : List Pattern), ps.Perm ps' →
      Interchangeable (intersection h ps) (intersection h' ps') v) ∧
    ∀ (h h' : Ref) (ps ps' : List Pattern), ps.Perm ps' →
      (union h ps).isMatch v = (union h' ps').isMatch v := by
  refine ⟨?_, ?_, ?_, ?_⟩
  · intro fields fields' hperm
    exact interchangeable_of_askEach hperm (run_object_eq_askEach fields v)
      (run_object_eq_askEach fields' v) rfl
  · intro entries entries' hperm
    exact interchangeable_of_askEach hperm (run_map_eq_askEach entries v)
      (run_map_eq_askEach entries' v) rfl
  · intro h h' ps ps' hperm
    exact interchangeable_of_askEach hperm (run_intersection_eq_askEach h ps v)
      (run_intersection_eq_askEach h' ps' v) (List.map_id ps).symm
  · intro h h' ps ps' hperm
    have hmem : ∀ p, p ∈ ps ↔ p ∈ ps' := fun p => hperm.mem_iff
    rw [Bool.eq_iff_iff, isMatch_union, isMatch_union]
    simp only [hmem]

/-- Fields for one element and the length, with the element asked for twice. -/
def sampleFields : List (String × Pattern) :=
  [("0", select ⟨0⟩ (.named "x")), ("length", select ⟨1⟩ .anonymous), ("0", literal .null)]

theorem order_of_parts_sampleFields :
    sampleFields.Perm sampleFields.reverse ∧ (object sampleFields).CustomFree ∧
      ((object sampleFields).parts.Pairwise fun a b => a.keys.Disjoint b.keys) ∧
      (object sampleFields.reverse).isMatch (.array ⟨2⟩ #[.null]) ∧
      ((object sampleFields.reverse).selections (.array ⟨2⟩ #[.null])).get? (.named "x") =
        some (.value .null) := by
  have hperm : sampleFields.Perm sampleFields.reverse := sampleFields.reverse_perm.symm
  have hfree : (object sampleFields).CustomFree := by decide
  have hapart : (object sampleFields).parts.Pairwise fun a b => a.keys.Disjoint b.keys := by
    simp [sampleFields, parts, keys]
  obtain ⟨hverdict, hcaptures⟩ :=
    (order_of_parts (.array ⟨2⟩ #[.null])).1 sampleFields sampleFields.reverse hperm
  refine ⟨hperm, hfree, hapart, ?_, ?_⟩
  · rw [← hverdict]
    rfl
  · rw [← hcaptures hfree hapart]
    rfl

end Pattern

end ShapeMatch
