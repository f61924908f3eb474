import ShapeMatch.Proofs.Dispatch.Flattening
import ShapeMatch.Proofs.Pattern.SelectedKeys
import ShapeMatch.Proofs.Selection.Record

/-!
# Proofs: the argument of a handler is of one kind

What a handler gets is decided after each match, by what was selected then. Yet a match selects the
declared keys whatever the subject is, so the keys of the pattern decide the kind of the argument
(`Pattern.argument_of_isMatch`), and with it the names that the handler can ask for and the fields of
the record that it can make of them.
-/

namespace ShapeMatch

namespace Dispatch

variable {R : Type}

/-! ## The answer of a chain with a case in it -/

theorem answer?_add (d : Dispatch R) (test : CaseTest) (h : Handler R) :
    (d.add test h).answer? =
      d.answer?.or ((test.run d.subject).map fun a => h a d.subject) := by
  unfold answer? add
  rw [List.findSome?_append, List.findSome?_singleton]

/-- A step leaves the answer that there is. -/
theorem answer?_apply {d : Dispatch R} {r : R} (hd : d.answer? = some r) (step : Step R) :
    (d.apply step).answer? = some r := by
  have hadd : ∀ test h, (d.add test h).answer? = some r := by
    intro test h
    rw [answer?_add, hd, Option.some_or]
  cases step with
  | withConfig config => exact hd
  | accept | acceptAny | acceptIf | acceptAnyIf | acceptWhen => exact hadd _ _

theorem answer?_foldl {d : Dispatch R} {r : R} (hd : d.answer? = some r) (steps : List (Step R)) :
    (steps.foldl apply d).answer? = some r := by
  induction steps generalizing d with
  | nil => exact hd
  | cons step steps ih => exact ih (answer?_apply hd step)

/-- A case whose pattern matches answers, unless an earlier case does. -/
theorem run_build_accept {p : Pattern} {v : Value} {s : Selections} (hs : p.run v = some s)
    (before after : List (Step R)) (h : Handler R) :
    (build v (before ++ .accept p h :: after)).run =
      .ok ((build v before).answer?.getD (h (.ofSelections v s) v)) := by
  have hsubject : (build v before).subject = v := subject_foldl _ before
  have haccept : ((build v before).accept p h).answer? =
      some ((build v before).answer?.getD (h (.ofSelections v s) v)) := by
    rw [accept, answer?_add, hsubject, CaseTest.run, List.findSome?_singleton, hs]
    cases (build v before).answer? <;> rfl
  have hall : (build v (before ++ .accept p h :: after)).answer? =
      some ((build v before).answer?.getD (h (.ofSelections v s) v)) := by
    unfold build
    rw [List.foldl_append, List.foldl_cons]
    exact answer?_foldl haccept after
  rw [run, hall]

end Dispatch

/-! ## The kinds of argument -/

namespace Selected

variable {s : Selections} (v : Value)

theorem ofSelections_of_keys_eq_nil (h : s.keys = []) : ofSelections v s = .subject v := by
  rw [ofSelections, if_pos (Selections.isEmpty_iff.2 h)]

theorem ofSelections_of_keys_ne_nil (h : s.keys ≠ []) :
    ofSelections v s = (s.anonymous?.map anonymous).getD (.named s) := by
  rw [ofSelections, if_neg (mt Selections.isEmpty_iff.1 h)]
  cases s.anonymous? <;> rfl

theorem ofSelections_of_mem (h : .anonymous ∈ s.keys) :
    ∃ c, s.anonymous? = some c ∧ ofSelections v s = .anonymous c := by
  obtain ⟨c, hc⟩ := Selections.exists_get?_of_mem h
  refine ⟨c, hc, ?_⟩
  rw [ofSelections_of_keys_ne_nil v (List.ne_nil_of_mem h), Selections.anonymous?, hc]
  rfl

theorem ofSelections_of_not_mem (h : .anonymous ∉ s.keys) (hne : s.keys ≠ []) :
    ofSelections v s = .named s := by
  have hnone : s.get? .anonymous = none := Selections.get?_eq_none_iff.2 h
  rw [ofSelections_of_keys_ne_nil v hne, Selections.anonymous?, hnone]
  rfl

end Selected

namespace Pattern

/-- The argument is of the kind that the keys of the pattern call for. Named selections are there for
the declared names and no others, and they become a record with one field for each. -/
structure HasArgument (p : Pattern) (v : Value) (a : Selected) : Prop where
  anonymous : .anonymous ∈ p.keys → ∃ c, (p.selections v).anonymous? = some c ∧ a = .anonymous c
  named : .anonymous ∉ p.keys → p.keys ≠ [] → a = .named (p.selections v) ∧
    (∀ name, (a.get? name).isSome ↔ .named name ∈ p.keys) ∧
    ∀ next, (a.toValue.run next).1.IsRecordOf (p.keys.eraseDups.filterMap SelectionKey.name?)
      fun name => a.get? name
  subject : p.keys = [] → a = .subject v

/-- Where the declared keys were selected, they decide about the argument. -/
theorem hasArgument_of_keys {p : Pattern} {v : Value}
    (hkeys : (p.selections v).keys = p.keys.eraseDups) :
    p.HasArgument v (.ofSelections v (p.selections v)) := by
  have hmem : ∀ k, k ∈ (p.selections v).keys ↔ k ∈ p.keys := by
    intro k
    rw [hkeys, List.mem_eraseDups]
  constructor
  · intro hanonymous
    exact Selected.ofSelections_of_mem v ((hmem _).2 hanonymous)
  · intro hanonymous hne
    obtain ⟨k, hk⟩ := List.exists_mem_of_ne_nil _ hne
    have hnamed : Selected.ofSelections v (p.selections v) = .named (p.selections v) :=
      Selected.ofSelections_of_not_mem v (fun h => hanonymous ((hmem _).1 h))
        (List.ne_nil_of_mem ((hmem k).2 hk))
    rw [hnamed, ← hkeys]
    refine ⟨rfl, fun name => ?_, (p.selections v).isRecordOf_toValue⟩
    rw [← hmem, ← Selections.isSome_get?_iff, ← Selections.getNamed?_eq]
    rfl
  · intro hnil
    refine Selected.ofSelections_of_keys_eq_nil v ?_
    rw [hkeys, hnil]
    rfl

/-- **The argument of a handler is of one kind.** Let no matcher of the caller be in the pattern and no
set pattern have a single matcher. Whatever subject matches, the handler gets the anonymous selection
if the pattern declares one, else the named selections if it declares any, and else the subject, unless
an earlier case answers. -/
theorem argument_of_isMatch {p : Pattern} (hp : p.CustomFree) (hlone : p.LoneMatcherFree) {v : Value}
    (hm : p.isMatch v) :
    ∃ a, p.HasArgument v a ∧ ∀ {R : Type} (before after : List (Dispatch.Step R)) (h : Handler R),
      (Dispatch.build v (before ++ .accept p h :: after)).run =
        .ok ((Dispatch.build v before).answer?.getD (h a v)) := by
  have hrun : p.run v = some (p.selections v) := run_of_isMatch hm
  have hkeys : (p.selections v).keys = p.keys.eraseDups :=
    keys_of_run hp (hlone.not_starved v) hrun
  refine ⟨_, hasArgument_of_keys hkeys, fun before after h => ?_⟩
  exact Dispatch.run_build_accept hrun before after h

/-- A row of a field that may be absent, one that may not, and one that is a column. -/
def sampleEntry : Pattern :=
  tuple #[optional ⟨0⟩ (select ⟨1⟩ (.named "x")), select ⟨2⟩ (.named "y"),
    array ⟨3⟩ (select ⟨4⟩ (.named "z"))]

/-- A value of that row, whose first field is absent. -/
def sampleSubject : Value := .array ⟨5⟩ #[.undefined, .null, .array ⟨6⟩ #[.bool true, .null]]

theorem argument_of_isMatch_sampleEntry :
    sampleEntry.CustomFree ∧ sampleEntry.LoneMatcherFree ∧ sampleEntry.isMatch sampleSubject ∧
      (Dispatch.build sampleSubject
        [.accept sampleEntry fun a _ => (a.toValue.run 7).1.property? "y"]).run = .ok (some .null) ∧
      (Dispatch.build sampleSubject
        [.accept sampleEntry fun a _ => (a.toValue.run 7).1.hasProperty "x"]).run = .ok true ∧
      (Dispatch.build sampleSubject
        [.accept sampleEntry fun a _ => ((a.toValue.run 7).1.property? "z").bind Value.items?]).run =
          .ok (some #[.bool true, .null]) := by
  have hp : sampleEntry.CustomFree := by decide
  have hlone : sampleEntry.LoneMatcherFree := by decide
  have hm : sampleEntry.isMatch sampleSubject := by decide +kernel
  obtain ⟨a, ha, hrun⟩ := argument_of_isMatch hp hlone hm
  obtain ⟨hnamed, -, hrecord⟩ := ha.named (by decide) (by decide)
  have hy : (a.toValue.run 7).1.property? "y" = some .null := by
    have hget : a.get? "y" = some (.value .null) := by
      rw [hnamed]
      -- The traversal of an array is recursive on its indices, and irreducible.
      with_unfolding_all rfl
    exact (hrecord 7).property?_eq hget
  have hx : (a.toValue.run 7).1.hasProperty "x" = true := by
    rw [(hrecord 7).hasProperty]
    decide
  have hz : ((a.toValue.run 7).1.property? "z").bind Value.items? = some #[.bool true, .null] := by
    have hget : a.get? "z" = some (.collected [.value (.bool true), .value .null]) := by
      rw [hnamed]
      with_unfolding_all rfl
    obtain ⟨r, ⟨items⟩, harray, hitems⟩ := (hrecord 7).property?_eq_array hget
    have hlist : items = [.bool true, .null] := by
      cases hitems with
      | cons htrue hitems =>
        cases hitems with
        | cons hnull hnil =>
          cases hnil
          rw [Capture.becomes_value_iff.1 htrue, Capture.becomes_value_iff.1 hnull]
    rw [harray, hlist]
    rfl
  refine ⟨hp, hlone, hm, ?_, ?_, ?_⟩
  · rw [← hy]
    exact hrun [] [] fun a _ => (a.toValue.run 7).1.property? "y"
  · rw [← hx]
    exact hrun [] [] fun a _ => (a.toValue.run 7).1.hasProperty "x"
  · rw [← hz]
    exact hrun [] [] fun a _ => ((a.toValue.run 7).1.property? "z").bind Value.items?

end Pattern

end ShapeMatch
