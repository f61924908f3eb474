import ShapeMatch.Dispatch.Chain
import ShapeMatch.Pattern.Builder

/-!
# Proofs: a dispatch is a flat table of rows

A case tests its patterns first and its guard after that, and a dispatch tests its cases. Yet a
dispatch is no more than a flat table: a `Row` is one pattern with a guard and a handler, a case
stands for one row for each of its patterns, and the answer is that of the first row that qualifies
(`Dispatch.answer?_eq_find?`). Where the guard fails after a pattern matched, the later patterns of
the case are not tried; their rows could not qualify, since the guard looks at the subject alone.

A `Step` is one call in the chain that builds a dispatch. Each step appends its rows
(`Dispatch.rows_apply`), so the table of the chain is that of its steps in order.
-/

namespace ShapeMatch

variable {R : Type}

/-- A pattern that the subject must match, a guard that must hold of it besides, and a handler. -/
structure Row (R : Type) where
  pattern : Pattern
  guard : Guard
  handler : Handler R

namespace Row

/-- Whether the row takes the subject. -/
def qualifies (r : Row R) (v : Value) : Bool := r.pattern.isMatch v && r.guard v

/-- What the handler makes of the selections of the pattern. -/
def answer (r : Row R) (v : Value) : R :=
  r.handler (.ofSelections v (r.pattern.selections v)) v

/-- The row of a guard that stands without a pattern. The pattern is `any`, with the handle that the
supply has next. -/
def ofGuard (next : Nat) (g : Guard) (h : Handler R) : Row R := ⟨(Pattern.newAny.run next).1, g, h⟩

/-- The row of a pattern, whose guard may be missing. -/
def ofPattern (g : Option Guard) (h : Handler R) (p : Pattern) : Row R :=
  ⟨p, g.getD fun _ => true, h⟩

@[simp] theorem qualifies_ofGuard (next : Nat) (g : Guard) (h : Handler R) (v : Value) :
    (ofGuard next g h).qualifies v = g v :=
  Bool.true_and (g v)

/-- Any value matches without a selection, so the handler gets the subject. -/
@[simp] theorem answer_ofGuard (next : Nat) (g : Guard) (h : Handler R) (v : Value) :
    (ofGuard next g h).answer v = h (.subject v) v := rfl

theorem qualifies_ofPattern (g : Option Guard) (h : Handler R) (p : Pattern) (v : Value) :
    (ofPattern g h p).qualifies v = (p.isMatch v && g.all (· v)) := by
  cases g <;> rfl

end Row

/-! ## The rows of a case -/

/-- The rows that a case stands for. -/
def Case.rows (next : Nat) (c : Case R) : List (Row R) :=
  match c.test with
  | .patterns ps g => ps.map (Row.ofPattern g c.handler)
  | .guard holds => [Row.ofGuard next holds c.handler]

/-- A guard that fails leaves no row of its patterns to qualify. -/
theorem find?_rows_of_guard {g : Option Guard} {v : Value} (hg : g.all (· v) = false)
    (h : Handler R) (ps : List Pattern) :
    (ps.map (Row.ofPattern g h)).find? (·.qualifies v) = none := by
  rw [List.find?_eq_none]
  intro r hr
  obtain ⟨p, -, rfl⟩ := List.mem_map.1 hr
  rw [Row.qualifies_ofPattern, hg, Bool.and_false]
  exact Bool.false_ne_true

/-- While the guard holds, the first row to qualify is that of the first pattern that matches. -/
theorem find?_rows_of_first {g : Option Guard} {v : Value} (hg : g.all (· v) = true)
    (h : Handler R) (ps : List Pattern) :
    ((ps.map (Row.ofPattern g h)).find? (·.qualifies v)).map (·.answer v) =
      (ps.findSome? (·.run v)).map fun s => h (.ofSelections v s) v := by
  induction ps with
  | nil => rfl
  | cons p ps ih =>
    rw [List.map_cons, List.findSome?_cons]
    cases hp : p.run v with
    | none =>
      have hq : (Row.ofPattern g h p).qualifies v = false := by
        rw [Row.qualifies_ofPattern, Pattern.isMatch, hp]
        rfl
      rw [List.find?_cons, hq]
      exact ih
    | some s =>
      have hq : (Row.ofPattern g h p).qualifies v = true := by
        rw [Row.qualifies_ofPattern, Pattern.isMatch, hp, hg]
        rfl
      have hs : p.selections v = s := by rw [Pattern.selections, hp, Option.getD_some]
      rw [List.find?_cons, hq]
      show some (h (.ofSelections v (p.selections v)) v) = some (h (.ofSelections v s) v)
      rw [hs]

/-- A case answers as the first of its rows that qualifies. -/
theorem Case.answer_eq_find? (next : Nat) (c : Case R) (v : Value) :
    (c.test.run v).map (fun a => c.handler a v) =
      ((c.rows next).find? (·.qualifies v)).map (·.answer v) := by
  obtain ⟨test, h⟩ := c
  cases test with
  | patterns ps g =>
    rw [CaseTest.run, rows]
    -- The guard looks at the subject alone, so it holds for all rows of the case or for none.
    cases hg : g.all (· v) with
    | false =>
      rw [find?_rows_of_guard hg]
      cases ps.findSome? (·.run v) <;> rfl
    | true =>
      rw [find?_rows_of_first hg]
      cases ps.findSome? (·.run v) <;> rfl
  | guard holds =>
    rw [CaseTest.run, rows, List.find?_singleton, Row.qualifies_ofGuard]
    by_cases hv : holds v
    · rw [if_pos hv, if_pos hv, Option.map_some, Option.map_some, Row.answer_ofGuard]
    · rw [if_neg hv, if_neg hv, Option.map_none, Option.map_none]

namespace Dispatch

/-! ## The rows of a dispatch -/

/-- The rows of all cases. -/
def rows (next : Nat) (d : Dispatch R) : List (Row R) := d.cases.flatMap (Case.rows next)

/-- A dispatch answers as the first of its rows that qualifies. -/
theorem answer?_eq_find? (next : Nat) (d : Dispatch R) :
    d.answer? = ((d.rows next).find? (·.qualifies d.subject)).map (·.answer d.subject) := by
  obtain ⟨v, cases, config⟩ := d
  rw [answer?, rows]
  show cases.findSome? _ = _
  induction cases with
  | nil => rfl
  | cons c cases ih =>
    rw [List.findSome?_cons, List.flatMap_cons, List.find?_append, Case.answer_eq_find? next]
    cases (c.rows next).find? (·.qualifies v) with
    | none => exact ih
    | some r => rfl

/-! ## The chain that builds a dispatch -/

/-- One call in the chain that builds a dispatch, named after what it calls. -/
inductive Step (R : Type) where
  | accept (p : Pattern) (h : Handler R)
  | acceptAny (ps : List Pattern) (h : Handler R)
  | acceptIf (p : Pattern) (g : Guard) (h : Handler R)
  | acceptAnyIf (ps : List Pattern) (g : Guard) (h : Handler R)
  | acceptWhen (g : Guard) (h : Handler R)
  | withConfig (config : RenderConfig)

/-- The dispatch after a step. -/
def apply (d : Dispatch R) : Step R → Dispatch R
  | .accept p h => d.accept p h
  | .acceptAny ps h => d.acceptAny ps h
  | .acceptIf p g h => d.acceptIf p g h
  | .acceptAnyIf ps g h => d.acceptAnyIf ps g h
  | .acceptWhen g h => d.acceptWhen g h
  | .withConfig config => d.withConfig config

/-- The dispatch on a subject after a chain of steps. -/
def build (v : Value) (steps : List (Step R)) : Dispatch R := steps.foldl apply (ofSubject v)

/-- The rows that a step adds: one for each pattern. Where there is no guard it always holds, and
where there is no pattern any value matches. -/
def Step.rows (next : Nat) : Step R → List (Row R)
  | accept p h => [⟨p, fun _ => true, h⟩]
  | acceptAny ps h => ps.map (⟨·, fun _ => true, h⟩)
  | acceptIf p g h => [⟨p, g, h⟩]
  | acceptAnyIf ps g h => ps.map (⟨·, g, h⟩)
  | acceptWhen g h => [⟨(Pattern.newAny.run next).1, g, h⟩]
  | withConfig _ => []

/-- The rendering that a step sets. -/
def Step.config? : Step R → Option RenderConfig
  | withConfig config => some config
  | _ => none

/-- The rendering that was set last in a chain, or the one to begin with. -/
def lastConfig (steps : List (Step R)) : RenderConfig :=
  ((steps.filterMap Step.config?).getLast?).getD {}

theorem subject_apply (d : Dispatch R) (step : Step R) : (d.apply step).subject = d.subject := by
  cases step <;> rfl

theorem config_apply (d : Dispatch R) (step : Step R) :
    (d.apply step).config = step.config?.getD d.config := by
  cases step <;> rfl

theorem rows_add (next : Nat) (d : Dispatch R) (test : CaseTest) (h : Handler R) :
    (d.add test h).rows next = d.rows next ++ Case.rows next ⟨test, h⟩ := by
  rw [rows, rows, add, List.flatMap_append, List.flatMap_singleton]

/-- A step appends its rows. -/
theorem rows_apply (next : Nat) (d : Dispatch R) (step : Step R) :
    (d.apply step).rows next = d.rows next ++ step.rows next := by
  cases step with
  | withConfig config => exact (List.append_nil _).symm
  | accept | acceptAny | acceptIf | acceptAnyIf | acceptWhen => exact rows_add next d _ _

theorem subject_foldl (d : Dispatch R) (steps : List (Step R)) :
    (steps.foldl apply d).subject = d.subject := by
  induction steps generalizing d with
  | nil => rfl
  | cons step steps ih => rw [List.foldl_cons, ih, subject_apply]

theorem rows_foldl (next : Nat) (d : Dispatch R) (steps : List (Step R)) :
    (steps.foldl apply d).rows next = d.rows next ++ steps.flatMap (Step.rows next) := by
  induction steps generalizing d with
  | nil => exact (List.append_nil _).symm
  | cons step steps ih =>
    rw [List.foldl_cons, ih, rows_apply, List.flatMap_cons, List.append_assoc]

theorem config_foldl (d : Dispatch R) (steps : List (Step R)) :
    (steps.foldl apply d).config = ((steps.filterMap Step.config?).getLast?).getD d.config := by
  induction steps generalizing d with
  | nil => rfl
  | cons step steps ih =>
    rw [List.foldl_cons, ih, config_apply, List.filterMap_cons]
    cases step.config? with
    | none => rfl
    | some config => rw [List.getLast?_cons, Option.getD_some, Option.getD_some]

/-- **A chain of steps answers by its first row that qualifies.** The table has one row for each
pattern, in the order of the steps. The handler gets what that very pattern selects, and the
subject. Only where no row qualifies does the last resort answer, or the error with the subject
itself and its rendering as it was set last, wherever in the chain that was. -/
theorem outcome_build (next : Nat) (v : Value) (steps : List (Step R)) :
    (match (steps.flatMap (Step.rows next)).find? (·.qualifies v) with
      | some r =>
        (build v steps).run = .ok (r.answer v) ∧
          (build v steps).exhaustive = .ok (r.answer v) ∧
          ∀ h, (build v steps).otherwise h = r.answer v
      | none =>
        (build v steps).run = .error (.unmatched (v.render (lastConfig steps)) v) ∧
          (build v steps).exhaustive = .error (.unmatched (v.render (lastConfig steps)) v) ∧
          ∀ h, (build v steps).otherwise h = h v) ∧
      ((∃ e, (build v steps).run = .error e) ↔
        ∀ r ∈ steps.flatMap (Step.rows next), ¬ r.qualifies v) := by
  have hsubject : (build v steps).subject = v := subject_foldl _ steps
  have hconfig : (build v steps).config = lastConfig steps := config_foldl _ steps
  have hrows : (build v steps).rows next = steps.flatMap (Step.rows next) := rows_foldl next _ steps
  have hanswer := answer?_eq_find? next (build v steps)
  rw [hsubject, hrows] at hanswer
  rw [← List.find?_eq_none]
  cases hr : (steps.flatMap (Step.rows next)).find? (·.qualifies v) with
  | none =>
    rw [hr, Option.map_none] at hanswer
    have hrun : (build v steps).run = .error (.unmatched (v.render (lastConfig steps)) v) := by
      rw [run, hanswer, hsubject, hconfig]
      rfl
    refine ⟨⟨hrun, hrun, fun h => ?_⟩, fun _ => rfl, fun _ => ⟨_, hrun⟩⟩
    rw [otherwise, hanswer, hsubject]
  | some r =>
    rw [hr, Option.map_some] at hanswer
    have hrun : (build v steps).run = .ok (r.answer v) := by rw [run, hanswer]
    refine ⟨⟨hrun, hrun, fun h => ?_⟩, fun ⟨e, he⟩ => ?_, fun h => ?_⟩
    · rw [otherwise, hanswer]
    · rw [hrun] at he
      contradiction
    · contradiction

end Dispatch

end ShapeMatch
