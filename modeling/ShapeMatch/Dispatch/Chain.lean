import ShapeMatch.Dispatch.Error
import ShapeMatch.Dispatch.Selected
import ShapeMatch.Pattern.Matching

/-!
# Dispatch

A `Dispatch` is a subject with a list of cases. A case tests the subject by patterns, a guard or both,
and the handler of the first case that accepts the subject gives the answer. Adding a case yields a
new dispatch, so one can be extended in several ways.
-/

namespace ShapeMatch

/-- A predicate on the subject of a dispatch. -/
abbrev Guard := Value → Bool

/-- What a case does with the argument that was selected and the subject. -/
abbrev Handler (R : Type) := Selected → Value → R

/-- The test of a case. -/
inductive CaseTest where
  /-- The first pattern that matches, and then the guard, if there is one. -/
  | patterns (ps : List Pattern) (guard : Option Guard)
  /-- The guard alone. -/
  | guard (holds : Guard)

/-- The argument for the handler, if the test accepts the subject. A guard that fails after a pattern
matched fails the whole test: later patterns are not tried. -/
def CaseTest.run (subject : Value) : CaseTest → Option Selected
  | patterns ps g =>
    (ps.findSome? fun p => p.run subject).bind fun s =>
      if g.all fun holds => holds subject then some (.ofSelections subject s) else none
  | guard holds => if holds subject then some (.subject subject) else none

/-- A test with its handler. -/
structure Case (R : Type) where
  /-- The test. -/
  test : CaseTest
  /-- The handler. -/
  handler : Handler R

/-- A subject with the cases that are tried on it, in order. -/
structure Dispatch (R : Type) where
  /-- The subject. -/
  subject : Value
  /-- The cases. -/
  cases : List (Case R) := []
  /-- How the subject is rendered if no case accepts it. -/
  config : RenderConfig := {}

namespace Dispatch

variable {R : Type}

/-! ## Adding cases -/

/-- The dispatch on a subject, without cases. -/
def ofSubject (v : Value) : Dispatch R := { subject := v }

/-- Adds a case at the end. -/
def add (d : Dispatch R) (test : CaseTest) (h : Handler R) : Dispatch R :=
  { d with cases := d.cases ++ [⟨test, h⟩] }

/-- Adds a case for a pattern. -/
def accept (d : Dispatch R) (p : Pattern) (h : Handler R) : Dispatch R := d.add (.patterns [p] none) h

/-- Adds a case for the first of several patterns that matches. -/
def acceptAny (d : Dispatch R) (ps : List Pattern) (h : Handler R) : Dispatch R :=
  d.add (.patterns ps none) h

/-- Adds a case for a pattern and a guard. -/
def acceptIf (d : Dispatch R) (p : Pattern) (g : Guard) (h : Handler R) : Dispatch R :=
  d.add (.patterns [p] (some g)) h

/-- Adds a case for the first of several patterns that matches, and a guard. -/
def acceptAnyIf (d : Dispatch R) (ps : List Pattern) (g : Guard) (h : Handler R) : Dispatch R :=
  d.add (.patterns ps (some g)) h

/-- Adds a case for a guard. Its handler gets the subject. -/
def acceptWhen (d : Dispatch R) (g : Guard) (h : Handler R) : Dispatch R := d.add (.guard g) h

/-- Sets how the subject is rendered if no case accepts it. -/
def withConfig (d : Dispatch R) (config : RenderConfig) : Dispatch R := { d with config }

/-! ## Evaluation -/

/-- The answer of the first case that accepts the subject. -/
def answer? (d : Dispatch R) : Option R :=
  d.cases.findSome? fun c => (c.test.run d.subject).map fun a => c.handler a d.subject

/-- The answer of the first case that accepts the subject, or the error that there is none. -/
def run (d : Dispatch R) : Except MatchError R :=
  match d.answer? with
  | some r => .ok r
  | none => .error (.ofSubject d.config d.subject)

/-- The answer of a dispatch whose cases are meant to cover every subject. That they do is not checked
before: a subject that none accepts is an error as in `run`. -/
def exhaustive (d : Dispatch R) : Except MatchError R := d.run

/-- The answer of the first case that accepts the subject, or that of the last resort. -/
def otherwise (d : Dispatch R) (h : Value → R) : R :=
  match d.answer? with
  | some r => r
  | none => h d.subject

end Dispatch

end ShapeMatch
