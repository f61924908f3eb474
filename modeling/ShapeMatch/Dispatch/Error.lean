import ShapeMatch.Value.Render

/-!
# Errors of a dispatch
-/

namespace ShapeMatch

/-- Why a dispatch or a check has no answer. -/
inductive MatchError where
  /-- No case matches the subject, which is given with its rendering. -/
  | unmatched (rendered : String) (subject : Value)
  /-- A check was called with so many arguments, the pattern among them. -/
  | argumentCount (received : Nat)

namespace MatchError

/-- The error that no case matches the subject. -/
def ofSubject (config : RenderConfig) (subject : Value) : MatchError :=
  unmatched (subject.render config) subject

/-- The subject that no case matches. -/
def subject? : MatchError → Option Value
  | unmatched _ v => some v
  | argumentCount _ => none

/-- The text of the error. -/
def message : MatchError → String
  | unmatched rendered _ => "Pattern matching error: no pattern matches value " ++ rendered
  | argumentCount n =>
    "isMatching wasn't given the right number of arguments: expected 1 or 2, received " ++
      toString n ++ "."

end MatchError

end ShapeMatch
