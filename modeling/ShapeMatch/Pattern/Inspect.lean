import ShapeMatch.Pattern.Basic
import ShapeMatch.Value.Inspect

/-!
# Inspection of patterns

The inspection of a pattern is a text for developers, with the inspections of the values in it.
-/

namespace ShapeMatch

/-- The inspection of a key. -/
def SelectionKey.inspect : SelectionKey → String
  | named n => "Named(" ++ Quoted.quote n ++ ")"
  | anonymous => "Anonymous"

namespace Pattern

/-- The inspection of a matcher: its name and its parts. -/
def inspectMatcher (name : String) (parts : List (String × String)) : String :=
  "Matcher(" ++ name ++
    Value.bracket " \x7b " (parts.map fun (label, text) => label ++ ": " ++ text) " \x7d)"

mutual

/-- The inspection of a pattern. -/
def inspect : Pattern → String
  | literal v => "Literal(" ++ v.inspect ++ ")"
  | object fields => Value.bracket "Object([" (inspectFields fields) "])"
  | tuple ⟨items⟩ => Value.bracket "Tuple([" (inspectItems items) "])"
  | map entries => Value.bracket "Map([" (inspectEntries entries) "])"
  | set members => Value.bracket "Set([" (inspectItems members) "])"
  | optional _ p => inspectMatcher "OptionalMatcher" [("pattern", p.inspect)]
  | array _ p => inspectMatcher "ArrayMatcher" [("pattern", p.inspect)]
  | intersection _ ps =>
    inspectMatcher "AndMatcher" [("patterns", Value.bracket "[" (inspectItems ps) "]")]
  | union _ ps => inspectMatcher "OrMatcher" [("patterns", Value.bracket "[" (inspectItems ps) "]")]
  | not _ p => inspectMatcher "NotMatcher" [("pattern", p.inspect)]
  | guard _ label _ => "Matcher(GuardMatcher(" ++ label ++ "))"
  | select _ k => inspectMatcher "SelectMatcher" [("key", k.inspect), ("pattern", "None")]
  | selectWith _ k p =>
    inspectMatcher "SelectMatcher"
      [("key", k.inspect), ("pattern", "Some(" ++ p.inspect ++ ")")]
  | custom _ m => "Matcher(" ++ m.label ++ ")"

/-- The inspections of parts. -/
def inspectItems : List Pattern → List String
  | [] => []
  | p :: ps => p.inspect :: inspectItems ps

/-- The inspections of fields, with their quoted names. -/
def inspectFields : List (String × Pattern) → List String
  | [] => []
  | (k, p) :: fields => ("(" ++ Quoted.quote k ++ ", " ++ p.inspect ++ ")") :: inspectFields fields

/-- The inspections of entries, with their keys. -/
def inspectEntries : List (Value × Pattern) → List String
  | [] => []
  | (k, p) :: entries => ("(" ++ k.inspect ++ ", " ++ p.inspect ++ ")") :: inspectEntries entries

end

end Pattern

end ShapeMatch
