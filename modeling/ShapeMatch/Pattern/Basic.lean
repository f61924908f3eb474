import ShapeMatch.Selection.Basic

/-!
# Patterns

A `Pattern` is a shape that a value can be tested against. Literals, objects, tuples, maps and sets
are structural; the other patterns are matchers, each with a handle by which two of them can be told
apart. A `CustomMatcher` is a matcher of the caller: any function, with the keys that it declares.
-/

namespace ShapeMatch

/-- A test of values: what it selects, or nothing where it fails. -/
abbrev Matcher := Value → Option Selections

/-- The kinds of matcher that are known as such. -/
inductive MatcherKind where
  /-- A matcher for which a missing field counts as `undefined`. -/
  | optional
  /-- An intersection. -/
  | intersection
  /-- A union. -/
  | union
  /-- A negation. -/
  | not
deriving DecidableEq, Repr

/-- A matcher of the caller. -/
structure CustomMatcher where
  /-- The test. -/
  run : Matcher
  /-- The keys that it declares. -/
  keys : List SelectionKey := []
  /-- The kind that it claims. -/
  kind : Option MatcherKind := none
  /-- The name by which it is inspected. -/
  label : String := "custom"

/-- A shape that a value can be tested against. -/
inductive Pattern where
  /-- Matches the value itself. -/
  | literal (v : Value)
  /-- Matches a container that has the fields, each with a value that matches. -/
  | object (fields : List (String × Pattern))
  /-- Matches an array of this length, element by element. -/
  | tuple (items : Array Pattern)
  /-- Matches a map whose values under the keys match. -/
  | map (entries : List (Value × Pattern))
  /-- Matches a set: the empty one, one whose members all match, or one with certain members. -/
  | set (members : List Pattern)
  /-- Matches `undefined`, and whatever the inner pattern matches. -/
  | optional (handle : Ref) (inner : Pattern)
  /-- Matches an array whose elements all match. -/
  | array (handle : Ref) (element : Pattern)
  /-- Matches what all parts match. -/
  | intersection (handle : Ref) (parts : List Pattern)
  /-- Matches what some branch matches, by the first one that does. -/
  | union (handle : Ref) (branches : List Pattern)
  /-- Matches what the inner pattern does not match. -/
  | not (handle : Ref) (inner : Pattern)
  /-- Matches what the predicate holds of. The label is for inspection. -/
  | guard (handle : Ref) (label : String) (holds : Value → Bool)
  /-- Matches any value and captures it. -/
  | select (handle : Ref) (key : SelectionKey)
  /-- Matches what the inner pattern matches, and captures it before the inner selections. -/
  | selectWith (handle : Ref) (key : SelectionKey) (inner : Pattern)
  /-- Matches what a matcher of the caller matches. -/
  | custom (handle : Ref) (matcher : CustomMatcher)

namespace Pattern

/-- The handle of a matcher; structural patterns have none. -/
def handle? : Pattern → Option Ref
  | literal _ | object _ | tuple _ | map _ | set _ => none
  | optional h _ | array h _ | intersection h _ | union h _ | not h _ | guard h _ _ | select h _
  | selectWith h _ _ | custom h _ => some h

/-- Whether the pattern is a matcher. -/
def isMatcher (p : Pattern) : Bool := p.handle?.isSome

/-- The kind of a matcher, if it has a known one. -/
def kind? : Pattern → Option MatcherKind
  | optional .. => some .optional
  | intersection .. => some .intersection
  | union .. => some .union
  | not .. => some .not
  | custom _ m => m.kind
  | _ => none

/-- Whether the pattern also matches a field that is missing. -/
def isOptional (p : Pattern) : Bool := p.kind? == some .optional

end Pattern

end ShapeMatch
