import ShapeMatch.Pattern.Basic

/-!
# Building patterns

Patterns of objects, maps and sets are collected like the values of these names: a field or an entry
that comes again takes the new pattern in the place of the first one, and a member that comes again is
dropped. Members are the same if they are literals of the same value or one matcher by its handle.
Matchers get a new handle each time one is built.
-/

namespace ShapeMatch.Pattern

/-- The literal of `undefined`. -/
def undefined : Pattern := literal .undefined

/-- The literal of `null`. -/
def null : Pattern := literal .null

/-- An object pattern, collected from its fields. -/
def ofFields (fields : List (String × Pattern)) : Pattern := object (Assoc.collect (· == ·) fields)

/-- A map pattern, collected from its entries. -/
def ofEntries (entries : List (Value × Pattern)) : Pattern :=
  map (Assoc.collect Value.sameValueZero entries)

/-- Whether two patterns are the same member of a set pattern. -/
def sameMember : Pattern → Pattern → Bool
  | literal v, literal w => v.sameValueZero w
  | p, q =>
    match p.handle?, q.handle? with
    | some g, some h => g == h
    | _, _ => false

/-- Adds a pattern at the end, unless one of the others is the same member. -/
def addMember (members : List Pattern) (p : Pattern) : List Pattern :=
  if members.any (·.sameMember p) then members else members ++ [p]

/-- A set pattern, collected from its members. -/
def ofMembers (members : List Pattern) : Pattern := set (members.foldl addMember [])

/-! ## Matchers -/

/-- `undefined`, or what the pattern matches. -/
def newOptional (p : Pattern) : Fresh Pattern := return optional (← Fresh.ref) p

/-- An array whose elements all match. -/
def newArray (p : Pattern) : Fresh Pattern := return array (← Fresh.ref) p

/-- What all patterns match. -/
def newIntersection (ps : List Pattern) : Fresh Pattern := return intersection (← Fresh.ref) ps

/-- What some pattern matches. -/
def newUnion (ps : List Pattern) : Fresh Pattern := return union (← Fresh.ref) ps

/-- What the pattern does not match. -/
def newNot (p : Pattern) : Fresh Pattern := return not (← Fresh.ref) p

/-- What the predicate holds of. -/
def newGuard (holds : Value → Bool) : Fresh Pattern := return guard (← Fresh.ref) "when" holds

/-- The capture of any value. -/
def newSelect (k : SelectionKey) : Fresh Pattern := return select (← Fresh.ref) k

/-- The capture of a value that matches. -/
def newSelectWith (k : SelectionKey) (p : Pattern) : Fresh Pattern :=
  return selectWith (← Fresh.ref) k p

/-- A matcher of the caller. -/
def newCustom (m : CustomMatcher) : Fresh Pattern := return custom (← Fresh.ref) m

/-! ## Predicates with a name -/

/-- Any value. -/
def newAny : Fresh Pattern := return guard (← Fresh.ref) "any" fun _ => true

/-- Any text. -/
def newString : Fresh Pattern :=
  return guard (← Fresh.ref) "string" fun
    | .string _ => true
    | _ => false

/-- Any number. -/
def newNumber : Fresh Pattern :=
  return guard (← Fresh.ref) "number" fun
    | .number _ => true
    | _ => false

/-- Any truth value. -/
def newBoolean : Fresh Pattern :=
  return guard (← Fresh.ref) "boolean" fun
    | .bool _ => true
    | _ => false

/-- Any big integer. -/
def newBigint : Fresh Pattern :=
  return guard (← Fresh.ref) "bigint" fun
    | .bigint _ => true
    | _ => false

/-- Any symbol. -/
def newSymbol : Fresh Pattern :=
  return guard (← Fresh.ref) "symbol" fun
    | .symbol _ => true
    | _ => false

/-- `null` or `undefined`. -/
def newNullish : Fresh Pattern := return guard (← Fresh.ref) "nullish" Value.isNullish

/-- Any instance of the class or of one that derives from it. -/
def newInstanceOf (c : Class) : Fresh Pattern :=
  return guard (← Fresh.ref) "instance_of" fun v => v.isInstanceOf c

end ShapeMatch.Pattern
