import ShapeMatch.Dictionary.Assoc
import ShapeMatch.Value.Equal

/-!
# Selections

A match selects parts of its subject. Each selection stands under a key, a name or the anonymous key,
and holds a `Capture`: a part of the subject, or a sequence of captures that was collected along an
array. A collected sequence has no identity yet, so two of them are compared by their contents alone.

`Selections` is an ordered dictionary: keys are distinct and stand in the order in which they were
first written, each with the capture that was written last.
-/

namespace ShapeMatch

/-- The key of a selection. -/
inductive SelectionKey where
  /-- A name. -/
  | named (name : String)
  /-- The key of the selection without a name. -/
  | anonymous
deriving DecidableEq, Hashable, Repr

namespace SelectionKey

/-- The name, unless the key is the anonymous one. -/
def name? : SelectionKey → Option String
  | named n => some n
  | anonymous => none

/-- The key as text. -/
def text : SelectionKey → String
  | named n => n
  | anonymous => "<anonymous>"

end SelectionKey

/-- What stands under a key. -/
inductive Capture where
  /-- A value, with its identity. -/
  | value (v : Value)
  /-- A sequence collected along an array, one capture for each element. -/
  | collected (items : List Capture)

namespace Capture

/-- The mark of a selection that was declared and not captured. -/
def absent : Capture := value .undefined

mutual

/-- The capture as a value for comparing contents. The arrays in place of collected sequences share
one identity, which no such comparison looks at. -/
def content : Capture → Value
  | value v => v
  | collected items => .array ⟨0⟩ (contents items).toArray

/-- The captures as values for comparing contents. -/
def contents : List Capture → List Value
  | [] => []
  | c :: cs => c.content :: contents cs

end

/-- Whether two captures have the same contents. -/
def equal (c d : Capture) : Bool := c.content.equal d.content

end Capture

/-- Selections: an ordered dictionary of captures. -/
structure Selections where
  /-- The entries, in the order in which their keys were first written. -/
  entries : List (SelectionKey × Capture)
  /-- The keys are distinct. -/
  nodup_keys : (entries.map Prod.fst).Nodup

namespace Selections

/-- No selections. -/
def empty : Selections := ⟨[], List.nodup_nil⟩

instance : EmptyCollection Selections := ⟨empty⟩

@[ext] theorem ext {s t : Selections} (h : s.entries = t.entries) : s = t := by
  cases s; cases t; cases h; rfl

/-- The keys, in the order in which they were first written. -/
def keys (s : Selections) : List SelectionKey := s.entries.map Prod.fst

/-- The number of selections. -/
def size (s : Selections) : Nat := s.entries.length

/-- Whether there are no selections. -/
def isEmpty (s : Selections) : Bool := s.entries.isEmpty

/-- The capture under a key. -/
def get? (s : Selections) (k : SelectionKey) : Option Capture := Assoc.get? (· == ·) k s.entries

/-- The capture under a name. -/
def getNamed? (s : Selections) (name : String) : Option Capture :=
  (s.entries.find? fun e => e.1.name? == some name).map Prod.snd

/-- The capture under the anonymous key. -/
def anonymous? (s : Selections) : Option Capture := s.get? .anonymous

/-- Writes a capture under a key. A key that is there keeps its position. -/
def insert (s : Selections) (k : SelectionKey) (c : Capture) : Selections where
  entries := Assoc.put (· == ·) k c s.entries
  nodup_keys := Assoc.nodup_put k c s.nodup_keys

/-- Writes captures under their keys, one after the other. -/
def insertAll (s : Selections) (new : List (SelectionKey × Capture)) : Selections where
  entries := Assoc.putAll (· == ·) s.entries new
  nodup_keys := Assoc.nodup_putAll new s.nodup_keys

/-- The selections written one after the other. -/
def ofList (entries : List (SelectionKey × Capture)) : Selections := empty.insertAll entries

/-- Writes all selections of `t` over those of `s`, in order. -/
def merge (s t : Selections) : Selections := s.insertAll t.entries

/-- Marks each key as declared and not captured. -/
def seedAbsent (s : Selections) (keys : List SelectionKey) : Selections :=
  s.insertAll (keys.map (·, .absent))

/-- Whether two dictionaries have the same keys in the same order with equal contents. -/
def equal (s t : Selections) : Bool :=
  s.size == t.size &&
    (s.entries.zip t.entries).all fun (e, d) => e.1 == d.1 && e.2.equal d.2

end Selections

end ShapeMatch
