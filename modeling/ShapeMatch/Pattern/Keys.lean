import ShapeMatch.Pattern.Basic

/-!
# Declared keys

The keys that a pattern declares are those that it can select, in the order of the pattern and with
repetitions. Nothing inside a negation is ever selected, so a negation declares no keys.
-/

namespace ShapeMatch.Pattern

mutual

/-- The keys that a pattern declares. -/
def keys : Pattern → List SelectionKey
  | literal _ | not .. | guard .. => []
  | object fields => fieldKeys fields
  | tuple ⟨items⟩ | set items => allKeys items
  | map entries => entryKeys entries
  | optional _ p | array _ p => p.keys
  | intersection _ ps | union _ ps => allKeys ps
  | select _ k => [k]
  | selectWith _ k p => k :: p.keys
  | custom _ m => m.keys

/-- The keys that several patterns declare. -/
def allKeys : List Pattern → List SelectionKey
  | [] => []
  | p :: ps => p.keys ++ allKeys ps

/-- The keys that the patterns of fields declare. -/
def fieldKeys : List (String × Pattern) → List SelectionKey
  | [] => []
  | (_, p) :: fields => p.keys ++ fieldKeys fields

/-- The keys that the patterns of entries declare. -/
def entryKeys : List (Value × Pattern) → List SelectionKey
  | [] => []
  | (_, p) :: entries => p.keys ++ entryKeys entries

end

theorem allKeys_eq_flatMap (ps : List Pattern) : allKeys ps = ps.flatMap keys := by
  induction ps <;> simp_all [allKeys]

theorem mem_allKeys {ps : List Pattern} {k : SelectionKey} :
    k ∈ allKeys ps ↔ ∃ p ∈ ps, k ∈ p.keys := by
  rw [allKeys_eq_flatMap, List.mem_flatMap]

theorem fieldKeys_eq_flatMap (fields : List (String × Pattern)) :
    fieldKeys fields = fields.flatMap fun f => f.2.keys := by
  induction fields <;> simp_all [fieldKeys]

theorem entryKeys_eq_flatMap (entries : List (Value × Pattern)) :
    entryKeys entries = entries.flatMap fun e => e.2.keys := by
  induction entries <;> simp_all [entryKeys]

end ShapeMatch.Pattern
