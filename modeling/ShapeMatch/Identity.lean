/-!
# Identity

Containers, symbols, classes and matchers are told apart by identity: two of them may look alike and
still be two. A `Ref` is such an identity. `Fresh` is a computation that may take new identities from
a supply, and the supply never hands out the same one twice.
-/

namespace ShapeMatch

/-- The identity of something that can be told apart from its look-alikes. -/
structure Ref where
  /-- The place in the order in which the supply handed identities out. -/
  number : Nat
deriving DecidableEq, Hashable, Repr

/-- A computation that may take new identities. Its state is the number of the next one. -/
abbrev Fresh := StateM Nat

/-- Takes the next identity from the supply. -/
def Fresh.ref : Fresh Ref := fun next => (⟨next⟩, next + 1)

@[simp] theorem Fresh.run_ref (next : Nat) : Fresh.ref.run next = (⟨next⟩, next + 1) := rfl

end ShapeMatch
