import ShapeMatch.Proofs.Dictionary.Order
import ShapeMatch.Proofs.Dictionary.Tables

/-!
# Proofs: what a collection keeps

Of entries under keys that are the same, a collection keeps the first key in its place and the last
content (`Assoc.kept_collect`). It looks at the keys alone, so it does not matter whether the entries
are collected before or after a function is applied to their contents (`Assoc.collect_map`).
-/

namespace ShapeMatch.Assoc

variable {κ κ' α β : Type} {same : κ → κ → Bool} {same' : κ' → κ' → Bool}

/-! ## Entries under a function -/

section Map

variable {g : κ → κ'} (hg : ∀ j k, same' (g j) (g k) = same j k) (f : α → β)

include hg

/-- A write commutes with a function on the contents, and one on the keys that neither joins nor
splits those that are the same. -/
theorem put_map (k : κ) (a : α) (entries : List (κ × α)) :
    put same' (g k) (f a) (entries.map fun e => (g e.1, f e.2)) =
      (put same k a entries).map fun e => (g e.1, f e.2) := by
  induction entries with
  | nil => rfl
  | cons e entries ih =>
    rw [List.map_cons, put, put, hg, ih]
    split <;> rfl

theorem putAll_map (entries new : List (κ × α)) :
    putAll same' (entries.map fun e => (g e.1, f e.2)) (new.map fun e => (g e.1, f e.2)) =
      (putAll same entries new).map fun e => (g e.1, f e.2) := by
  induction new generalizing entries with
  | nil => rfl
  | cons e new ih =>
    have hput := put_map hg f e.1 e.2 entries
    rw [putAll, List.map_cons, List.foldl_cons, hput]
    exact ih (put same e.1 e.2 entries)

end Map

theorem collect_map (f : α → β) (new : List (κ × α)) :
    collect same (new.map fun e => (e.1, f e.2)) =
      (collect same new).map fun e => (e.1, f e.2) := by
  have hid : ∀ j k, same (id j) (id k) = same j k := fun _ _ => rfl
  exact putAll_map hid f [] new

/-! ## First keys and last contents -/

/-- The entries `kept` are what is left of `new` if a key that came before keeps its place and takes
over the new content. -/
structure Kept (same : κ → κ → Bool) (new kept : List (κ × α)) : Prop where
  /-- Of the keys that are the same the first one is kept, in its place. -/
  keys : kept.map Prod.fst = (new.map Prod.fst).eraseDupsBy same
  /-- Of the contents under keys that are the same the last one is kept. -/
  content (k : κ) : get? same k kept = get? same k new.reverse

theorem kept_collect (hsame : Equivalence fun j k : κ => (same j k : Prop)) (new : List (κ × α)) :
    Kept same new (collect same new) where
  keys := map_fst_collect (comm_of_equivalence hsame) new
  content k := by
    rw [collect, get?_putAll_of_equivalence hsame, List.append_nil]

end ShapeMatch.Assoc
