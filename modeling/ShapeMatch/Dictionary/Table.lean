import Std.Data.HashMap

/-!
# Tables

A `Table` keeps entries in the order in which their keys first came in, and beside them an index from
each key to the position of its entry. How an entry gives its key, and what it becomes when another
one with its key comes in, is said by an instance of `Keyed`.

The index is kept right by all operations (`Table.Valid`), so a look-up gives what a search through the
entries would give (`Table.Valid.get?_eq_find?`), only faster.
-/

namespace ShapeMatch

/-- Entries of a table, with the key by which the table finds them. -/
class Keyed (ε : Type) (ι : outParam Type) where
  /-- The key of an entry. -/
  key : ε → ι
  /-- What an entry becomes when another one with its key comes in. -/
  overwrite : ε → ε → ε
  /-- An entry that is overwritten keeps its key. -/
  key_overwrite : ∀ old new, key (overwrite old new) = key old

/-- Fields are found by their name, and take over the value of the other field. -/
instance {α : Type} : Keyed (String × α) String where
  key := Prod.fst
  overwrite old new := (old.1, new.2)
  key_overwrite _ _ := rfl

/-- Entries in the order of their first insertion, with an index into them. -/
structure Table (ι ε : Type) [BEq ι] [Hashable ι] where
  /-- The entries. -/
  entries : Array ε
  /-- The position of the entry of each key. -/
  index : Std.HashMap ι Nat

namespace Table

variable {ι ε : Type} [BEq ι] [Hashable ι]

/-- The table without entries. -/
def empty : Table ι ε := ⟨#[], ∅⟩

instance : EmptyCollection (Table ι ε) := ⟨empty⟩

/-- The number of entries. -/
def size (t : Table ι ε) : Nat := t.entries.size

/-- Whether there are no entries. -/
def isEmpty (t : Table ι ε) : Bool := t.entries.isEmpty

/-- The entries, in the order of their first insertion. -/
def toList (t : Table ι ε) : List ε := t.entries.toList

/-- The entry under the key `k`. -/
def get? (t : Table ι ε) (k : ι) : Option ε := t.index[k]?.bind (t.entries[·]?)

/-- Whether there is an entry under the key `k`. -/
def contains (t : Table ι ε) (k : ι) : Bool := t.index.contains k

section Keyed

variable [Keyed ε ι]

/-- Puts an entry under its key and returns the one that was there, which keeps its position. -/
def exchange (t : Table ι ε) (e : ε) : Option ε × Table ι ε :=
  match t.index[Keyed.key e]? with
  | some i =>
    (t.entries[i]?, { t with entries := t.entries.modify i (Keyed.overwrite · e) })
  | none =>
    let position := t.entries.size
    (none,
      { entries := t.entries.push e
        index := t.index.insert (Keyed.key e) position })

/-- Puts an entry under its key. -/
def insert (t : Table ι ε) (e : ε) : Table ι ε := (t.exchange e).2

/-- The table of the entries, inserted one after the other. -/
def ofList (es : List ε) : Table ι ε := es.foldl insert empty

/-! ## The index -/

/-- The index maps the key of each entry to the position of that entry, and nothing else to anything.
In particular no two entries have the same key. -/
def Valid (t : Table ι ε) : Prop :=
  ∀ (k : ι) (i : Nat), t.index[k]? = some i ↔ ∃ e, t.entries[i]? = some e ∧ Keyed.key e = k

variable [LawfulBEq ι]

/-- A look-up finds the entry that a search through all entries finds. -/
theorem Valid.get?_eq_find? {t : Table ι ε} (h : t.Valid) (k : ι) :
    t.get? k = t.toList.find? (Keyed.key · == k) := by
  cases hf : t.toList.find? (Keyed.key · == k) with
  | none =>
    cases hi : t.index[k]? with
    | none => simp [get?, hi]
    | some i =>
      obtain ⟨e, he, hk⟩ := (h k i).1 hi
      have := List.find?_eq_none.1 hf e (Array.mem_toList_iff.2 (Array.mem_of_getElem? he))
      simp [hk] at this
  | some e =>
    have hk : Keyed.key e = k := by simpa using List.find?_some hf
    obtain ⟨i, hi, he⟩ := List.mem_iff_getElem.1 (List.mem_of_find?_eq_some hf)
    have hi' : t.entries[i]? = some e := by
      rw [← he]
      exact Array.getElem?_eq_getElem (by simpa [toList] using hi)
    simp [get?, (h k i).2 ⟨e, hi', hk⟩, hi']

variable [LawfulHashable ι]

theorem valid_empty : (empty : Table ι ε).Valid := by
  intro k i
  simp [empty]

/-- Inserting an entry keeps the index right. -/
theorem Valid.insert {t : Table ι ε} (h : t.Valid) (e : ε) : (t.insert e).Valid := by
  intro k i
  simp only [Table.insert, exchange]
  split
  · rename_i j hj
    obtain ⟨d, hd, hk⟩ := (h _ j).1 hj
    simp only [Array.getElem?_modify]
    rw [h k i]
    by_cases hij : j = i
    · subst hij
      simp [hd, Keyed.key_overwrite]
    · simp [hij]
  · rename_i hn
    have fresh : ∀ d ∈ t.entries, Keyed.key d ≠ Keyed.key e := by
      intro d hd hk
      obtain ⟨j, hj, rfl⟩ := Array.mem_iff_getElem.1 hd
      have := (h (Keyed.key e) j).2 ⟨_, Array.getElem?_eq_getElem hj, hk⟩
      rw [hn] at this
      contradiction
    rw [Std.HashMap.getElem?_insert, Array.getElem?_push]
    by_cases hk : Keyed.key e = k
    · subst hk
      simp only [beq_self_eq_true, if_true, Option.some.injEq]
      constructor
      · rintro rfl
        simp
      · rintro ⟨d, hd, hk⟩
        split at hd
        · rename_i hi
          exact hi.symm
        · exact absurd hk (fresh d (Array.mem_of_getElem? hd))
    · have : (Keyed.key e == k) = false := by simpa using hk
      rw [if_neg (by simp [this]), h k i]
      constructor
      · rintro ⟨d, hd, rfl⟩
        have hi : i < t.entries.size := (Array.getElem?_eq_some_iff.1 hd).1
        exact ⟨d, by rw [if_neg (by omega)]; exact hd, rfl⟩
      · rintro ⟨d, hd, rfl⟩
        split at hd
        · simp only [Option.some.injEq] at hd
          exact absurd (by rw [hd]) hk
        · exact ⟨d, hd, rfl⟩

/-- The index of a table that was collected from entries is right. -/
theorem valid_ofList (es : List ε) : (ofList es : Table ι ε).Valid := by
  suffices ∀ t : Table ι ε, t.Valid → (es.foldl Table.insert t).Valid from this _ valid_empty
  induction es with
  | nil => exact fun _ h => h
  | cons e es ih => exact fun t h => ih _ (h.insert e)

/-- There is an entry under a key exactly when a look-up finds one. -/
theorem Valid.contains_eq_isSome_get? {t : Table ι ε} (h : t.Valid) (k : ι) :
    t.contains k = (t.get? k).isSome := by
  rw [contains, Std.HashMap.contains_eq_isSome_getElem?, get?]
  cases hi : t.index[k]? with
  | none => rfl
  | some i =>
    obtain ⟨e, he, -⟩ := (h k i).1 hi
    simp [he]

end Keyed

end Table

end ShapeMatch
