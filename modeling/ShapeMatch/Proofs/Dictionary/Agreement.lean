import ShapeMatch.Proofs.Dictionary.Tables
import Mathlib.Data.List.Perm.Subperm

/-!
# Proofs: tables that agree

To compare two tables it is enough to look up the entries of one in the other, as long as both have
as many entries: no key comes twice, so there is no room left for a key that only the second one has
(`Valid.agree_iff`). What is then known of all look-ups is symmetric in the tables, and does not
depend on the order of their entries.
-/

namespace ShapeMatch

section Rel

variable {α β : Type} {R S : α → α → Prop} {x y z : Option α}

theorem rel_refl (h : ∀ a ∈ x, R a a) : Option.Rel R x x := by
  cases x with
  | none => exact .none
  | some a => exact .some (h a rfl)

theorem rel_mono (h : Option.Rel R x y) (hR : ∀ a b, R a b → S a b) : Option.Rel S x y := by
  cases h with
  | none => exact .none
  | some hab => exact .some (hR _ _ hab)

theorem rel_symm (h : Option.Rel R x y) (hR : ∀ a ∈ x, ∀ b ∈ y, R a b → S b a) :
    Option.Rel S y x := by
  cases h with
  | none => exact .none
  | some hab => exact .some (hR _ rfl _ rfl hab)

theorem rel_trans (h : Option.Rel R x y) (h' : Option.Rel R y z)
    (hR : ∀ a ∈ x, ∀ b ∈ y, ∀ c ∈ z, R a b → R b c → S a c) : Option.Rel S x z := by
  cases h with
  | none =>
    cases h'
    exact .none
  | some hab =>
    cases h' with
    | some hbc => exact .some (hR _ rfl _ rfl _ rfl hab hbc)

theorem rel_some_iff {a : α} : Option.Rel R (some a) y ↔ ∃ b, y = some b ∧ R a b := by
  cases y <;> simp

theorem isSome_eq_of_rel (h : Option.Rel R x y) : x.isSome = y.isSome := by
  cases h <;> rfl

theorem rel_true_iff : Option.Rel (fun _ _ => True) x y ↔ (x.isSome ↔ y.isSome) := by
  cases x <;> cases y <;> simp

theorem rel_map_iff {f : β → α} {x y : Option β} :
    Option.Rel R (x.map f) (y.map f) ↔ Option.Rel (fun a b => R (f a) (f b)) x y := by
  cases x <;> cases y <;> simp

end Rel

namespace Table

variable {ι ε : Type} [BEq ι] [Hashable ι] [Keyed ε ι] {s t : Table ι ε} {R : ε → ε → Prop}

theorem Valid.mem_keys_iff (h : t.Valid) {k : ι} :
    k ∈ t.toList.map Keyed.key ↔ (t.get? k).isSome := by
  rw [List.mem_map, Option.isSome_iff_exists]
  simp only [h.get?_eq_some_iff]

/-- Tables of one size agree on all keys if the entries of one are found in the other. -/
theorem Valid.agree_iff (hs : s.Valid) (ht : t.Valid) :
    (s.size = t.size ∧ ∀ e ∈ s.toList, ∃ d, t.get? (Keyed.key e) = some d ∧ R e d) ↔
      ∀ k, Option.Rel R (s.get? k) (t.get? k) := by
  have hlength : (s.toList.map Keyed.key).length = (t.toList.map Keyed.key).length ↔
      s.size = t.size := by
    rw [List.length_map, List.length_map]
    exact Iff.rfl
  constructor
  · rintro ⟨hsize, hfound⟩ k
    have hsub : s.toList.map Keyed.key ⊆ t.toList.map Keyed.key := by
      intro j hj
      obtain ⟨e, he, rfl⟩ := List.mem_map.1 hj
      obtain ⟨d, hd, -⟩ := hfound e he
      rw [ht.mem_keys_iff, hd, Option.isSome_some]
    -- The keys of the first table use up all places there are in the second one.
    have hperm : (s.toList.map Keyed.key).Perm (t.toList.map Keyed.key) :=
      (List.subperm_of_subset hs.nodup_keys hsub).perm_of_length_le (hlength.2 hsize).ge
    cases hsk : s.get? k with
    | none =>
      have hnot : ¬ k ∈ t.toList.map Keyed.key := by
        rw [← hperm.mem_iff, hs.mem_keys_iff, hsk]
        exact Bool.false_ne_true
      rw [ht.mem_keys_iff, Option.not_isSome_iff_eq_none] at hnot
      rw [hnot]
      exact .none
    | some e =>
      obtain ⟨he, rfl⟩ := hs.get?_eq_some_iff.1 hsk
      obtain ⟨d, hd, hR⟩ := hfound e he
      rw [hd]
      exact .some hR
  · intro h
    have hmem (k : ι) : k ∈ s.toList.map Keyed.key ↔ k ∈ t.toList.map Keyed.key := by
      rw [hs.mem_keys_iff, ht.mem_keys_iff, isSome_eq_of_rel (h k)]
    have hperm : (s.toList.map Keyed.key).Perm (t.toList.map Keyed.key) :=
      (List.perm_ext_iff_of_nodup hs.nodup_keys ht.nodup_keys).2 hmem
    refine ⟨hlength.1 hperm.length_eq, fun e he => ?_⟩
    have hrel := h (Keyed.key e)
    rw [hs.get?_eq_some_iff.2 ⟨he, rfl⟩] at hrel
    exact rel_some_iff.1 hrel

/-- Tables of one size have the same keys if the second one has those of the first. -/
theorem Valid.contains_iff [LawfulBEq ι] [LawfulHashable ι] (hs : s.Valid) (ht : t.Valid) :
    (s.size = t.size ∧ ∀ e ∈ s.toList, t.contains (Keyed.key e)) ↔
      ∀ k, s.contains k ↔ t.contains k := by
  have hagree := hs.agree_iff (R := fun _ _ => True) ht
  simp only [and_true, rel_true_iff, ← Option.isSome_iff_exists] at hagree
  simp only [hs.contains_eq_isSome_get?, ht.contains_eq_isSome_get?]
  exact hagree

end Table

end ShapeMatch
