import ShapeMatch.Pattern.Builder
import ShapeMatch.Proofs.Pattern.Verdict
import ShapeMatch.Proofs.Value.Building
import ShapeMatch.Proofs.Value.Containers

/-!
# Proofs: the members of set patterns

Building a set pattern drops each member that is the same as one before it. What is left are some of
the members, and one that is the same for each that was dropped (`Pattern.Collapsed`). Members that are
the same are in the same sets, so dropping changes no verdict (`Pattern.Collapsed.isMatch_iff`), unless
the rule changes with the number of members: a single matcher asks every member of the set, where
several patterns are asked for.

Literals are never matchers. A set pattern of literals asks for a set that has them all, however they
are ordered and repeated, and matchers among several members match nothing
(`Pattern.isMatch_ofMembers`).
-/

namespace ShapeMatch

namespace Pattern

variable {p q : Pattern} {members kept : List Pattern} {v : Value} {ls : List Value}

/-! ## Members that are the same -/

theorem isIn_iff {vs : Members} : p.isIn vs ↔ ∃ l, p = literal l ∧ vs.contains l.key := by
  cases p <;> simp [isIn]

/-- Members that are the same are literals with one key, or are both matchers. -/
theorem literals_or_matchers_of_sameMember (h : q.sameMember p) :
    (∃ k l, q = literal k ∧ p = literal l ∧ k.key = l.key) ∨ q.isMatcher ∧ p.isMatcher := by
  unfold sameMember at h
  split at h
  · rename_i k l
    exact .inl ⟨k, l, rfl, rfl, (Value.sameValueZero_iff.1 h).1⟩
  · right
    unfold isMatcher
    split at h
    · rename_i g g' hq hp
      rw [hq, hp]
      exact ⟨rfl, rfl⟩
    · contradiction

theorem isIn_of_sameMember (h : q.sameMember p) (vs : Members) : q.isIn vs = p.isIn vs := by
  rcases literals_or_matchers_of_sameMember h with ⟨k, l, rfl, rfl, hkey⟩ | ⟨hq, hp⟩
  · rw [isIn, isIn, hkey]
  · rw [isIn_of_isMatcher hq, isIn_of_isMatcher hp]

/-! ## What is left of members -/

/-- Only the empty list has all its elements among none. -/
theorem eq_nil_of_forall_exists {α β : Type} {R : α → β → Prop} {as : List α}
    (h : ∀ a ∈ as, ∃ b ∈ ([] : List β), R a b) : as = [] := by
  rw [List.eq_nil_iff_forall_not_mem]
  intro a ha
  obtain ⟨b, hb, -⟩ := h a ha
  contradiction

/-- The patterns `kept` are some of the members, with one that is the same for each of them. -/
structure Collapsed (members kept : List Pattern) : Prop where
  subset : kept ⊆ members
  covers : ∀ p ∈ members, ∃ q ∈ kept, q = p ∨ q.sameMember p

theorem Collapsed.addMember (h : Collapsed members kept) (p : Pattern) :
    Collapsed (members ++ [p]) (addMember kept p) := by
  unfold Pattern.addMember
  split
  · rename_i hany
    obtain ⟨q, hq, hsame⟩ := List.any_eq_true.1 hany
    refine ⟨fun r hr => List.mem_append_left _ (h.subset hr), fun r hr => ?_⟩
    rcases List.mem_append.1 hr with hr | hr
    · exact h.covers r hr
    · obtain rfl := List.mem_singleton.1 hr
      exact ⟨q, hq, .inr hsame⟩
  · refine ⟨List.append_subset.2 ⟨?_, List.subset_append_right _ _⟩, fun r hr => ?_⟩
    · exact fun r hr => List.mem_append_left _ (h.subset hr)
    · rcases List.mem_append.1 hr with hr | hr
      · obtain ⟨q, hq, hqr⟩ := h.covers r hr
        exact ⟨q, List.mem_append_left _ hq, hqr⟩
      · exact ⟨r, List.mem_append_right _ hr, .inl rfl⟩

theorem Collapsed.foldl (h : Collapsed members kept) (new : List Pattern) :
    Collapsed (members ++ new) (new.foldl Pattern.addMember kept) := by
  induction new generalizing members kept with
  | nil =>
    rw [List.append_nil]
    exact h
  | cons p new ih =>
    have hstep := ih (h.addMember p)
    rwa [List.append_assoc, List.singleton_append] at hstep

/-- A set pattern is built from what is left of its members. -/
theorem exists_ofMembers_eq (members : List Pattern) :
    ∃ kept, ofMembers members = set kept ∧ Collapsed members kept := by
  have hempty : Collapsed [] [] := ⟨List.Subset.refl [], fun p hp => nomatch hp⟩
  exact ⟨_, rfl, hempty.foldl members⟩

section Collapsed

variable (h : Collapsed members kept)

include h

theorem Collapsed.eq_nil_iff : kept = [] ↔ members = [] := by
  constructor
  · rintro rfl
    exact eq_nil_of_forall_exists h.covers
  · rintro rfl
    exact List.subset_nil.1 h.subset

theorem Collapsed.forall_isIn_iff (vs : Members) :
    (∀ p ∈ kept, p.isIn vs) ↔ ∀ p ∈ members, p.isIn vs := by
  constructor
  · intro hkept p hp
    obtain ⟨q, hq, rfl | hsame⟩ := h.covers p hp
    · exact hkept q hq
    · exact isIn_of_sameMember hsame vs ▸ hkept q hq
  · intro hmembers p hp
    exact hmembers p (h.subset hp)

/-- Where neither is a single matcher, what is left of the members has their verdict. -/
theorem Collapsed.isMatch_iff (hmembers : (set members).isLoneMatcherSet = false)
    (hkept : (set kept).isLoneMatcherSet = false) (v : Value) :
    (set kept).isMatch v ↔ (set members).isMatch v := by
  rw [isMatch_set_of_others hkept, isMatch_set_of_others hmembers]
  simp only [h.eq_nil_iff, h.forall_isIn_iff]

/-- Something that is no literal leaves something that is none. -/
theorem Collapsed.exists_not_literal (hp : p ∈ members) (hliteral : ∀ l, p ≠ literal l) :
    ∃ q ∈ kept, ∀ l, q ≠ literal l := by
  obtain ⟨q, hq, rfl | hsame⟩ := h.covers p hp
  · exact ⟨q, hq, hliteral⟩
  · refine ⟨q, hq, ?_⟩
    rcases literals_or_matchers_of_sameMember hsame with ⟨_, l, -, rfl, -⟩ | ⟨hmatcher, -⟩
    · exact absurd rfl (hliteral l)
    · rintro l rfl
      contradiction

end Collapsed

/-! ## Literals -/

theorem isLoneMatcherSet_of_literals (h : ∀ p ∈ members, ∃ l, p = literal l) :
    (set members).isLoneMatcherSet = false := by
  rcases members with _ | ⟨p, _ | _⟩
  · rfl
  · obtain ⟨l, rfl⟩ := h p List.mem_cons_self
    rfl
  · rfl

theorem isMatch_literals_iff_contains :
    (set (ls.map literal)).isMatch v ↔
      ∃ vs, v.members? = some vs ∧ (ls = [] → vs.isEmpty) ∧ ∀ l ∈ ls, vs.contains l.key := by
  have hlone : (set (ls.map literal)).isLoneMatcherSet = false :=
    isLoneMatcherSet_of_literals (by simp)
  rw [isMatch_set_of_others hlone]
  simp only [List.map_eq_nil_iff, List.forall_mem_map, isIn]

theorem isMatch_ofMembers_literals_iff (ls : List Value) (v : Value) :
    (ofMembers (ls.map literal)).isMatch v ↔ (set (ls.map literal)).isMatch v := by
  obtain ⟨kept, hkept, hcollapsed⟩ := exists_ofMembers_eq (ls.map literal)
  have hliterals : ∀ p ∈ ls.map literal, ∃ l, p = literal l := by simp
  have hlone := isLoneMatcherSet_of_literals hliterals
  have hlone' := isLoneMatcherSet_of_literals fun p hp => hliterals p (hcollapsed.subset hp)
  rw [hkept, hcollapsed.isMatch_iff hlone hlone']

/-- Literals that each have one with their key among others ask for no more than those. -/
theorem isMatch_literals_of_keys {ks : List Value} (hempty : ks = [] → ls = [])
    (hkeys : ∀ k ∈ ks, ∃ l ∈ ls, k.sameValueZero l) (h : (set (ls.map literal)).isMatch v) :
    (set (ks.map literal)).isMatch v := by
  rw [isMatch_literals_iff_contains] at h ⊢
  obtain ⟨vs, hvs, hvsempty, hcontains⟩ := h
  refine ⟨vs, hvs, fun hks => hvsempty (hempty hks), fun k hk => ?_⟩
  obtain ⟨l, hl, hsame⟩ := hkeys k hk
  rw [(Value.sameValueZero_iff.1 hsame).1]
  exact hcontains l hl

/-- The literals are settled up to `sameValueZero`, so it does not matter how they are ordered and
repeated. -/
theorem isMatch_literals_congr {ks : List Value} (hls : ∀ l ∈ ls, ∃ k ∈ ks, l.sameValueZero k)
    (hks : ∀ k ∈ ks, ∃ l ∈ ls, k.sameValueZero l) (v : Value) :
    (set (ls.map literal)).isMatch v ↔ (set (ks.map literal)).isMatch v := by
  constructor
  · refine isMatch_literals_of_keys (fun hnil => ?_) hks
    subst hnil
    exact eq_nil_of_forall_exists hls
  · refine isMatch_literals_of_keys (fun hnil => ?_) hls
    subst hnil
    exact eq_nil_of_forall_exists hks

end Pattern

/-- The value is a set that has each of the literals as a member, or has no members if there are no
literals. -/
def Value.IsSetWith (v : Value) (ls : List Value) : Prop :=
  ∃ vs, v.members? = some vs ∧
    (ls = [] ∧ vs.toList = [] ∨ ls ≠ [] ∧ ∀ l ∈ ls, ∃ w ∈ vs.toList, w.sameValueZero l)

namespace Pattern

/-- On the values of a program, what a set finds by its keys are its members. -/
theorem isMatch_literals_iff {s : Store} (hs : s.Sound) {v : Value} {ls : List Value}
    (hv : v ∈ s.values) (hls : ∀ l ∈ ls, l ∈ s.values) :
    (set (ls.map literal)).isMatch v ↔ v.IsSetWith ls := by
  rw [isMatch_literals_iff_contains]
  refine exists_congr fun vs => and_congr_right fun hvs => ?_
  have hcontains : (∀ l ∈ ls, vs.contains l.key) ↔
      ∀ l ∈ ls, ∃ w ∈ vs.toList, w.sameValueZero l := by
    obtain ⟨r, rfl⟩ : ∃ r, v = .set r vs := by
      cases v with
      | set r ms => exact ⟨r, congrArg (Value.set r) (Option.some.inj hvs)⟩
      | _ => contradiction
    exact forall₂_congr fun l hl => hs.contains_iff hv (hls l hl)
  have hempty : vs.isEmpty ↔ vs.toList = [] := by
    rw [Table.isEmpty, Table.toList, Array.isEmpty_iff, Array.toList_eq_nil_iff]
  rw [hcontains, hempty]
  cases ls with
  | nil => simp
  | cons l ls => simp

/-! ## Members that are no literals -/

/-- Where something is no literal, only a single matcher can match. -/
theorem isMatch_ofMembers_iff_of_not_literal {p : Pattern} {ps : List Pattern} (hp : p ∈ ps)
    (hliteral : ∀ l, p ≠ literal l) (v : Value) :
    (ofMembers ps).isMatch v ↔
      ∃ m vs, ofMembers ps = set [m] ∧ m.isMatcher ∧ v.members? = some vs ∧
        ∀ w ∈ vs.toList, m.isMatch w := by
  obtain ⟨kept, hkept, hcollapsed⟩ := exists_ofMembers_eq ps
  rw [hkept]
  constructor
  · intro hmatch
    cases hlone : (set kept).isLoneMatcherSet with
    | true =>
      obtain ⟨m, rfl⟩ : ∃ m, kept = [m] := by
        rcases kept with _ | ⟨m, _ | _⟩
        · contradiction
        · exact ⟨m, rfl⟩
        · contradiction
      obtain ⟨vs, hvs, hall⟩ := (isMatch_set_of_matcher hlone).1 hmatch
      exact ⟨m, vs, rfl, hlone, hvs, hall⟩
    | false =>
      -- Every other rule asks for all that is left, and what is no literal is in no set.
      obtain ⟨vs, -, -, hin⟩ := (isMatch_set_of_others hlone).1 hmatch
      obtain ⟨q, hq, hne⟩ := hcollapsed.exists_not_literal hp hliteral
      obtain ⟨l, hl, -⟩ := isIn_iff.1 (hin q hq)
      exact absurd hl (hne l)
  · rintro ⟨m, vs, hm, hmatcher, hvs, hall⟩
    rw [hm, isMatch_set_of_matcher hmatcher]
    exact ⟨vs, hvs, hall⟩

/-! ## All members -/

/-- **The verdict of a set pattern.** For literals it is the same whether or not members that come again
are dropped, and depends only on which literals there are up to `sameValueZero`. On the values of a
program it is the following: the value is a set, empty if there are no literals, and else with each of
them as a member. With something else among its members, a set pattern matches only if a single matcher
is left of them, and then the sets all of whose members that matcher matches. -/
theorem isMatch_ofMembers {s : Store} (hs : s.Reachable) :
    (∀ (ls : List Value) (v : Value),
      (ofMembers (ls.map literal)).isMatch v ↔ (set (ls.map literal)).isMatch v) ∧
    (∀ ls ks : List Value, (∀ l ∈ ls, ∃ k ∈ ks, l.sameValueZero k) →
      (∀ k ∈ ks, ∃ l ∈ ls, k.sameValueZero l) → ∀ v : Value,
        (set (ls.map literal)).isMatch v ↔ (set (ks.map literal)).isMatch v) ∧
    (∀ v ∈ s.values, ∀ ls : List Value, (∀ l ∈ ls, l ∈ s.values) →
      ((set (ls.map literal)).isMatch v ↔ v.IsSetWith ls)) ∧
    ∀ ps : List Pattern, (∃ p ∈ ps, ∀ l, p ≠ literal l) → ∀ v : Value,
      (ofMembers ps).isMatch v ↔
        ∃ m vs, ofMembers ps = set [m] ∧ m.isMatcher ∧ v.members? = some vs ∧
          ∀ w ∈ vs.toList, m.isMatch w := by
  refine ⟨isMatch_ofMembers_literals_iff, ?_, fun v hv ls hls => ?_, ?_⟩
  · intro ls ks hls hks v
    exact isMatch_literals_congr hls hks v
  · exact isMatch_literals_iff hs.sound hv hls
  · rintro ps ⟨p, hp, hliteral⟩ v
    exact isMatch_ofMembers_iff_of_not_literal hp hliteral v

/-- The zero and the negative one. -/
def sampleZeros : List Value := [.number .zero, .number ⟨0x8000000000000000⟩]

/-- A set with the zero as its member, and both zeros. -/
def zeroStore : Store := ⟨.set ⟨0⟩ (Table.ofList [.number .zero]) :: sampleZeros, [], 1⟩

theorem reachable_zeroStore : zeroStore.Reachable := by
  have hzeros : Store.Reachable ⟨sampleZeros, [], 0⟩ :=
    (Store.Reachable.start.withValue (.number _)).withValue (.number _)
  exact hzeros.withValue (m := Value.newSet [.number .zero]) (.set (by simp [sampleZeros]))

theorem isMatch_ofMembers_zeroStore :
    zeroStore.Reachable ∧
      (ofMembers (sampleZeros.map literal)).isMatch (.set ⟨0⟩ (Table.ofList [.number .zero])) ∧
      (set [literal (.number ⟨0x8000000000000000⟩)]).isMatch
        (.set ⟨0⟩ (Table.ofList [.number .zero])) ∧
      ¬ (ofMembers [literal (.number .zero), select ⟨1⟩ .anonymous]).isMatch
        (.set ⟨0⟩ (Table.ofList [.number .zero])) := by
  obtain ⟨hcollapse, hcongr, hliterals, hothers⟩ := isMatch_ofMembers reachable_zeroStore
  have hzero : (Value.number .zero).sameValueZero (.number ⟨0x8000000000000000⟩) := by decide
  have hmember : (Table.ofList [.number .zero] : Members).toList = [.number .zero] :=
    (Value.coherent_of_nodup (by decide)).toList_members
  have hboth : (set (sampleZeros.map literal)).isMatch
      (.set ⟨0⟩ (Table.ofList [.number .zero])) := by
    rw [hliterals _ (by simp [zeroStore]) sampleZeros fun l hl => List.mem_cons_of_mem _ hl]
    refine ⟨_, rfl, .inr ⟨by simp [sampleZeros], fun l hl => ⟨.number .zero, ?_, ?_⟩⟩⟩
    · rw [hmember]
      exact List.mem_singleton_self _
    · rcases List.mem_cons.1 hl with rfl | hl
      · exact Value.sameValueZero_refl _
      · exact List.mem_singleton.1 hl ▸ hzero
  refine ⟨reachable_zeroStore, (hcollapse _ _).2 hboth, ?_, fun hmatch => ?_⟩
  · refine (hcongr sampleZeros [.number ⟨0x8000000000000000⟩] ?_ ?_ _).1 hboth
    · simp [sampleZeros, hzero, Value.sameValueZero_refl]
    · simp [sampleZeros, Value.sameValueZero_refl]
  · obtain ⟨m, vs, hm, -⟩ := (hothers _ ⟨select ⟨1⟩ .anonymous, by simp, by simp⟩ _).1 hmatch
    simp [ofMembers, addMember, sameMember, handle?] at hm

end Pattern

end ShapeMatch
