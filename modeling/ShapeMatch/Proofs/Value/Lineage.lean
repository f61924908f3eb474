import ShapeMatch.Proofs.Value.Building
import Mathlib.Data.List.Nodup
import Mathlib.Data.List.Perm.Subperm
import Mathlib.Logic.Relation

/-!
# Proofs: the lineage of a class

The walk from a class to the one it extends, and so on, passes through its `lineage`. In a store that a
program has made, all classes of a lineage were declared (`Store.Reachable.lineage_subset`), and there
a declaration is known by its identity. So a class derives from those in its lineage and from no other,
whatever the names (`Store.Reachable.derivesFrom_iff`). A lineage is a chain: of two classes in it, one
is in the lineage of the other.
-/

namespace ShapeMatch

namespace Class

variable {a b c d : Class}

/-- One class extends the other. -/
def Extends (c p : Class) : Prop := c.parent? = some p

/-- The class, the one that it extends, and so on. -/
def lineage : Class → List Class
  | root r n => [root r n]
  | extending r n p => extending r n p :: p.lineage

/-- The class at which a walk up stands after so many steps, if it has not ended before. -/
def climb (c : Class) : Nat → Option Class
  | 0 => some c
  | n + 1 => c.parent?.bind (climb · n)

theorem climb_eq (c : Class) (n : Nat) : c.climb n = c.lineage[n]? := by
  induction c generalizing n with
  | root r name =>
    cases n with
    | zero => rfl
    | succ n => rfl
  | extending r name p ih =>
    cases n with
    | zero => rfl
    | succ n =>
      rw [lineage, List.getElem?_cons_succ, ← ih n]
      rfl

theorem derivesFrom_iff_exists : c.derivesFrom a ↔ ∃ b ∈ c.lineage, b.same a := by
  induction c with
  | root r n => simp [derivesFrom, lineage, same, ref]
  | extending r n p ih =>
    rw [derivesFrom, Bool.or_eq_true, ih, lineage, List.exists_mem_cons_iff]
    rfl

theorem mem_lineage_self (c : Class) : c ∈ c.lineage := by
  cases c with
  | root r n => exact List.mem_singleton_self _
  | extending r n p => exact List.mem_cons_self

/-- The lineage holds what can be reached by going up. -/
theorem mem_lineage_iff : a ∈ c.lineage ↔ Relation.ReflTransGen Extends c a := by
  constructor
  · intro h
    induction c with
    | root r n =>
      obtain rfl := List.mem_singleton.1 h
      exact .refl
    | extending r n p ih =>
      rcases List.mem_cons.1 h with rfl | h
      · exact .refl
      · exact .head rfl (ih h)
  · intro h
    induction h using Relation.ReflTransGen.head_induction_on with
    | refl => exact mem_lineage_self a
    | @head b _ hstep _ ih =>
      cases b with
      | root r n => contradiction
      | extending r n p =>
        obtain rfl := Option.some.inj hstep
        exact List.mem_cons_of_mem _ ih

theorem sizeOf_le_of_mem_lineage (h : a ∈ c.lineage) : sizeOf a ≤ sizeOf c := by
  induction c with
  | root r n =>
    obtain rfl := List.mem_singleton.1 h
    exact Nat.le_refl _
  | extending r n p ih =>
    rcases List.mem_cons.1 h with rfl | h
    · exact Nat.le_refl _
    · have hle := ih h
      simp only [extending.sizeOf_spec]
      omega

/-- A class above is a smaller one. -/
theorem sizeOf_lt_of_mem_lineage (h : a ∈ c.lineage) (hne : a ≠ c) : sizeOf a < sizeOf c := by
  cases c with
  | root r n => exact absurd (List.mem_singleton.1 h) hne
  | extending r n p =>
    rcases List.mem_cons.1 h with heq | h
    · exact absurd heq hne
    · have hle := sizeOf_le_of_mem_lineage h
      simp only [extending.sizeOf_spec]
      omega

theorem eq_of_mem_lineage (hac : a ∈ c.lineage) (hca : c ∈ a.lineage) : a = c := by
  by_contra hne
  have hlt := sizeOf_lt_of_mem_lineage hac hne
  have hle := sizeOf_le_of_mem_lineage hca
  omega

theorem nodup_lineage (c : Class) : c.lineage.Nodup := by
  induction c with
  | root r n => exact List.nodup_singleton _
  | extending r n p ih =>
    refine List.nodup_cons.2 ⟨fun h => ?_, ih⟩
    have hle := sizeOf_le_of_mem_lineage h
    simp only [extending.sizeOf_spec] at hle
    omega

theorem lineage_total (ha : a ∈ c.lineage) (hb : b ∈ c.lineage) :
    b ∈ a.lineage ∨ a ∈ b.lineage := by
  induction c with
  | root r n =>
    obtain rfl := List.mem_singleton.1 ha
    exact .inl hb
  | extending r n p ih =>
    rcases List.mem_cons.1 ha with rfl | ha'
    · exact .inl hb
    · rcases List.mem_cons.1 hb with rfl | hb'
      · exact .inr ha
      · exact ih ha' hb'

end Class

namespace Store

variable {s s' : Store} {c d : Class}

/-- What a declared class extends was declared. -/
def ParentsDeclared (s : Store) : Prop := ∀ c ∈ s.classes, ∀ p, c.Extends p → p ∈ s.classes

theorem ParentsDeclared.step (hs : s.ParentsDeclared) (h : Step s s') : s'.ParentsDeclared := by
  cases h with
  | value | other => exact hs
  | @cls name parent hparent =>
    intro c hc p hp
    rcases List.mem_cons.1 hc with rfl | hc
    · cases parent with
      | none => contradiction
      | some q =>
        obtain rfl := Option.some.inj hp
        exact List.mem_cons_of_mem _ (hparent q rfl)
    · exact List.mem_cons_of_mem _ (hs c hc p hp)

theorem Reachable.parentsDeclared (h : s.Reachable) : s.ParentsDeclared := by
  induction h with
  | start => exact fun c hc => by contradiction
  | step _ hs ih => exact ih.step hs

theorem Reachable.lineage_subset (h : s.Reachable) (hc : c ∈ s.classes) :
    c.lineage ⊆ s.classes := by
  intro a ha
  induction Class.mem_lineage_iff.1 ha with
  | refl => exact hc
  | @tail b a hb hstep ih => exact h.parentsDeclared b (ih (Class.mem_lineage_iff.2 hb)) a hstep

/-- A class derives from those in its lineage. -/
theorem Reachable.derivesFrom_iff (h : s.Reachable) (hc : c ∈ s.classes) (hd : d ∈ s.classes) :
    c.derivesFrom d ↔ d ∈ c.lineage := by
  rw [Class.derivesFrom_iff_exists]
  constructor
  · rintro ⟨b, hb, hsame⟩
    rwa [← h.sound.eq_of_same b (h.lineage_subset hc hb) d hd hsame]
  · intro hmem
    exact ⟨d, hmem, beq_self_eq_true d.ref⟩

/-- What a value is an instance of is said by the class that it was made with. -/
theorem Reachable.exists_class (h : s.Reachable) {v : Value} (hv : v ∈ s.values)
    (hd : v.isInstanceOf d) :
    ∃ c ∈ s.classes, ∀ e : Class, v.isInstanceOf e ↔ c.derivesFrom e := by
  cases v with
  | inst r c fields => exact ⟨c, h.sound.declared r c fields hv, fun _ => Iff.rfl⟩
  | _ => contradiction

/-- How the classes of a store stand to one another. -/
structure Hierarchy (s : Store) : Prop where
  /-- A walk up ends before it has taken as many steps as there are classes. -/
  climb_ends : ∀ c ∈ s.classes, c.climb s.classes.length = none
  /-- A class derives from another one if the walk up comes to it. -/
  climb_iff : ∀ c ∈ s.classes, ∀ d ∈ s.classes,
    c.derivesFrom d ↔ ∃ n < s.classes.length, c.climb n = some d
  refl : ∀ c ∈ s.classes, c.derivesFrom c
  trans : ∀ c ∈ s.classes, ∀ d ∈ s.classes, ∀ e ∈ s.classes,
    c.derivesFrom d → d.derivesFrom e → c.derivesFrom e
  antisymm : ∀ c ∈ s.classes, ∀ d ∈ s.classes, c.derivesFrom d → d.derivesFrom c → c = d
  closure : ∀ c ∈ s.classes, ∀ d ∈ s.classes,
    c.derivesFrom d ↔ Relation.ReflTransGen Class.Extends c d
  comparable : ∀ c ∈ s.classes, ∀ d ∈ s.classes, ∀ e ∈ s.classes,
    c.derivesFrom d → c.derivesFrom e → d.derivesFrom e ∨ e.derivesFrom d
  instance_up : ∀ v ∈ s.values, ∀ c ∈ s.classes, ∀ d ∈ s.classes,
    v.isInstanceOf c → c.derivesFrom d → v.isInstanceOf d
  instance_comparable : ∀ v ∈ s.values, ∀ c ∈ s.classes, ∀ d ∈ s.classes,
    v.isInstanceOf c → v.isInstanceOf d → c.derivesFrom d ∨ d.derivesFrom c

theorem Reachable.length_lineage_le (h : s.Reachable) (hc : c ∈ s.classes) :
    c.lineage.length ≤ s.classes.length :=
  (c.nodup_lineage.subperm (h.lineage_subset hc)).length_le

theorem Reachable.derivesFrom_iff_climb (h : s.Reachable) (hc : c ∈ s.classes)
    (hd : d ∈ s.classes) : c.derivesFrom d ↔ ∃ n < s.classes.length, c.climb n = some d := by
  have hle := h.length_lineage_le hc
  rw [h.derivesFrom_iff hc hd, List.mem_iff_getElem?]
  simp only [Class.climb_eq]
  constructor
  · rintro ⟨n, hn⟩
    have hlt := (List.getElem?_eq_some_iff.1 hn).1
    exact ⟨n, by omega, hn⟩
  · rintro ⟨n, -, hn⟩
    exact ⟨n, hn⟩

theorem Reachable.derivesFrom_trans (h : s.Reachable) {e : Class} (hc : c ∈ s.classes)
    (hd : d ∈ s.classes) (he : e ∈ s.classes) (hcd : c.derivesFrom d) (hde : d.derivesFrom e) :
    c.derivesFrom e := by
  rw [h.derivesFrom_iff hc hd, Class.mem_lineage_iff] at hcd
  rw [h.derivesFrom_iff hd he, Class.mem_lineage_iff] at hde
  rw [h.derivesFrom_iff hc he, Class.mem_lineage_iff]
  exact hcd.trans hde

theorem Reachable.derivesFrom_total (h : s.Reachable) {e : Class} (hc : c ∈ s.classes)
    (hd : d ∈ s.classes) (he : e ∈ s.classes) (hcd : c.derivesFrom d) (hce : c.derivesFrom e) :
    d.derivesFrom e ∨ e.derivesFrom d := by
  rw [h.derivesFrom_iff hc hd] at hcd
  rw [h.derivesFrom_iff hc he] at hce
  rw [h.derivesFrom_iff hd he, h.derivesFrom_iff he hd]
  exact Class.lineage_total hcd hce

/-- **Classes form a hierarchy.** Among the classes that a program has declared, deriving is a partial
order, the reflexive and transitive closure of extending, and what lies above a class is a chain. A
value is an instance of all classes above its own and of no others, so these form a chain too. Names
play no part, and every walk up ends. -/
theorem Reachable.hierarchy (h : s.Reachable) : s.Hierarchy where
  climb_ends c hc := by rw [Class.climb_eq, List.getElem?_eq_none (h.length_lineage_le hc)]
  climb_iff _ hc _ hd := h.derivesFrom_iff_climb hc hd
  refl c hc := (h.derivesFrom_iff hc hc).2 c.mem_lineage_self
  trans _ hc _ hd _ he hcd hde := h.derivesFrom_trans hc hd he hcd hde
  antisymm c hc d hd hcd hdc := by
    rw [h.derivesFrom_iff hc hd] at hcd
    rw [h.derivesFrom_iff hd hc] at hdc
    exact Class.eq_of_mem_lineage hdc hcd
  closure c hc d hd := by rw [h.derivesFrom_iff hc hd, Class.mem_lineage_iff]
  comparable _ hc _ hd _ he hcd hce := h.derivesFrom_total hc hd he hcd hce
  instance_up v hv c hc d hd hvc hcd := by
    obtain ⟨own, hown, hiff⟩ := h.exists_class hv hvc
    rw [hiff] at hvc ⊢
    exact h.derivesFrom_trans hown hc hd hvc hcd
  instance_comparable v hv c hc d hd hvc hvd := by
    obtain ⟨own, hown, hiff⟩ := h.exists_class hv hvc
    rw [hiff] at hvc hvd
    exact h.derivesFrom_total hown hc hd hvc hvd

/-- A class, two that extend it under its name, one below the first of these, and an instance of
that one. -/
def namesakeStore : Store :=
  ⟨[.inst ⟨4⟩ (.extending ⟨3⟩ "leaf" (.extending ⟨1⟩ "node" (.root ⟨0⟩ "node"))) ∅],
    [.extending ⟨3⟩ "leaf" (.extending ⟨1⟩ "node" (.root ⟨0⟩ "node")),
      .extending ⟨2⟩ "node" (.root ⟨0⟩ "node"), .extending ⟨1⟩ "node" (.root ⟨0⟩ "node"),
      .root ⟨0⟩ "node"], 5⟩

theorem reachable_namesakeStore : namesakeStore.Reachable := by
  have hroot : Reachable ⟨[], [.root ⟨0⟩ "node"], 1⟩ :=
    Reachable.start.step (@Step.cls _ "node" none (by simp))
  have hfirst : Reachable ⟨[], [.extending ⟨1⟩ "node" (.root ⟨0⟩ "node"), .root ⟨0⟩ "node"], 2⟩ :=
    hroot.step (@Step.cls _ "node" (some (.root ⟨0⟩ "node")) (by simp))
  have hsecond := hfirst.step (@Step.cls _ "node" (some (.root ⟨0⟩ "node")) (by simp))
  have hleaf := hsecond.step (@Step.cls _ "leaf"
    (some (.extending ⟨1⟩ "node" (.root ⟨0⟩ "node"))) (by simp [withClass]))
  exact hleaf.withValue (@Makes.inst _ _ [] List.mem_cons_self (by simp))

theorem hierarchy_namesakeStore :
    namesakeStore.Reachable ∧
      (Class.extending ⟨3⟩ "leaf" (.extending ⟨1⟩ "node" (.root ⟨0⟩ "node"))).climb 4 = none ∧
      (∀ v ∈ namesakeStore.values, v.isInstanceOf (.root ⟨0⟩ "node")) ∧
      ¬ (Class.root ⟨0⟩ "node").derivesFrom (.extending ⟨2⟩ "node" (.root ⟨0⟩ "node")) := by
  have h : namesakeStore.Hierarchy := Reachable.hierarchy reachable_namesakeStore
  refine ⟨reachable_namesakeStore, h.climb_ends _ (by simp [namesakeStore]), fun v hv => ?_, ?_⟩
  · obtain rfl := List.mem_singleton.1 hv
    exact h.instance_up _ hv (.extending ⟨1⟩ "node" (.root ⟨0⟩ "node")) (by simp [namesakeStore])
      _ (by simp [namesakeStore]) (by decide) (by decide)
  · intro hderives
    have heq := h.antisymm _ (by simp [namesakeStore]) _ (by simp [namesakeStore]) hderives
      (by decide)
    contradiction

end Store

end ShapeMatch
