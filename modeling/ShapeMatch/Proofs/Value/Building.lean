import ShapeMatch.Proofs.Dictionary.Tables
import ShapeMatch.Proofs.Value.Identity
import ShapeMatch.Value.Container

/-!
# Proofs: values that a program can build

A program builds a value by one call from values that it has built before (`Store.Makes`), and what it
has built after some calls is a reachable `Store`. Step by step such a store stays sound
(`Store.Sound.step`): the tables in its values are right at every depth, the parts of a value are among
the values, and no identity is given to two containers or to two classes.
-/

namespace ShapeMatch

namespace Value

/-- The direct parts of a value, in order. -/
def parts : Value → List Value
  | array _ items => items.toList
  | object _ fields | inst _ _ fields => fields.toList.map Prod.snd
  | map _ entries => entries.toList.flatMap fun e => [e.1, e.2]
  | set _ members => members.toList
  | _ => []

/-- The index of the table that a container keeps its contents in is right. -/
def IsIndexed : Value → Prop
  | object _ fields | inst _ _ fields => fields.Valid
  | map _ entries => entries.Valid
  | set _ members => members.Valid
  | _ => True

/-- The tables of a value and of all values inside it are right. -/
inductive WellFormed : Value → Prop where
  | intro {v : Value} (hv : v.IsIndexed) (hparts : ∀ w ∈ v.parts, WellFormed w) : WellFormed v

section WellFormed

variable {v w : Value}

theorem WellFormed.isIndexed (h : v.WellFormed) : v.IsIndexed := by
  cases h
  assumption

theorem WellFormed.part (h : v.WellFormed) (hw : w ∈ v.parts) : w.WellFormed := by
  cases h with
  | intro _ hparts => exact hparts w hw

end WellFormed

end Value

/-- What a program has made. -/
structure Store where
  values : List Value
  classes : List Class
  /-- The number of the next identity. -/
  next : Nat

namespace Store

/-- The calls that make a value from what there is. -/
inductive Makes (s : Store) : Fresh Value → Prop where
  | undefined : Makes s (pure .undefined)
  | null : Makes s (pure .null)
  | bool (b : Bool) : Makes s (pure (.bool b))
  | number (x : Double) : Makes s (pure (.number x))
  | bigint (n : Int) : Makes s (pure (.bigint n))
  | string (text : String) : Makes s (pure (.string text))
  | symbol (description : Option String) : Makes s (.symbol <$> Symbol.declare description)
  | array {items : List Value} (h : ∀ v ∈ items, v ∈ s.values) : Makes s (Value.newArray items)
  | object {fields : List (String × Value)} (h : ∀ f ∈ fields, f.2 ∈ s.values) :
    Makes s (Value.newObject fields)
  | map {entries : List (Value × Value)} (h : ∀ e ∈ entries, e.1 ∈ s.values ∧ e.2 ∈ s.values) :
    Makes s (Value.newMap entries)
  | set {members : List Value} (h : ∀ v ∈ members, v ∈ s.values) : Makes s (Value.newSet members)
  | inst {c : Class} {fields : List (String × Value)} (hc : c ∈ s.classes)
      (h : ∀ f ∈ fields, f.2 ∈ s.values) : Makes s (Value.newInstance c fields)

/-- The store after a call that makes a value. -/
def withValue (s : Store) (m : Fresh Value) : Store :=
  { s with values := (m.run s.next).1 :: s.values, next := (m.run s.next).2 }

/-- The store after the declaration of a class. -/
def withClass (s : Store) (name : String) (parent : Option Class) : Store :=
  let declared := (Class.declare name parent).run s.next
  { s with classes := declared.1 :: s.classes, next := declared.2 }

/-- One call of a program. -/
inductive Step : Store → Store → Prop where
  | value {s : Store} {m : Fresh Value} (h : s.Makes m) : Step s (s.withValue m)
  | cls {s : Store} (name : String) {parent : Option Class} (h : ∀ p ∈ parent, p ∈ s.classes) :
    Step s (s.withClass name parent)
  /-- An identity goes to something that is neither a value nor a class. -/
  | other {s : Store} : Step s { s with next := s.next + 1 }

/-- The stores to which calls lead from the one with nothing in it. -/
inductive Reachable : Store → Prop where
  | start : Reachable ⟨[], [], 0⟩
  | step {s s' : Store} (h : Reachable s) (hs : Step s s') : Reachable s'

theorem Reachable.withValue {s : Store} {m : Fresh Value} (h : s.Reachable) (hm : s.Makes m) :
    (s.withValue m).Reachable :=
  h.step (.value hm)

/-- What holds of the values and classes that a program has made. -/
structure Sound (s : Store) : Prop where
  wellFormed : ∀ v ∈ s.values, v.WellFormed
  parts : ∀ v ∈ s.values, ∀ w ∈ v.parts, w ∈ s.values
  /-- No two containers share an identity. -/
  coherent : Value.Coherent s.values
  ref_lt : ∀ v ∈ s.values, ∀ r, v.ref? = some r → r.number < s.next
  /-- The class of an instance was declared. -/
  declared : ∀ r c fields, Value.inst r c fields ∈ s.values → c ∈ s.classes
  class_ref_lt : ∀ c ∈ s.classes, c.ref.number < s.next
  /-- No two classes share a declaration. -/
  eq_of_same : ∀ c ∈ s.classes, ∀ d ∈ s.classes, c.same d → c = d

/-- What a call makes: a value whose parts were there, with the next identity if it has one. -/
structure Made (s : Store) (v : Value) (next : Nat) : Prop where
  isIndexed : v.IsIndexed
  parts : ∀ w ∈ v.parts, w ∈ s.values
  ref? : ∀ r, v.ref? = some r → r.number = s.next ∧ next = s.next + 1
  le_next : s.next ≤ next
  declared : ∀ r c fields, v = .inst r c fields → c ∈ s.classes

section Made

variable {s : Store}

theorem mem_values_of_fields {fields : List (String × Value)} (h : ∀ f ∈ fields, f.2 ∈ s.values) :
    ∀ w ∈ (Table.ofList fields : Record).toList.map Prod.snd, w ∈ s.values := by
  intro w hw
  obtain ⟨f, hf, rfl⟩ := List.mem_map.1 hw
  exact Table.forall_mem_ofList (P := fun f => f.2 ∈ s.values) (fun _ _ _ hnew => hnew) h f hf

theorem mem_values_of_entries {entries : List (Value × Value)}
    (h : ∀ e ∈ entries, e.1 ∈ s.values ∧ e.2 ∈ s.values) :
    ∀ w ∈ (Table.ofList entries : Mapping).toList.flatMap fun e => [e.1, e.2], w ∈ s.values := by
  intro w hw
  obtain ⟨e, he, hew⟩ := List.mem_flatMap.1 hw
  have hmem : e.1 ∈ s.values ∧ e.2 ∈ s.values :=
    Table.forall_mem_ofList (P := fun e => e.1 ∈ s.values ∧ e.2 ∈ s.values)
      (fun _ _ hold hnew => ⟨hold.1, hnew.2⟩) h e he
  rcases List.mem_cons.1 hew with rfl | hew
  · exact hmem.1
  · exact List.mem_singleton.1 hew ▸ hmem.2

theorem mem_values_of_members {members : List Value} (h : ∀ v ∈ members, v ∈ s.values) :
    ∀ w ∈ (Table.ofList members : Members).toList, w ∈ s.values :=
  Table.forall_mem_ofList (fun _ _ hold _ => hold) h

/-- A container that takes the next identity. -/
theorem Made.ofContainer {v : Value} (hindex : v.IsIndexed) (hparts : ∀ w ∈ v.parts, w ∈ s.values)
    (href : v.ref? = some ⟨s.next⟩) (hcls : ∀ r c fields, v = .inst r c fields → c ∈ s.classes) :
    s.Made v (s.next + 1) where
  isIndexed := hindex
  parts := hparts
  ref? r hr := by
    rw [href] at hr
    obtain rfl := Option.some.inj hr
    exact ⟨rfl, rfl⟩
  le_next := Nat.le_succ s.next
  declared := hcls

/-- A value without parts and identity. -/
theorem Made.ofPrimitive {v : Value} {next : Nat} (hindex : v.IsIndexed) (hparts : v.parts = [])
    (href : v.ref? = none) (hnext : s.next ≤ next) : s.Made v next where
  isIndexed := hindex
  parts w hw := by
    rw [hparts] at hw
    contradiction
  ref? r hr := by
    rw [href] at hr
    contradiction
  le_next := hnext
  declared r c fields hv := by
    subst hv
    contradiction

theorem Makes.made {m : Fresh Value} (h : s.Makes m) :
    s.Made (m.run s.next).1 (m.run s.next).2 := by
  cases h with
  | undefined | null | bool | number | bigint | string =>
    exact .ofPrimitive trivial rfl rfl (Nat.le_refl _)
  | symbol => exact .ofPrimitive trivial rfl rfl (Nat.le_succ _)
  | array h => exact .ofContainer trivial h rfl (by rintro _ _ _ ⟨⟩)
  | object h =>
    exact .ofContainer (Table.valid_ofList _) (mem_values_of_fields h) rfl (by rintro _ _ _ ⟨⟩)
  | map h =>
    exact .ofContainer (Table.valid_ofList _) (mem_values_of_entries h) rfl (by rintro _ _ _ ⟨⟩)
  | set h =>
    exact .ofContainer (Table.valid_ofList _) (mem_values_of_members h) rfl (by rintro _ _ _ ⟨⟩)
  | inst hc h =>
    refine .ofContainer (Table.valid_ofList _) (mem_values_of_fields h) rfl ?_
    rintro _ _ _ ⟨⟩
    exact hc

end Made

/-! ## Calls keep a store sound -/

section Sound

variable {s s' : Store}

theorem Sound.start : Sound ⟨[], [], 0⟩ where
  wellFormed _ hv := by contradiction
  parts _ hv := by contradiction
  coherent _ hv := by contradiction
  ref_lt _ hv := by contradiction
  declared _ _ _ hv := by contradiction
  class_ref_lt _ hc := by contradiction
  eq_of_same _ hc := by contradiction

theorem Sound.other (hs : s.Sound) {next : Nat} (h : s.next ≤ next) :
    Sound { s with next := next } :=
  { hs with
    ref_lt := fun v hv r hr => Nat.lt_of_lt_of_le (hs.ref_lt v hv r hr) h
    class_ref_lt := fun c hc => Nat.lt_of_lt_of_le (hs.class_ref_lt c hc) h }

theorem Sound.withValue (hs : s.Sound) {m : Fresh Value} (h : s.Makes m) :
    (s.withValue m).Sound := by
  have hm := h.made
  have hgrow := hs.other hm.le_next
  refine
    { wellFormed := List.forall_mem_cons.2 ⟨?_, hs.wellFormed⟩
      parts := List.forall_mem_cons.2 ⟨?_, ?_⟩
      coherent := hs.coherent.cons ?_
      ref_lt := List.forall_mem_cons.2 ⟨?_, hgrow.ref_lt⟩
      declared := ?_
      class_ref_lt := hgrow.class_ref_lt
      eq_of_same := hs.eq_of_same }
  · exact .intro hm.isIndexed fun w hw => hs.wellFormed w (hm.parts w hw)
  · intro w hw
    exact List.mem_cons_of_mem _ (hm.parts w hw)
  · intro v hv w hw
    exact List.mem_cons_of_mem _ (hs.parts v hv w hw)
  · -- The next identity is above those of all values there are.
    intro w hw r hr hwr
    have hnew := (hm.ref? r hr).1
    have hold := hs.ref_lt w hw r hwr
    omega
  · intro r hr
    obtain ⟨hnew, hnext⟩ := hm.ref? r hr
    show r.number < (m.run s.next).2
    omega
  · intro r c fields hv
    rcases List.mem_cons.1 hv with hv | hv
    · exact hm.declared r c fields hv.symm
    · exact hs.declared r c fields hv

theorem ref_declare (name : String) (parent : Option Class) (next : Nat) :
    ((Class.declare name parent).run next).1.ref = ⟨next⟩ := by
  cases parent <;> rfl

theorem Sound.withClass (hs : s.Sound) (name : String) (parent : Option Class) :
    (s.withClass name parent).Sound := by
  have hgrow : Sound { s with next := s.next + 1 } := hs.other (Nat.le_succ _)
  have href := ref_declare name parent s.next
  have hfresh : ∀ c ∈ s.classes, c.ref ≠ ((Class.declare name parent).run s.next).1.ref := by
    intro c hc heq
    have hlt := hs.class_ref_lt c hc
    rw [heq, href] at hlt
    exact Nat.lt_irrefl _ hlt
  refine
    { wellFormed := hs.wellFormed
      parts := hs.parts
      coherent := hs.coherent
      ref_lt := hgrow.ref_lt
      declared := fun r c fields hv => List.mem_cons_of_mem _ (hs.declared r c fields hv)
      class_ref_lt := List.forall_mem_cons.2 ⟨?_, hgrow.class_ref_lt⟩
      eq_of_same := List.forall_mem_cons.2 ⟨?_, fun c hc => List.forall_mem_cons.2 ⟨?_, ?_⟩⟩ }
  · rw [href]
    exact Nat.lt_succ_self s.next
  · intro d hd hsame
    rcases List.mem_cons.1 hd with rfl | hd
    · rfl
    · exact absurd (beq_iff_eq.1 hsame).symm (hfresh d hd)
  · intro hsame
    exact absurd (beq_iff_eq.1 hsame) (hfresh c hc)
  · exact hs.eq_of_same c hc

/-- A call keeps a store sound. -/
theorem Sound.step (hs : s.Sound) (h : Step s s') : s'.Sound := by
  cases h with
  | value h => exact hs.withValue h
  | cls name h => exact hs.withClass name _
  | other => exact hs.other (Nat.le_succ _)

/-- What a program has made is sound. -/
theorem Reachable.sound (h : s.Reachable) : s.Sound := by
  induction h with
  | start => exact .start
  | step _ hs ih => exact ih.step hs

/-- A set finds by its key what it has among its members. -/
theorem Sound.contains_iff (hs : s.Sound) {r : Ref} {ms : Members} {v : Value}
    (hset : Value.set r ms ∈ s.values) (hv : v ∈ s.values) :
    ms.contains v.key ↔ ∃ m ∈ ms.toList, m.sameValueZero v := by
  have hms : ms.Valid := (hs.wellFormed _ hset).isIndexed
  have hkey {m : Value} (hm : m ∈ ms.toList) : m.key = v.key ↔ m.sameValueZero v :=
    hs.coherent.key_eq_iff (hs.parts _ hset m hm) hv
  rw [hms.contains_eq_isSome_get?, Option.isSome_iff_exists]
  simp only [hms.get?_eq_some_iff]
  constructor
  · rintro ⟨m, hm, hmv⟩
    exact ⟨m, hm, (hkey hm).1 hmv⟩
  · rintro ⟨m, hm, hmv⟩
    exact ⟨m, hm, (hkey hm).2 hmv⟩

end Sound

end Store

end ShapeMatch
