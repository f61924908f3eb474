import ShapeMatch.Proofs.Value.DeepEquality
import ShapeMatch.Proofs.Value.Numerals

/-!
# Proofs: what can be read off equal values

Two values of a program that are deeply equal, and have no zero in a set (`Store.Alike`), are read in the
same way: whatever property, element, entry or member one of them shows, the other one has a counterpart
of it. A counterpart is an equal value of the same kind again, or the very same value, such as a size or
what stands for a missing part.

Without the condition on sets this would fail: sets take both zeros for one member, and deep equality
tells them apart.
-/

namespace ShapeMatch

namespace Value

variable {a b v w : Value}

/-- What holds of a value and of all values inside it, at any depth. -/
inductive Throughout (P : Value → Prop) : Value → Prop where
  | intro {v : Value} (hv : P v) (hparts : ∀ w ∈ v.parts, Throughout P w) : Throughout P v

theorem Throughout.here {P : Value → Prop} (h : v.Throughout P) : P v := by
  cases h
  assumption

theorem Throughout.part {P : Value → Prop} (h : v.Throughout P) (hw : w ∈ v.parts) :
    w.Throughout P := by
  cases h with
  | intro _ hparts => exact hparts w hw

/-- The value is no set with a zero among its members. -/
def HasNoZero : Value → Prop
  | set _ members => ∀ x, number x ∈ members.toList → x.isZero = false
  | _ => True

theorem Throughout.of_ref? (hv : v.ref? = none) : v.Throughout HasNoZero := by
  cases v <;> first | contradiction | exact .intro trivial fun w hw => nomatch hw

theorem Throughout.set_ofList {r : Ref} {members : List Value}
    (hzero : ∀ x, number x ∈ members → x.isZero = false)
    (hmembers : ∀ m ∈ members, m.Throughout HasNoZero) :
    (set r (Table.ofList members)).Throughout HasNoZero := by
  have hall : ∀ m ∈ (Table.ofList members : Members).toList, m ∈ members :=
    Table.forall_mem_ofList (fun _ _ hold _ => hold) fun _ hm => hm
  exact .intro (fun x hx => hzero x (hall _ hx)) fun m hm => hmembers m (hall m hm)

/-! ## Outlines -/

/-- Primitives are the same value if they have one outline. -/
theorem sameValue_primitive_iff (hb : b.ref? = none) : a.sameValue b ↔ b.outline = a.outline := by
  rw [← equal_primitive_iff hb, equal_of_ref? hb]
  exact ⟨sameValue_symm, sameValue_symm⟩

theorem isObjectLike_of_outline (h : a.outline = b.outline) : a.isObjectLike = b.isObjectLike := by
  have primitive {v w : Value} (hvw : v.outline = w.outline) (hv : v.ref? = none) :
      w.ref? = none := ref?_of_outline (hvw.symm.trans (outline_of_ref? hv))
  rw [isObjectLike, isObjectLike, Bool.eq_iff_iff, ← not_iff_not,
    Option.not_isSome_iff_eq_none, Option.not_isSome_iff_eq_none]
  exact ⟨primitive h, primitive h.symm⟩

theorem typeName_of_outline (h : a.outline = b.outline) : a.typeName = b.typeName := by
  cases ha : a.ref? with
  | none =>
    rw [outline_of_ref? ha] at h
    rw [outline_of_ref? (ref?_of_outline h.symm)] at h
    exact typeName_of_key_of_ref? ha (Outline.primitive.inj h).1
  | some r => cases a <;> cases b <;> first | rfl | contradiction

/-! ## Properties -/

theorem size_eq_of_equal_map {r r' : Ref} {es ds : Mapping} (h : (map r es).equal (map r' ds)) :
    es.size = ds.size := by
  rw [equal_map, Mapping.equal, Bool.and_eq_true, beq_iff_eq] at h
  exact h.1

theorem size_eq_of_equal_set {r r' : Ref} {ms ns : Members} (h : (set r ms).equal (set r' ns)) :
    ms.size = ns.size := by
  rw [equal_set, Members.equal, Bool.and_eq_true, beq_iff_eq] at h
  exact h.1

theorem property?_of_ref? {name : String} (hv : v.ref? = none) : v.property? name = none := by
  cases v <;> first | contradiction | rfl

/-- A value has the properties that can be read. -/
theorem hasProperty_eq_isSome (hv : v.IsIndexed) (name : String) :
    v.hasProperty name = (v.property? name).isSome := by
  cases v with
  | object r fields | inst r c fields =>
    rw [hasProperty, property?, Option.isSome_map]
    exact hv.contains_eq_isSome_get? name
  | array r items =>
    rw [hasProperty, property?]
    by_cases hname : name = "length"
    · rw [if_pos hname, hname]
      rfl
    · rw [if_neg hname, beq_eq_false_iff_ne.2 hname, Bool.false_or]
      cases hi : position? name items.size with
      | none => rfl
      | some i =>
        rw [Option.bind_some, Array.getElem?_eq_getElem (position?_eq_some_iff.1 hi).1]
        rfl
  | map | set =>
    rw [hasProperty, property?]
    by_cases hname : name = "size"
    · rw [if_pos hname, hname]
      rfl
    · rw [if_neg hname, beq_eq_false_iff_ne.2 hname]
      rfl
  | _ => rfl

end Value

namespace Store

/-- Two values of a store that are deeply equal, without a zero in a set. -/
structure Alike (s : Store) (a b : Value) : Prop where
  left : a ∈ s.values
  right : b ∈ s.values
  noZero_left : a.Throughout Value.HasNoZero
  noZero_right : b.Throughout Value.HasNoZero
  equal : a.equal b

/-- The same value, or values that are alike. -/
def Counterparts (s : Store) (v w : Value) : Prop := v = w ∨ s.Alike v w

section Alike

variable {s : Store} {a b : Value}

theorem Alike.symm (hs : s.Sound) (h : s.Alike a b) : s.Alike b a where
  left := h.right
  right := h.left
  noZero_left := h.noZero_right
  noZero_right := h.noZero_left
  equal := Value.equal_symm (hs.wellFormed a h.left) (hs.wellFormed b h.right) h.equal

theorem Alike.outline_eq (hs : s.Sound) (h : s.Alike a b) : a.outline = b.outline :=
  ((Value.equal_iff (hs.wellFormed a h.left).isIndexed (hs.wellFormed b h.right).isIndexed).1
    h.equal).1

/-- At each place alike values hold alike values, or nothing both of them. -/
theorem Alike.rel_at? (hs : s.Sound) (h : s.Alike a b) (p : Value.Place) :
    Option.Rel s.Alike (a.at? p) (b.at? p) := by
  have ha := (hs.wellFormed a h.left).isIndexed
  have hb := (hs.wellFormed b h.right).isIndexed
  have hrel := ((Value.equal_iff ha hb).1 h.equal).2 p
  generalize hv : a.at? p = v? at hrel
  generalize hw : b.at? p = w? at hrel
  cases hrel with
  | none => exact .none
  | @some v w hvw =>
    have hva : v ∈ a.parts := Value.mem_parts_of_at? ha hv
    have hwb : w ∈ b.parts := Value.mem_parts_of_at? hb hw
    exact .some
      { left := hs.parts a h.left v hva
        right := hs.parts b h.right w hwb
        noZero_left := h.noZero_left.part hva
        noZero_right := h.noZero_right.part hwb
        equal := hvw }

/-! ## What each look gives -/

theorem Alike.rel_property? (hs : s.Sound) (h : s.Alike a b) (name : String) :
    Option.Rel s.Counterparts (a.property? name) (b.property? name) := by
  have hout := h.outline_eq hs
  have counterparts {p : Value.Place} : Option.Rel s.Counterparts (a.at? p) (b.at? p) :=
    rel_mono (h.rel_at? hs p) fun _ _ => .inr
  have same (test : Prop) [Decidable test] (v : Value) : Option.Rel s.Counterparts
      (if test then some v else none) (if test then some v else none) := rel_refl fun _ _ => .inl rfl
  cases a with
  | object r fs | inst r c fs =>
    cases b with
    | object r' gs | inst r' d gs => exact counterparts (p := .field name)
    | _ => contradiction
  | array r xs =>
    cases b with
    | array r' ys =>
      have hsize : xs.size = ys.size := Value.size_eq_of_equal h.equal
      rw [Value.property?, Value.property?, hsize]
      by_cases hname : name = "length"
      · rw [if_pos hname, if_pos hname]
        exact .some (.inl rfl)
      · rw [if_neg hname, if_neg hname]
        cases position? name ys.size with
        | none => exact .none
        | some i => exact counterparts (p := .index i)
    | _ => contradiction
  | map r es =>
    cases b with
    | map r' ds =>
      rw [Value.property?, Value.property?, Value.size_eq_of_equal_map h.equal]
      exact same _ _
    | _ => contradiction
  | set r ms =>
    cases b with
    | set r' ns =>
      rw [Value.property?, Value.property?, Value.size_eq_of_equal_set h.equal]
      exact same _ _
    | _ => contradiction
  | _ =>
    rw [Value.property?_of_ref? rfl, Value.property?_of_ref? (Value.ref?_of_outline hout.symm)]
    exact .none

theorem Alike.items? (hs : s.Sound) (h : s.Alike a b) {xs : Array Value} (ha : a.items? = some xs) :
    ∃ ys, b.items? = some ys ∧ xs.size = ys.size ∧
      ∀ (i : Nat) v, xs[i]? = some v → ∃ w, ys[i]? = some w ∧ s.Alike v w := by
  have hout := h.outline_eq hs
  have hat := h.rel_at? hs
  cases a with
  | array r items =>
    obtain rfl := Option.some.inj ha
    cases b with
    | array r' ys =>
      refine ⟨ys, rfl, Value.size_eq_of_equal h.equal, fun i v hv => ?_⟩
      exact rel_some_iff.1 (hv ▸ hat (.index i))
    | _ => contradiction
  | _ => contradiction

/-- Under each key, what is missing counts as `undefined`. -/
theorem Alike.entries? (hs : s.Sound) (h : s.Alike a b) {es : Mapping} (ha : a.entries? = some es) :
    ∃ ds, b.entries? = some ds ∧ ∀ k : Key, s.Counterparts
      (((es.get? k).map Prod.snd).getD .undefined) (((ds.get? k).map Prod.snd).getD .undefined) := by
  have hout := h.outline_eq hs
  have hat := h.rel_at? hs
  cases a with
  | map r entries =>
    obtain rfl := Option.some.inj ha
    cases b with
    | map r' ds =>
      refine ⟨ds, rfl, fun k => ?_⟩
      have hrel : Option.Rel s.Alike ((entries.get? k).map Prod.snd) ((ds.get? k).map Prod.snd) :=
        hat (.key k)
      generalize (entries.get? k).map Prod.snd = v? at hrel ⊢
      generalize (ds.get? k).map Prod.snd = w? at hrel ⊢
      cases hrel with
      | none => exact .inl rfl
      | some hvw => exact .inr hvw
    | _ => contradiction
  | _ => contradiction

/-- Members of alike sets under one key are alike, as none of them is a zero. -/
theorem Sound.alike_of_key_eq (hs : s.Sound) (h : s.Alike a b) {r r' : Ref} {ms ns : Members}
    (ha : a = .set r ms) (hb : b = .set r' ns) {m n : Value} (hm : m ∈ ms.toList)
    (hn : n ∈ ns.toList) (hkey : m.key = n.key) : s.Alike m n := by
  subst ha hb
  have hmem : m ∈ s.values := hs.parts _ h.left m hm
  have hmem' : n ∈ s.values := hs.parts _ h.right n hn
  have hzero : m.sameValueZero n := (hs.coherent.key_eq_iff hmem hmem').1 hkey
  have hsame : m.sameValue n := by
    by_contra hne
    obtain ⟨x, y, rfl, rfl, hx, -, -⟩ := Value.sameValueZero_and_not_sameValue_iff.1 ⟨hzero, hne⟩
    rw [h.noZero_left.here x hm] at hx
    contradiction
  exact
    { left := hmem
      right := hmem'
      noZero_left := h.noZero_left.part hm
      noZero_right := h.noZero_right.part hn
      equal := hs.equal_of_sameValue hmem hmem' hsame }

theorem Alike.members? (hs : s.Sound) (h : s.Alike a b) {ms : Members} (ha : a.members? = some ms) :
    ∃ ns, b.members? = some ns ∧ ms.isEmpty = ns.isEmpty ∧
      (∀ k : Key, ms.contains k = ns.contains k) ∧
      ∀ m ∈ ms.toList, ∃ n ∈ ns.toList, s.Alike m n := by
  have hout := h.outline_eq hs
  cases a with
  | set r members =>
    obtain rfl := Option.some.inj ha
    cases b with
    | set r' ns =>
      have hcontains : members.contains = ns.contains := Value.Outline.set.inj hout
      refine ⟨ns, rfl, ?_, congrFun hcontains, fun m hm => ?_⟩
      · have hsize : members.size = ns.size := Value.size_eq_of_equal_set h.equal
        rw [Table.size, Table.size] at hsize
        rw [Table.isEmpty, Table.isEmpty, Array.isEmpty, Array.isEmpty, hsize]
      · have hms : members.Valid := (hs.wellFormed _ h.left).isIndexed
        have hns : ns.Valid := (hs.wellFormed _ h.right).isIndexed
        have hget : members.get? m.key = some m := hms.get?_eq_some_iff.2 ⟨hm, rfl⟩
        have hfound : (ns.get? m.key).isSome := by
          rw [← hns.contains_eq_isSome_get?, ← hcontains, hms.contains_eq_isSome_get?, hget]
          rfl
        obtain ⟨n, hn⟩ := Option.isSome_iff_exists.1 hfound
        obtain ⟨hmem, hkey⟩ := hns.get?_eq_some_iff.1 hn
        exact ⟨n, hmem, hs.alike_of_key_eq h rfl rfl hm hmem hkey.symm⟩
    | _ => contradiction
  | _ => contradiction

theorem Alike.isInstanceOf_eq (hs : s.Sound) (h : s.Alike a b) (c : Class) :
    a.isInstanceOf c = b.isInstanceOf c := by
  have hout := h.outline_eq hs
  cases a with
  | inst r d fs =>
    cases b with
    | inst r' d' gs =>
      have heq : d = d' := ((hs.equal_inst_iff h.left h.right).1 h.equal).1
      rw [Value.isInstanceOf, Value.isInstanceOf, heq]
    | _ => contradiction
  | _ => cases b <;> first | contradiction | rfl

end Alike

end Store

end ShapeMatch
