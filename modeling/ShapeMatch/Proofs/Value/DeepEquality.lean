import ShapeMatch.Proofs.Dictionary.Agreement
import ShapeMatch.Proofs.Value.Building
import ShapeMatch.Proofs.Value.Containers
import ShapeMatch.Value.Equal
import ShapeMatch.Value.Property

/-!
# Proofs: deep equality

Two values are equal exactly if they have one outline and equal values at all places inside them
(`Value.equal_iff`), where a place is a position, a name or a key, and the outline is all that is not
a value inside. That deep equality is an equivalence follows by induction on the values. No order
of insertion has a part in outlines and places, so deep equality is blind to it.
-/

namespace ShapeMatch

namespace Value

variable {a b c : Value}

/-- What is left of a value when the values inside it are taken out. -/
inductive Outline where
  | primitive (key : Key) (negativeZero : Bool)
  | array
  | object
  | map
  | set (has : Key → Bool)
  | inst (cls : Ref)

/-- The outline of a value. The members of a set belong to it, as they are not compared by their
contents. -/
def outline : Value → Outline
  | array .. => .array
  | object .. => .object
  | map .. => .map
  | set _ members => .set members.contains
  | inst _ c _ => .inst c.ref
  | v => .primitive v.key v.isNegativeZero

/-- A place at which a container can hold a value. -/
inductive Place where
  | index (i : Nat)
  | field (name : String)
  | key (k : Key)

/-- The value at a place. -/
def at? : Value → Place → Option Value
  | array _ items, .index i => items[i]?
  | object _ fields, .field name | inst _ _ fields, .field name =>
    (fields.get? name).map Prod.snd
  | map _ entries, .key k => (entries.get? k).map Prod.snd
  | _, _ => none

theorem outline_of_ref? (ha : a.ref? = none) : a.outline = .primitive a.key a.isNegativeZero := by
  cases a <;> first | contradiction | rfl

theorem ref?_of_outline {k : Key} {sign : Bool} (h : a.outline = .primitive k sign) :
    a.ref? = none := by
  cases a <;> first | contradiction | rfl

theorem at?_of_ref? (ha : a.ref? = none) (p : Place) : a.at? p = none := by
  cases a <;> first | contradiction | rfl

theorem mem_parts_of_at? {p : Place} {v : Value} (ha : a.IsIndexed) (h : a.at? p = some v) :
    v ∈ a.parts := by
  cases a <;> cases p <;> try contradiction
  case array.index => exact Array.mem_toList_iff.2 (Array.mem_of_getElem? h)
  case object.field | inst.field =>
    obtain ⟨f, hf, rfl⟩ := Option.map_eq_some_iff.1 h
    exact List.mem_map_of_mem (ha.get?_eq_some_iff.1 hf).1
  case map.key =>
    obtain ⟨e, he, rfl⟩ := Option.map_eq_some_iff.1 h
    exact List.mem_flatMap.2 ⟨e, (ha.get?_eq_some_iff.1 he).1, by simp⟩

/-! ## Equal contents are equal look-ups -/

theorem equalItems_iff {xs ys : List Value} :
    xs.length = ys.length ∧ equalItems xs ys ↔
      ∀ i : Nat, Option.Rel (fun x y => x.equal y) xs[i]? ys[i]? := by
  induction xs generalizing ys with
  | nil =>
    cases ys with
    | nil => simp [equalItems]
    | cons y ys =>
      have hne : ¬ Option.Rel (fun x y => x.equal y) ([] : List Value)[0]? (y :: ys)[0]? :=
        Option.not_rel_none_some
      exact iff_of_false (fun h => absurd h.1 (by simp)) fun h => hne (h 0)
  | cons x xs ih =>
    cases ys with
    | nil =>
      have hne : ¬ Option.Rel (fun x y => x.equal y) (x :: xs)[0]? ([] : List Value)[0]? :=
        Option.not_rel_some_none
      exact iff_of_false (fun h => absurd h.1 (by simp)) fun h => hne (h 0)
    | cons y ys =>
      rw [equalItems, Bool.and_eq_true, List.length_cons, List.length_cons, Nat.succ_inj]
      constructor
      · rintro ⟨hlen, hxy, hrest⟩ i
        cases i with
        | zero => exact .some hxy
        | succ i => exact ih.1 ⟨hlen, hrest⟩ i
      · intro h
        obtain ⟨hlen, hrest⟩ := ih.2 fun i => h (i + 1)
        obtain ⟨_, ⟨⟩, hxy⟩ := rel_some_iff.1 (h 0)
        exact ⟨hlen, hxy, hrest⟩

theorem equalFields_iff {fs : List (String × Value)} {gs : Record} :
    equalFields fs gs ↔ ∀ f ∈ fs, ∃ g, gs.get? f.1 = some g ∧ f.2.equal g.2 := by
  induction fs with
  | nil => simp [equalFields]
  | cons f fs ih =>
    rw [equalFields, Bool.and_eq_true, ih, List.forall_mem_cons]
    refine and_congr ?_ Iff.rfl
    cases gs.get? f.1 <;> simp

theorem equalEntries_iff {es : List (Value × Value)} {ds : Mapping} :
    equalEntries es ds ↔ ∀ e ∈ es, ∃ d, ds.get? e.1.key = some d ∧ e.2.equal d.2 := by
  induction es with
  | nil => simp [equalEntries]
  | cons e es ih =>
    rw [equalEntries, Bool.and_eq_true, ih, List.forall_mem_cons]
    refine and_congr ?_ Iff.rfl
    cases ds.get? e.1.key <;> simp

end Value

section Tables

variable {fs gs : Record} {es ds : Mapping} {ms ns : Members}

/-- Records are equal if they have equal values under all names. -/
theorem Record.equal_iff (hf : fs.Valid) (hg : gs.Valid) :
    fs.equal gs ↔ ∀ name : String, Option.Rel (fun v w => v.equal w)
      ((fs.get? name).map Prod.snd) ((gs.get? name).map Prod.snd) := by
  simp only [rel_map_iff]
  rw [Record.equal, Bool.and_eq_true, beq_iff_eq, Value.equalFields_iff]
  exact hf.agree_iff hg

/-- Maps are equal if they have equal values under all keys. -/
theorem Mapping.equal_iff (he : es.Valid) (hd : ds.Valid) :
    es.equal ds ↔ ∀ k : Key, Option.Rel (fun v w => v.equal w)
      ((es.get? k).map Prod.snd) ((ds.get? k).map Prod.snd) := by
  simp only [rel_map_iff]
  rw [Mapping.equal, Bool.and_eq_true, beq_iff_eq, Value.equalEntries_iff]
  exact he.agree_iff hd

/-- Sets are equal if they have the same keys. -/
theorem Members.equal_iff (hm : ms.Valid) (hn : ns.Valid) :
    ms.equal ns ↔ ∀ k : Key, ms.contains k ↔ ns.contains k := by
  rw [Members.equal, Bool.and_eq_true, beq_iff_eq, Array.all_eq_true_iff_forall_mem]
  simp only [← Array.mem_toList_iff]
  exact hm.contains_iff hn

/-- Sets are equal if members with the same keys were put into them, in whatever order. -/
theorem Members.equal_ofList {xs ys : List Value}
    (h : ∀ k : Key, (∃ x ∈ xs, x.key = k) ↔ ∃ y ∈ ys, y.key = k) :
    Members.equal (Table.ofList xs) (Table.ofList ys) := by
  rw [Members.equal_iff (Table.valid_ofList xs) (Table.valid_ofList ys)]
  intro k
  rw [Members.view.contains_ofList, Members.view.contains_ofList]
  exact h k

end Tables

namespace Value

variable {a b c : Value}

theorem equal_array (r r' : Ref) (xs ys : Array Value) :
    (array r xs).equal (array r' ys) ↔
      ∀ i : Nat, Option.Rel (fun x y => x.equal y) xs[i]? ys[i]? := by
  obtain ⟨xs⟩ := xs
  obtain ⟨ys⟩ := ys
  simp only [equal, Bool.and_eq_true, beq_iff_eq, List.size_toArray, equalItems_iff,
    List.getElem?_toArray]

theorem size_eq_of_equal {r r' : Ref} {xs ys : Array Value} (h : (array r xs).equal (array r' ys)) :
    xs.size = ys.size := by
  obtain ⟨xs⟩ := xs
  simp only [equal, Bool.and_eq_true, beq_iff_eq] at h
  exact h.1

theorem equal_object (r r' : Ref) (fs gs : Record) :
    (object r fs).equal (object r' gs) = fs.equal gs := by
  obtain ⟨⟨fs⟩, index⟩ := fs
  rw [equal]
  rfl

theorem equal_map (r r' : Ref) (es ds : Mapping) :
    (map r es).equal (map r' ds) = es.equal ds := by
  obtain ⟨⟨es⟩, index⟩ := es
  rw [equal]
  rfl

theorem equal_set (r r' : Ref) (ms ns : Members) : (set r ms).equal (set r' ns) = ms.equal ns := by
  rw [equal]

theorem equal_inst (r r' : Ref) (c d : Class) (fs gs : Record) :
    (inst r c fs).equal (inst r' d gs) = (c.same d && fs.equal gs) := by
  obtain ⟨⟨fs⟩, index⟩ := fs
  rw [equal]
  rfl

/-- A primitive equals what it is the same value as. -/
theorem equal_of_ref? (ha : a.ref? = none) : a.equal b = a.sameValue b := by
  cases a <;> first | contradiction | simp [equal]

/-- All NaNs are equal, whatever their bits. -/
theorem equal_of_isNaN {x y : Double} (hx : x.isNaN) (hy : y.isNaN) :
    (number x).equal (number y) := by
  rw [equal_of_ref? rfl, sameValue, Double.same, hx, hy]
  rfl

theorem equal_primitive_iff (ha : a.ref? = none) : a.equal b ↔ a.outline = b.outline := by
  have haout : a.outline = .primitive a.key a.isNegativeZero := outline_of_ref? ha
  rw [equal_of_ref? ha, sameValue_iff, sameValueZero_iff]
  constructor
  · rintro ⟨⟨hkey, -⟩, hsign⟩
    have hb : b.ref? = none := by
      rw [Option.eq_none_iff_forall_ne_some]
      intro r hr
      rw [ref?_eq_some_iff, ← hkey, ← ref?_eq_some_iff, ha] at hr
      contradiction
    rw [haout, outline_of_ref? hb, hkey, hsign]
  · intro hout
    have hb : b.ref? = none := ref?_of_outline (hout.symm.trans haout)
    rw [haout, outline_of_ref? hb] at hout
    obtain ⟨hkey, hsign⟩ := Outline.primitive.inj hout
    exact ⟨⟨hkey, typeName_of_key_of_ref? ha hkey⟩, hsign⟩

/-- Two values are equal if they have one outline, and equal values at all places. -/
theorem equal_iff (ha : a.IsIndexed) (hb : b.IsIndexed) :
    a.equal b ↔
      a.outline = b.outline ∧ ∀ p, Option.Rel (fun v w => v.equal w) (a.at? p) (b.at? p) := by
  cases a with
  | array r xs =>
    cases b with
    | array r' ys =>
      rw [equal_array]
      refine ⟨fun h => ⟨rfl, fun p => ?_⟩, fun h i => h.2 (.index i)⟩
      cases p with
      | index i => exact h i
      | _ => exact .none
    | _ => simp [equal, sameValue, sameValueZero, outline]
  | object r fs =>
    cases b with
    | object r' gs =>
      rw [equal_object, Record.equal_iff ha hb]
      refine ⟨fun h => ⟨rfl, fun p => ?_⟩, fun h name => h.2 (.field name)⟩
      cases p with
      | field name => exact h name
      | _ => exact .none
    | _ => simp [equal, sameValue, sameValueZero, outline]
  | map r es =>
    cases b with
    | map r' ds =>
      rw [equal_map, Mapping.equal_iff ha hb]
      refine ⟨fun h => ⟨rfl, fun p => ?_⟩, fun h k => h.2 (.key k)⟩
      cases p with
      | key k => exact h k
      | _ => exact .none
    | _ => simp [equal, sameValue, sameValueZero, outline]
  | set r ms =>
    cases b with
    | set r' ns =>
      rw [equal_set, Members.equal_iff ha hb]
      refine ⟨fun h => ⟨?_, fun _ => .none⟩, fun h k => ?_⟩
      · exact congrArg Outline.set (funext fun k => Bool.eq_iff_iff.2 (h k))
      · rw [congrFun (Outline.set.inj h.1) k]
    | _ => simp [equal, sameValue, sameValueZero, outline]
  | inst r c fs =>
    cases b with
    | inst r' d gs =>
      rw [equal_inst, Bool.and_eq_true, Record.equal_iff ha hb]
      simp only [outline, Outline.inst.injEq, Class.same, beq_iff_eq]
      refine and_congr_right fun _ => ⟨fun h p => ?_, fun h name => h (.field name)⟩
      cases p with
      | field name => exact h name
      | _ => exact .none
    | _ => simp [equal, sameValue, sameValueZero, outline]
  | _ =>
    rw [equal_primitive_iff rfl]
    refine (and_iff_left_of_imp fun hout p => ?_).symm
    rw [at?_of_ref? rfl, at?_of_ref? (ref?_of_outline hout.symm)]
    exact .none

/-! ## Equivalence -/

theorem equal_refl (ha : a.WellFormed) : a.equal a := by
  induction ha with
  | intro ha _ ih =>
    refine (equal_iff ha ha).2 ⟨rfl, fun p => ?_⟩
    exact rel_refl fun v hv => ih v (mem_parts_of_at? ha hv)

theorem equal_symm (ha : a.WellFormed) (hb : b.WellFormed) (h : a.equal b) : b.equal a := by
  induction ha generalizing b with
  | intro ha _ ih =>
    obtain ⟨hout, hat⟩ := (equal_iff ha hb.isIndexed).1 h
    refine (equal_iff hb.isIndexed ha).2 ⟨hout.symm, fun p => ?_⟩
    refine rel_symm (hat p) fun v hv w hw hvw => ?_
    exact ih v (mem_parts_of_at? ha hv) (hb.part (mem_parts_of_at? hb.isIndexed hw)) hvw

theorem equal_trans (ha : a.WellFormed) (hb : b.WellFormed) (hc : c.WellFormed) (h : a.equal b)
    (h' : b.equal c) : a.equal c := by
  induction ha generalizing b c with
  | intro ha _ ih =>
    obtain ⟨hout, hat⟩ := (equal_iff ha hb.isIndexed).1 h
    obtain ⟨hout', hat'⟩ := (equal_iff hb.isIndexed hc.isIndexed).1 h'
    refine (equal_iff ha hc.isIndexed).2 ⟨hout.trans hout', fun p => ?_⟩
    refine rel_trans (hat p) (hat' p) fun v hv w hw u hu hvw hwu => ?_
    exact ih v (mem_parts_of_at? ha hv) (hb.part (mem_parts_of_at? hb.isIndexed hw))
      (hc.part (mem_parts_of_at? hc.isIndexed hu)) hvw hwu

/-- What deep equality is on the values of a program. -/
structure EqualByContents (live : List Value) : Prop where
  /-- It is an equivalence, on values with NaNs as well. -/
  equivalence : Equivalence fun a b : {v // v ∈ live} => a.1.equal b.1
  /-- It holds of values that are the same. -/
  of_sameValue : ∀ a ∈ live, ∀ b ∈ live, a.sameValue b → a.equal b
  /-- Under each name both records have no field, or both have fields with equal values. -/
  object {r r' : Ref} {fs gs : Record} (ha : object r fs ∈ live) (hb : object r' gs ∈ live) :
    (object r fs).equal (object r' gs) ↔ ∀ name : String, Option.Rel (fun v w => v.equal w)
      ((object r fs).property? name) ((object r' gs).property? name)
  /-- Under each key both maps have no entry, or both have entries with equal values. -/
  map {r r' : Ref} {es ds : Mapping} (ha : map r es ∈ live) (hb : map r' ds ∈ live) :
    (map r es).equal (map r' ds) ↔ ∀ k : Value, Option.Rel (fun v w => v.equal w)
      ((es.get? k.key).map Prod.snd) ((ds.get? k.key).map Prod.snd)
  /-- Both sets have the same members, which are not looked into. -/
  set {r r' : Ref} {ms ns : Members} (ha : set r ms ∈ live) (hb : set r' ns ∈ live) :
    (set r ms).equal (set r' ns) ↔ ∀ v : Value,
      (∃ m ∈ ms.toList, m.sameValueZero v) ↔ ∃ n ∈ ns.toList, n.sameValueZero v
  /-- Both instances are of one class and equal as records. -/
  inst {r r' : Ref} {c d : Class} {fs gs : Record} (ha : inst r c fs ∈ live)
      (hb : inst r' d gs ∈ live) :
    (inst r c fs).equal (inst r' d gs) ↔ c = d ∧ (Value.object r fs).equal (Value.object r' gs)

end Value

theorem Mapping.forall_key_iff {es ds : Mapping} (he : es.Valid) (hd : ds.Valid)
    {R : Value → Value → Prop} :
    (∀ k : Key, Option.Rel R ((es.get? k).map Prod.snd) ((ds.get? k).map Prod.snd)) ↔
      ∀ v : Value, Option.Rel R ((es.get? v.key).map Prod.snd) ((ds.get? v.key).map Prod.snd) := by
  refine ⟨fun h v => h v.key, fun h k => ?_⟩
  -- A key that is in one of the maps is the key of a value.
  cases hes : es.get? k with
  | some e =>
    obtain ⟨-, rfl⟩ := he.get?_eq_some_iff.1 hes
    exact hes ▸ h e.1
  | none =>
    cases hds : ds.get? k with
    | some d =>
      obtain ⟨-, rfl⟩ := hd.get?_eq_some_iff.1 hds
      exact hes ▸ hds ▸ h d.1
    | none => exact .none

namespace Store

variable {s : Store}

theorem Sound.equal_of_sameValue (hs : s.Sound) {a b : Value} (ha : a ∈ s.values)
    (hb : b ∈ s.values) (h : a.sameValue b) : a.equal b := by
  cases hr : a.ref? with
  | none => rwa [Value.equal_of_ref? hr]
  | some r =>
    have hkey : a.key = b.key := (Value.sameValueZero_iff.1 (Value.sameValue_iff.1 h).1).1
    have hbr : b.ref? = some r := by rwa [Value.ref?_eq_some_iff, ← hkey, ← Value.ref?_eq_some_iff]
    obtain rfl := hs.coherent a ha b hb r hr hbr
    exact Value.equal_refl (hs.wellFormed a ha)

/-- One set has the keys of another exactly if it has the same members and maybe more. -/
theorem Sound.contains_imp_iff (hs : s.Sound) {r r' : Ref} {ms ns : Members}
    (ha : Value.set r ms ∈ s.values) (hb : Value.set r' ns ∈ s.values) :
    (∀ k, ms.contains k → ns.contains k) ↔
      ∀ v : Value, (∃ m ∈ ms.toList, m.sameValueZero v) → ∃ n ∈ ns.toList, n.sameValueZero v := by
  have hms : ms.Valid := (hs.wellFormed _ ha).isIndexed
  have hns : ns.Valid := (hs.wellFormed _ hb).isIndexed
  simp only [hms.contains_eq_isSome_get?, hns.contains_eq_isSome_get?, Option.isSome_iff_exists,
    hms.get?_eq_some_iff, hns.get?_eq_some_iff]
  have hkey {m n : Value} (hm : m ∈ ms.toList) (hn : n ∈ ns.toList) :
      n.key = m.key ↔ n.sameValueZero m :=
    hs.coherent.key_eq_iff (hs.parts _ hb n hn) (hs.parts _ ha m hm)
  constructor
  · rintro h v ⟨m, hm, hmv⟩
    obtain ⟨n, hn, hnm⟩ := h m.key ⟨m, hm, rfl⟩
    exact ⟨n, hn, Value.sameValueZero_trans ((hkey hm hn).1 hnm) hmv⟩
  · rintro h k ⟨m, hm, rfl⟩
    obtain ⟨n, hn, hnm⟩ := h m ⟨m, hm, Value.sameValueZero_refl m⟩
    exact ⟨n, hn, (hkey hm hn).2 hnm⟩

theorem Sound.equal_set_iff (hs : s.Sound) {r r' : Ref} {ms ns : Members}
    (ha : Value.set r ms ∈ s.values) (hb : Value.set r' ns ∈ s.values) :
    (Value.set r ms).equal (Value.set r' ns) ↔ ∀ v : Value,
      (∃ m ∈ ms.toList, m.sameValueZero v) ↔ ∃ n ∈ ns.toList, n.sameValueZero v := by
  rw [Value.equal_set,
    Members.equal_iff (hs.wellFormed _ ha).isIndexed (hs.wellFormed _ hb).isIndexed]
  simp only [iff_def, forall_and, hs.contains_imp_iff ha hb,
    hs.contains_imp_iff hb ha]

/-- Instances of one class are compared as records. -/
theorem Sound.equal_inst_iff (hs : s.Sound) {r r' : Ref} {c d : Class} {fs gs : Record}
    (ha : Value.inst r c fs ∈ s.values) (hb : Value.inst r' d gs ∈ s.values) :
    (Value.inst r c fs).equal (Value.inst r' d gs) ↔
      c = d ∧ (Value.object r fs).equal (Value.object r' gs) := by
  rw [Value.equal_inst, Value.equal_object, Bool.and_eq_true]
  refine and_congr_left fun _ => ⟨?_, ?_⟩
  · exact hs.eq_of_same c (hs.declared r c fs ha) d (hs.declared r' d gs hb)
  · rintro rfl
    exact beq_self_eq_true c.ref

/-- **Deep equality is an equivalence that looks at contents alone.** On the values of a program it
is an equivalence relation that contains `sameValue`. Records, maps, sets and instances are equal
exactly if look-ups in them cannot tell them apart, in whatever order they were filled. -/
theorem Reachable.equalByContents (h : s.Reachable) : Value.EqualByContents s.values := by
  have hs := h.sound
  have hvalid (v : Value) (hv : v ∈ s.values) : v.IsIndexed := (hs.wellFormed v hv).isIndexed
  refine
    { equivalence := ⟨?_, ?_, ?_⟩
      of_sameValue := fun a ha b hb => hs.equal_of_sameValue ha hb
      object := ?_
      map := ?_
      set := hs.equal_set_iff
      inst := hs.equal_inst_iff }
  · rintro ⟨a, ha⟩
    exact Value.equal_refl (hs.wellFormed a ha)
  · rintro ⟨a, ha⟩ ⟨b, hb⟩
    exact Value.equal_symm (hs.wellFormed a ha) (hs.wellFormed b hb)
  · rintro ⟨a, ha⟩ ⟨b, hb⟩ ⟨c, hc⟩
    exact Value.equal_trans (hs.wellFormed a ha) (hs.wellFormed b hb) (hs.wellFormed c hc)
  · intro r r' fs gs ha hb
    rw [Value.equal_object]
    exact Record.equal_iff (hvalid _ ha) (hvalid _ hb)
  · intro r r' es ds ha hb
    rw [Value.equal_map, Mapping.equal_iff (hvalid _ ha) (hvalid _ hb),
      Mapping.forall_key_iff (hvalid _ ha) (hvalid _ hb)]

/-- Fields with a NaN. -/
def sampleFields : List (String × Value) := [("x", .number .nan), ("y", .null)]

/-- The fields in another order, with a NaN of other bits. -/
def shuffledFields : List (String × Value) := [("y", .null), ("x", .number ⟨0xfff0000000000001⟩)]

/-- What is there after records of both were made. -/
def sampleStore : Store :=
  ⟨[.object ⟨1⟩ (Table.ofList shuffledFields), .object ⟨0⟩ (Table.ofList sampleFields), .null,
    .number ⟨0xfff0000000000001⟩, .number .nan], [], 2⟩

theorem reachable_sampleStore : sampleStore.Reachable := by
  have hprimitives : Reachable ⟨[.null, .number ⟨0xfff0000000000001⟩, .number .nan], [], 0⟩ :=
    ((Reachable.start.withValue (.number _)).withValue (.number _)).withValue .null
  have hrecord : Reachable ⟨[.object ⟨0⟩ (Table.ofList sampleFields), .null,
      .number ⟨0xfff0000000000001⟩, .number .nan], [], 1⟩ :=
    hprimitives.withValue (.object (by simp [sampleFields]))
  exact hrecord.withValue (.object (by simp [shuffledFields]))

theorem equalByContents_sampleStore :
    sampleStore.Reachable ∧
      (Value.object ⟨0⟩ (Table.ofList sampleFields)).equal
        (Value.object ⟨1⟩ (Table.ofList shuffledFields)) := by
  have hequal := reachable_sampleStore.equalByContents
  refine ⟨reachable_sampleStore, ?_⟩
  rw [hequal.object (by simp [sampleStore]) (by simp [sampleStore])]
  intro name
  have hlook (r : Ref) (fields : List (String × Value)) :
      (Value.object r (Table.ofList fields)).property? name =
        (fields.reverse.find? (Keyed.key · == name)).map Prod.snd :=
    Record.view.get?_ofList fields name
  have hnan : (Value.number .nan).equal (.number ⟨0xfff0000000000001⟩) :=
    Value.equal_of_isNaN (by decide) (by decide)
  have hnull : Value.null.equal .null := by
    rw [Value.equal_of_ref? rfl]
    rfl
  rw [hlook, hlook]
  by_cases hx : name = "x"
  · subst hx
    exact .some hnan
  · by_cases hy : name = "y"
    · subst hy
      exact .some hnull
    · have hnone (fields : List (String × Value)) (h : ∀ f ∈ fields, f.1 = "x" ∨ f.1 = "y") :
          fields.reverse.find? (Keyed.key · == name) = none := by
        refine List.find?_eq_none.2 fun f hf heq => ?_
        have hname : f.1 = name := beq_iff_eq.1 heq
        rcases h f (List.mem_reverse.1 hf) with h | h
        · exact hx (hname.symm.trans h)
        · exact hy (hname.symm.trans h)
      rw [hnone _ (by simp [sampleFields]), hnone _ (by simp [shuffledFields])]
      exact .none

end Store

end ShapeMatch
