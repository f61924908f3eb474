import ShapeMatch.Pattern.Builder
import ShapeMatch.Proofs.Pattern.Verdict
import ShapeMatch.Proofs.Value.Counterparts

/-!
# Proofs: matching looks at contents

A pattern of literals of primitives, of named predicates and of predicates that do not tell equal values
apart does not tell equal values apart either (`Pattern.isMatch_eq_of_equal`). The induction over the
pattern compares two matches at once. On equal values the pattern has plans that mirror each other
(`Plan.MirroredBy`): they demand the same, and each test of the one is in the other, on a counterpart of
its value. This has to be seen in both directions at every level, since it is only from both of them that
a negation gets its verdict.
-/

namespace ShapeMatch

variable {s : Store} {a b : Value}

theorem Store.Alike.part? (hs : s.Sound) (h : s.Alike a b) {name : String} {mayMiss : Bool}
    {v : Value} (hv : a.part? name mayMiss = some v) :
    ∃ w, b.part? name mayMiss = some w ∧ s.Counterparts v w := by
  have ha : a.IsIndexed := (hs.wellFormed a h.left).isIndexed
  have hb : b.IsIndexed := (hs.wellFormed b h.right).isIndexed
  have hrel := h.rel_property? hs name
  rw [Value.part?, Value.hasProperty_eq_isSome ha, isSome_eq_of_rel hrel] at hv
  rw [Value.part?, Value.hasProperty_eq_isSome hb]
  split at hv
  · rename_i hthere
    obtain rfl := Option.some.inj hv
    rw [if_pos hthere]
    refine ⟨_, rfl, ?_⟩
    generalize a.property? name = v? at hrel
    generalize b.property? name = w? at hrel
    cases hrel with
    | none => exact .inl rfl
    | some hvw => exact hvw
  · contradiction

namespace Pattern

/-! ## Predicates -/

/-- The builders of the predicates with a name. -/
inductive Named : Fresh Pattern → Prop where
  | any : Named newAny
  | string : Named newString
  | number : Named newNumber
  | boolean : Named newBoolean
  | bigint : Named newBigint
  | symbol : Named newSymbol
  | nullish : Named newNullish
  | instanceOf (c : Class) : Named (newInstanceOf c)

/-- What the pattern itself asks is a matter of contents, whatever its parts ask. -/
def LooksAtContents (s : Store) : Pattern → Prop
  | literal l => l.ref? = none
  | guard r label holds => (∃ m next, Named m ∧ (m.run next).1 = guard r label holds) ∨
    ∀ a ∈ s.values, ∀ b ∈ s.values, a.equal b → holds a = holds b
  | custom .. => False
  | _ => True

theorem Named.holds_eq {m : Fresh Pattern} (hm : Named m) {next : Nat} {r : Ref} {label : String}
    {holds : Value → Bool} (hguard : (m.run next).1 = guard r label holds) (hs : s.Sound)
    (h : s.Alike a b) : holds a = holds b := by
  have htype : a.typeName = b.typeName := Value.typeName_of_outline (h.outline_eq hs)
  have of_type (test : String → Bool) (hholds : ∀ v : Value, holds v = test v.typeName) :
      holds a = holds b := by
    rw [hholds, hholds, htype]
  cases hm with
  | any =>
    obtain ⟨-, -, rfl⟩ := guard.inj hguard
    rfl
  | string =>
    obtain ⟨-, -, rfl⟩ := guard.inj hguard
    exact of_type (· == "string") fun v => by cases v <;> rfl
  | number =>
    obtain ⟨-, -, rfl⟩ := guard.inj hguard
    exact of_type (· == "number") fun v => by cases v <;> rfl
  | boolean =>
    obtain ⟨-, -, rfl⟩ := guard.inj hguard
    exact of_type (· == "boolean") fun v => by cases v <;> rfl
  | bigint =>
    obtain ⟨-, -, rfl⟩ := guard.inj hguard
    exact of_type (· == "bigint") fun v => by cases v <;> rfl
  | symbol =>
    obtain ⟨-, -, rfl⟩ := guard.inj hguard
    exact of_type (· == "symbol") fun v => by cases v <;> rfl
  | nullish =>
    obtain ⟨-, -, rfl⟩ := guard.inj hguard
    exact of_type (fun t => t == "undefined" || t == "null") fun v => by cases v <;> rfl
  | instanceOf c =>
    obtain ⟨-, -, rfl⟩ := guard.inj hguard
    exact h.isInstanceOf_eq hs c

end Pattern

/-! ## Plans that mirror each other -/

/-- The second plan demands what the first one does, and has each of its tests, on a counterpart. -/
structure Plan.MirroredBy (s : Store) (x y : Plan) : Prop where
  demand : x.demand = y.demand
  tests : ∀ t ∈ x.tests, ∃ t' ∈ y.tests, t'.1 = t.1 ∧ s.Counterparts t.2 t'.2

theorem Plan.MirroredBy.every {writes writes' : List (SelectionKey × Capture)}
    {ts ts' : List (Pattern × Value)}
    (h : ∀ t ∈ ts, ∃ t' ∈ ts', t'.1 = t.1 ∧ s.Counterparts t.2 t'.2) :
    (Plan.every writes ts).MirroredBy s (.every writes' ts') :=
  ⟨rfl, h⟩

namespace Pattern

/-- Where the pattern has a plan for the first value, it has one for the second that mirrors it. -/
def Mirrors (s : Store) (a b : Value) (p : Pattern) : Prop :=
  ∀ x, p.plan a = some x → ∃ y, p.plan b = some y ∧ x.MirroredBy s y

theorem mirrors_of_check {p : Pattern} {test test' : Bool} (ha : p.plan a = Plan.check test)
    (hb : p.plan b = Plan.check test') (h : test = test') : p.Mirrors s a b := by
  intro x hx
  rw [ha] at hx
  obtain ⟨htest, rfl⟩ := Plan.check_eq_some_iff.1 hx
  refine ⟨.every [] [], ?_, .every fun t ht => nomatch ht⟩
  rw [hb, ← h, htest]
  rfl

/-- A second run of partial computations succeeds where the first did, with related results. -/
theorem exists_map_eq_map_some {α β : Type} {f f' : α → Option β} {R : β → β → Prop} {l : List α}
    {xs : List β} (h : ∀ a ∈ l, ∀ x, f a = some x → ∃ y, f' a = some y ∧ R x y)
    (hxs : l.map f = xs.map some) :
    ∃ ys : List β, l.map f' = ys.map some ∧ ∀ x ∈ xs, ∃ y ∈ ys, R x y := by
  induction l generalizing xs with
  | nil =>
    obtain rfl := List.map_eq_nil_iff.1 hxs.symm
    exact ⟨[], rfl, fun x hx => nomatch hx⟩
  | cons a l ih =>
    cases xs with
    | nil => contradiction
    | cons x xs =>
      obtain ⟨hx, hxs⟩ := List.cons.inj hxs
      obtain ⟨y, hy, hxy⟩ := h a List.mem_cons_self x hx
      obtain ⟨ys, hys, hall⟩ := ih (fun a ha => h a (List.mem_cons_of_mem _ ha)) hxs
      refine ⟨y :: ys, by rw [List.map_cons, hy, hys, List.map_cons], ?_⟩
      refine List.forall_mem_cons.2 ⟨⟨y, List.mem_cons_self, hxy⟩, fun x hx => ?_⟩
      obtain ⟨y', hy', hxy'⟩ := hall x hx
      exact ⟨y', List.mem_cons_of_mem y hy', hxy'⟩

theorem mirrors_object (hs : s.Sound) (h : s.Alike a b) (fields : List (String × Pattern)) :
    (object fields).Mirrors s a b := by
  intro x hx
  have hobject : a.isObjectLike = b.isObjectLike :=
    Value.isObjectLike_of_outline (h.outline_eq hs)
  rw [plan] at hx
  split at hx
  · rename_i ha
    obtain ⟨ts, hts, rfl⟩ := Option.map_eq_some_iff.1 hx
    have hpart : ∀ f ∈ fields, ∀ t, (a.part? f.1 f.2.isOptional).map (f.2, ·) = some t →
        ∃ t', (b.part? f.1 f.2.isOptional).map (f.2, ·) = some t' ∧
          t'.1 = t.1 ∧ s.Counterparts t.2 t'.2 := by
      intro f _ t ht
      obtain ⟨v, hv, rfl⟩ := Option.map_eq_some_iff.1 ht
      obtain ⟨w, hw, hvw⟩ := h.part? hs hv
      exact ⟨(f.2, w), by rw [hw, Option.map_some], rfl, hvw⟩
    obtain ⟨ts', hts', htests⟩ := exists_map_eq_map_some hpart (mapM_eq_some_iff.1 hts)
    refine ⟨.every [] ts', ?_, .every htests⟩
    rw [plan, if_pos (hobject ▸ ha), mapM_eq_some_iff.2 hts', Option.map_some]
  · contradiction

theorem mirrors_tuple (hs : s.Sound) (h : s.Alike a b) (items : Array Pattern) :
    (tuple items).Mirrors s a b := by
  intro x hx
  obtain ⟨xs, hxs, hx⟩ := Option.bind_eq_some_iff.1 hx
  split at hx
  · rename_i hsize
    obtain rfl := Option.some.inj hx
    obtain ⟨ys, hys, hlength, hitems⟩ := h.items? hs hxs
    refine ⟨.every [] (items.toList.zip ys.toList), ?_, .every fun t ht => ?_⟩
    · rw [plan, hys, Option.bind_some, if_pos (hsize.trans hlength)]
    · obtain ⟨i, hi⟩ := List.mem_iff_getElem?.1 ht
      obtain ⟨hp, hv⟩ := List.getElem?_zip_eq_some.1 hi
      obtain ⟨w, hw, hvw⟩ := hitems i t.2 (by rwa [Array.getElem?_toList] at hv)
      refine ⟨(t.1, w), ?_, rfl, .inr hvw⟩
      refine List.mem_iff_getElem?.2 ⟨i, List.getElem?_zip_eq_some.2 ⟨hp, ?_⟩⟩
      rwa [Array.getElem?_toList]
  · contradiction

theorem mirrors_map (hs : s.Sound) (h : s.Alike a b) (entries : List (Value × Pattern)) :
    (map entries).Mirrors s a b := by
  intro x hx
  obtain ⟨es, hes, rfl⟩ := Option.map_eq_some_iff.1 hx
  obtain ⟨ds, hds, hentries⟩ := h.entries? hs hes
  refine ⟨_, by rw [plan, hds, Option.map_some], .every fun t ht => ?_⟩
  obtain ⟨e, he, rfl⟩ := List.mem_map.1 ht
  exact ⟨_, List.mem_map_of_mem he, rfl, hentries e.1.key⟩

theorem isIn_congr {ms ns : Members} (h : ∀ k, ms.contains k = ns.contains k) (p : Pattern) :
    p.isIn ms = p.isIn ns := by
  cases p with
  | literal l => exact h l.key
  | _ => rfl

theorem mirrors_set (hs : s.Sound) (h : s.Alike a b) (members : List Pattern) :
    (set members).Mirrors s a b := by
  have plan_none {v : Value} (hv : v.members? = none) : (set members).plan v = none := by
    rcases members with _ | ⟨p, _ | ⟨q, ps⟩⟩ <;> rw [plan, hv] <;> rfl
  cases ha : a.members? with
  | none =>
    intro x hx
    rw [plan_none ha] at hx
    contradiction
  | some ms =>
    obtain ⟨ns, hb, hempty, hcontains, hmembers⟩ := h.members? hs ha
    -- A set pattern asks for no members, tests all members, or asks for certain ones.
    rcases members with _ | ⟨p, _ | ⟨q, ps⟩⟩
    · exact mirrors_of_check (by rw [plan, ha, Option.bind_some])
        (by rw [plan, hb, Option.bind_some]) hempty
    · by_cases hp : p.isMatcher
      · intro x hx
        rw [plan, ha, Option.bind_some, if_pos hp] at hx
        obtain rfl := Option.some.inj hx
        refine ⟨_, by rw [plan, hb, Option.bind_some, if_pos hp], .every fun t ht => ?_⟩
        obtain ⟨m, hm, rfl⟩ := List.mem_map.1 ht
        obtain ⟨n, hn, hmn⟩ := hmembers m hm
        exact ⟨(p, n), List.mem_map_of_mem hn, rfl, .inr hmn⟩
      · exact mirrors_of_check (by rw [plan, ha, Option.bind_some, if_neg hp])
          (by rw [plan, hb, Option.bind_some, if_neg hp]) (isIn_congr hcontains p)
    · refine mirrors_of_check (by rw [plan, ha, Option.bind_some])
        (by rw [plan, hb, Option.bind_some]) ?_
      rw [show isIn ms = isIn ns from funext (isIn_congr hcontains)]

theorem mirrors_array (hs : s.Sound) (h : s.Alike a b) (r : Ref) (p : Pattern) :
    (array r p).Mirrors s a b := by
  intro x hx
  obtain ⟨⟨xs⟩, hxs, rfl⟩ := Option.map_eq_some_iff.1 hx
  obtain ⟨⟨ys⟩, hys, hlength, hitems⟩ := h.items? hs hxs
  have htest : ∀ t ∈ xs.map (p, ·), ∃ t' ∈ ys.map (p, ·), t'.1 = t.1 ∧ s.Counterparts t.2 t'.2 := by
    intro t ht
    obtain ⟨v, hv, rfl⟩ := List.mem_map.1 ht
    obtain ⟨i, hi⟩ := List.mem_iff_getElem?.1 hv
    obtain ⟨w, hw, hvw⟩ := hitems i v (by simpa using hi)
    have hmem : w ∈ ys := List.mem_iff_getElem?.2 ⟨i, by simpa using hw⟩
    exact ⟨(p, w), List.mem_map_of_mem hmem, rfl, .inr hvw⟩
  refine ⟨_, by rw [plan, hys, Option.map_some], ?_⟩
  cases xs with
  | nil =>
    cases ys with
    | nil => exact .every htest
    | cons => simp at hlength
  | cons v vs =>
    cases ys with
    | nil => simp at hlength
    | cons w ws => exact ⟨rfl, htest⟩

theorem mirrors_optional (hs : s.Sound) (h : s.Alike a b) (r : Ref) (p : Pattern) :
    (optional r p).Mirrors s a b := by
  intro x hx
  obtain rfl := Option.some.inj hx
  have hundefined : a.isUndefined = b.isUndefined := by
    rw [Value.isUndefined_eq, Value.isUndefined_eq, Bool.eq_iff_iff,
      Value.sameValue_primitive_iff rfl, Value.sameValue_primitive_iff rfl, h.outline_eq hs]
  refine ⟨_, rfl, ?_⟩
  rw [← hundefined]
  split
  · exact .every fun t ht => nomatch ht
  · refine .every fun t ht => ?_
    obtain rfl := List.mem_singleton.1 ht
    exact ⟨(p, b), List.mem_singleton_self _, rfl, .inr h⟩

/-- All parts are tested on the value itself. -/
theorem mirrors_of_subject {p : Pattern} {f : Value → Plan} (ps : List Pattern)
    (hplan : ∀ v, p.plan v = some (f v)) (hdemand : (f a).demand = (f b).demand)
    (htests : ∀ v, (f v).tests = ps.map (·, v)) (h : s.Alike a b) : p.Mirrors s a b := by
  intro x hx
  obtain rfl := Option.some.inj ((hplan a).symm.trans hx)
  refine ⟨f b, hplan b, hdemand, fun t ht => ?_⟩
  rw [htests a] at ht
  obtain ⟨q, hq, rfl⟩ := List.mem_map.1 ht
  exact ⟨(q, b), htests b ▸ List.mem_map_of_mem hq, rfl, .inr h⟩

/-- On alike values a pattern that looks at contents has plans that mirror each other. -/
theorem mirrors (hs : s.Sound) {p : Pattern} (hp : p.LooksAtContents s) (h : s.Alike a b) :
    p.Mirrors s a b := by
  cases p with
  | literal l =>
    refine mirrors_of_check rfl rfl ?_
    rw [Bool.eq_iff_iff, Value.sameValue_primitive_iff hp, Value.sameValue_primitive_iff hp,
      h.outline_eq hs]
  | guard r label holds =>
    refine mirrors_of_check rfl rfl ?_
    rcases hp with ⟨m, next, hm, hguard⟩ | hp
    · exact hm.holds_eq hguard hs h
    · exact hp a h.left b h.right h.equal
  | object fields => exact mirrors_object hs h fields
  | tuple items => exact mirrors_tuple hs h items
  | map entries => exact mirrors_map hs h entries
  | set members => exact mirrors_set hs h members
  | optional r p => exact mirrors_optional hs h r p
  | array r p => exact mirrors_array hs h r p
  | intersection r ps | union r ps => exact mirrors_of_subject ps (fun _ => rfl) rfl (fun _ => rfl) h
  | select r k => exact mirrors_of_subject [] (fun _ => rfl) rfl (fun _ => rfl) h
  | not r p | selectWith r _ p => exact mirrors_of_subject [p] (fun _ => rfl) rfl (fun _ => rfl) h
  | custom => exact hp.elim

/-! ## Equal values match alike -/

theorem isMatch_eq_of_alike (hs : s.Sound) {p : Pattern} (hp : p.Everywhere (LooksAtContents s))
    (h : s.Alike a b) : p.isMatch a = p.isMatch b := by
  induction p using inductionOnParts generalizing a b with
  | step p ih =>
    have verdict {q : Pattern} (hq : q ∈ p.parts) {v w : Value} (hvw : s.Counterparts v w) :
        q.isMatch v = q.isMatch w := by
      rcases hvw with rfl | hvw
      · rfl
      · exact ih q hq (hp.part hq) hvw
    have forward {a b : Value} (h : s.Alike a b) (hmatch : p.isMatch a) : p.isMatch b := by
      obtain ⟨x, hx, hmet⟩ := isMatch_iff.1 hmatch
      obtain ⟨y, hy, hxy⟩ := mirrors hs hp.here h x hx
      -- What mirrors the plan for `b` is the plan for `a` again, so the tests match up both ways.
      obtain ⟨x', hx', hyx⟩ := mirrors hs hp.here (h.symm hs) y hy
      obtain rfl := Option.some.inj (hx.symm.trans hx')
      refine isMatch_iff.2 ⟨y, hy, hxy.demand ▸ hmet.congr ?_ ?_⟩
      · intro t ht
        obtain ⟨t', ht', hpattern, hvalue⟩ := hxy.tests t ht
        refine ⟨t', ht', ?_⟩
        rw [hpattern]
        exact verdict (mem_parts_of_mem_tests hx ht) hvalue
      · intro t' ht'
        obtain ⟨t, ht, hpattern, hvalue⟩ := hyx.tests t' ht'
        refine ⟨t, ht, ?_⟩
        rw [hpattern]
        exact (verdict (mem_parts_of_mem_tests hy ht') hvalue).symm
    exact Bool.eq_iff_iff.2 ⟨forward h, forward (h.symm hs)⟩

/-- **Matching looks at contents.** On deeply equal values without a zero in a set, a pattern without
matchers of the caller has one verdict, if its literals are primitives and its predicates have one answer
on equal values. Orders of insertion and identities inside the values do not matter. -/
theorem isMatch_eq_of_equal (hs : s.Reachable) {p : Pattern}
    (hp : p.Everywhere (LooksAtContents s)) (ha : a ∈ s.values) (hb : b ∈ s.values)
    (hza : a.Throughout Value.HasNoZero) (hzb : b.Throughout Value.HasNoZero) (h : a.equal b) :
    p.isMatch a = p.isMatch b :=
  isMatch_eq_of_alike hs.sound hp
    { left := ha
      right := hb
      noZero_left := hza
      noZero_right := hzb
      equal := h }

/-- A set with a NaN. -/
def nanSet : Value := .set ⟨0⟩ (Table.ofList [.number .nan, .null])

/-- The set in another order, with a NaN of other bits. -/
def shuffledSet : Value := .set ⟨1⟩ (Table.ofList [.null, .number ⟨0xfff0000000000001⟩])

/-- What is there after arrays of both were made. -/
def shuffledStore : Store :=
  ⟨[.array ⟨3⟩ #[shuffledSet], .array ⟨2⟩ #[nanSet], shuffledSet, nanSet, .null,
    .number ⟨0xfff0000000000001⟩, .number .nan], [], 4⟩

theorem reachable_shuffledStore : shuffledStore.Reachable := by
  have hprimitives : Store.Reachable ⟨[.null, .number ⟨0xfff0000000000001⟩, .number .nan], [], 0⟩ :=
    ((Store.Reachable.start.withValue (.number _)).withValue (.number _)).withValue .null
  have hset : Store.Reachable ⟨[nanSet, .null, .number ⟨0xfff0000000000001⟩, .number .nan], [], 1⟩ :=
    hprimitives.withValue (m := Value.newSet [.number .nan, .null]) (.set (by simp))
  have hsets : Store.Reachable ⟨[shuffledSet, nanSet, .null, .number ⟨0xfff0000000000001⟩,
      .number .nan], [], 2⟩ :=
    hset.withValue (m := Value.newSet [.null, .number ⟨0xfff0000000000001⟩]) (.set (by simp))
  have harray : Store.Reachable ⟨[.array ⟨2⟩ #[nanSet], shuffledSet, nanSet, .null,
      .number ⟨0xfff0000000000001⟩, .number .nan], [], 3⟩ :=
    hsets.withValue (m := Value.newArray [nanSet]) (.array (by simp))
  exact harray.withValue (m := Value.newArray [shuffledSet]) (.array (by simp))

theorem equal_shuffledSet : nanSet.equal shuffledSet := by
  rw [nanSet, shuffledSet, Value.equal_set]
  refine Members.equal_ofList fun k => ?_
  have hnan : (Value.number ⟨0xfff0000000000001⟩).key = (Value.number .nan).key := by decide
  simp [hnan, or_comm]

/-- Arrays of sets without a text. -/
def textless : Pattern := array ⟨6⟩ (set [not ⟨5⟩ (newString.run 4).1])

theorem isMatch_eq_of_equal_shuffledStore :
    shuffledStore.Reachable ∧ textless.Everywhere (LooksAtContents shuffledStore) ∧
      (Value.array ⟨2⟩ #[nanSet]).equal (.array ⟨3⟩ #[shuffledSet]) ∧
      textless.isMatch (.array ⟨2⟩ #[nanSet]) = textless.isMatch (.array ⟨3⟩ #[shuffledSet]) := by
  have htext : (newString.run 4).1.Everywhere (LooksAtContents shuffledStore) :=
    .of_parts (.inl ⟨newString, 4, .string, rfl⟩) fun q hq => nomatch hq
  have hset : (set [not ⟨5⟩ (newString.run 4).1]).Everywhere (LooksAtContents shuffledStore) :=
    .of_parts trivial (List.forall_mem_singleton.2
      (.of_parts trivial (List.forall_mem_singleton.2 htext)))
  have hp : textless.Everywhere (LooksAtContents shuffledStore) :=
    .of_parts trivial (List.forall_mem_singleton.2 hset)
  have hmembers {v w : Value} (hv : v.ref? = none) (hw : w.ref? = none) :
      ∀ m ∈ [v, w], m.Throughout Value.HasNoZero :=
    List.forall_mem_cons.2 ⟨.of_ref? hv, List.forall_mem_singleton.2 (.of_ref? hw)⟩
  have hnanSet : nanSet.Throughout Value.HasNoZero :=
    .set_ofList (by simp; decide) (hmembers rfl rfl)
  have hshuffledSet : shuffledSet.Throughout Value.HasNoZero :=
    .set_ofList (by simp; decide) (hmembers rfl rfl)
  have hequal : (Value.array ⟨2⟩ #[nanSet]).equal (.array ⟨3⟩ #[shuffledSet]) := by
    simp [Value.equal, Value.equalItems, equal_shuffledSet]
  refine ⟨reachable_shuffledStore, hp, hequal, ?_⟩
  exact isMatch_eq_of_equal reachable_shuffledStore hp (by simp [shuffledStore])
    (by simp [shuffledStore]) (.intro trivial (List.forall_mem_singleton.2 hnanSet))
    (.intro trivial (List.forall_mem_singleton.2 hshuffledSet)) hequal

/-! ## Zeros in sets -/

/-- The condition on sets is needed. A set of a zero and one of a negative zero are equal, and matching
each member tells them apart. -/
theorem isMatch_ne_of_zeros :
    (Value.set ⟨0⟩ (Table.ofList [.number .zero])).equal
        (.set ⟨1⟩ (Table.ofList [.number ⟨0x8000000000000000⟩])) ∧
      ¬ (set [not ⟨2⟩ (literal (.number .zero))]).isMatch
        (.set ⟨0⟩ (Table.ofList [.number .zero])) ∧
      (set [not ⟨2⟩ (literal (.number .zero))]).isMatch
        (.set ⟨1⟩ (Table.ofList [.number ⟨0x8000000000000000⟩])) := by
  have hmem {v m : Value} (hm : m ∈ (Table.ofList [v] : Members).toList) : m = v :=
    Table.forall_mem_ofList (P := (· = v)) (fun _ _ hold _ => hold) (by simp) m hm
  refine ⟨?_, fun hmatch => ?_, (isMatch_set_of_matcher rfl).2 ⟨_, rfl, fun m hm => ?_⟩⟩
  · have hkey : (Value.number ⟨0x8000000000000000⟩).key = (Value.number .zero).key := by decide
    rw [Value.equal_set]
    exact Members.equal_ofList fun k => by simp [hkey]
  · have hvalid : (Table.ofList [.number .zero] : Members).Valid := Table.valid_ofList _
    have hthere : (Table.ofList [.number .zero] : Members).contains (Value.number .zero).key :=
      (Members.view.contains_ofList _ _).2 ⟨_, List.mem_singleton_self _, rfl⟩
    rw [hvalid.contains_eq_isSome_get?] at hthere
    obtain ⟨m, hm⟩ := Option.isSome_iff_exists.1 hthere
    have hin : m ∈ (Table.ofList [.number .zero] : Members).toList := (hvalid.get?_eq_some_iff.1 hm).1
    obtain ⟨vs, hvs, hall⟩ := (isMatch_set_of_matcher rfl).1 hmatch
    obtain rfl := Option.some.inj hvs
    have hzero := hall m hin
    rw [hmem hin] at hzero
    revert hzero
    decide
  · rw [hmem hm]
    decide

end Pattern

end ShapeMatch
