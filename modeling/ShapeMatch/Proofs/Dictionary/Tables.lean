import ShapeMatch.Dictionary.Assoc
import ShapeMatch.Dictionary.Table
import Mathlib.Data.List.Find

/-!
# Proofs: tables are ordered association lists

A table is used through labels, by which a caller names its entries, and the contents that stand under
them (`Table.View`). Seen in this way, inserting an entry into a table is writing to an ordered
association list (`View.pairs_insert`), and so is a whole run of insertions (`View.pairs_ofList`). The
index is a matter of speed alone. `Table.Dictionary` collects what follows from this for the table
that a run of insertions leaves.
-/

namespace ShapeMatch

namespace Table

variable {ι ε : Type} [BEq ι] [Hashable ι] [Keyed ε ι] {t : Table ι ε} {e d : ε} {k : ι}

/-! ## Look-ups -/

omit [Keyed ε ι] in
theorem mem_toList_iff : e ∈ t.toList ↔ ∃ i : Nat, t.entries[i]? = some e := by
  rw [toList, Array.mem_toList_iff, Array.mem_iff_getElem?]

theorem Valid.index_key (h : t.Valid) {i : Nat} (he : t.entries[i]? = some e) :
    t.index[Keyed.key e]? = some i :=
  (h (Keyed.key e) i).2 ⟨e, he, rfl⟩

/-- A look-up finds the one entry that has the key. -/
theorem Valid.get?_eq_some_iff (h : t.Valid) :
    t.get? k = some e ↔ e ∈ t.toList ∧ Keyed.key e = k := by
  constructor
  · intro he
    obtain ⟨i, hi, hie⟩ := Option.bind_eq_some_iff.1 he
    obtain ⟨d, hd, hk⟩ := (h k i).1 hi
    obtain rfl : d = e := Option.some.inj (hd.symm.trans hie)
    exact ⟨mem_toList_iff.2 ⟨i, hd⟩, hk⟩
  · rintro ⟨he, rfl⟩
    obtain ⟨i, hi⟩ := mem_toList_iff.1 he
    rw [get?, h.index_key hi, Option.bind_some, hi]

/-- No two positions have entries with one key. -/
theorem Valid.eq_of_key_eq (h : t.Valid) {i j : Nat} (hi : t.entries[i]? = some d)
    (hj : t.entries[j]? = some e) (hk : Keyed.key d = Keyed.key e) : i = j := by
  have hdi := h.index_key hi
  have hej := h.index_key hj
  rw [hk] at hdi
  exact Option.some.inj (hdi.symm.trans hej)

theorem Valid.nodup_keys (h : t.Valid) : (t.toList.map Keyed.key).Nodup := by
  rw [List.Nodup, List.pairwise_map, List.pairwise_iff_getElem]
  intro i j hi hj hlt hk
  have hi' : t.entries[i]? = some t.toList[i] := by
    rw [← Array.getElem?_toList]
    exact List.getElem?_eq_getElem hi
  have hj' : t.entries[j]? = some t.toList[j] := by
    rw [← Array.getElem?_toList]
    exact List.getElem?_eq_getElem hj
  have hij := h.eq_of_key_eq hi' hj' hk
  omega

/-! ## One insertion -/

/-- An insertion returns the entry that a look-up found before. -/
theorem exchange_fst (t : Table ι ε) (e : ε) : (t.exchange e).1 = t.get? (Keyed.key e) := by
  rw [exchange, get?]
  cases t.index[Keyed.key e]? <;> rfl

/-- A key that is there already has its entry overwritten in its place. -/
theorem Valid.entries_insert_of_mem (h : t.Valid) {i : Nat} (hd : t.entries[i]? = some d)
    (hk : Keyed.key d = Keyed.key e) :
    (t.insert e).entries = t.entries.modify i (Keyed.overwrite · e) := by
  have hi := h.index_key hd
  rw [hk] at hi
  rw [Table.insert, exchange, hi]

/-- A new key goes to the end. -/
theorem Valid.entries_insert_of_new (h : t.Valid)
    (hk : ∀ d ∈ t.toList, Keyed.key d ≠ Keyed.key e) :
    (t.insert e).entries = t.entries.push e := by
  cases hi : t.index[Keyed.key e]? with
  | none => rw [Table.insert, exchange, hi]
  | some i =>
    obtain ⟨d, hd, hkd⟩ := (h _ i).1 hi
    exact absurd hkd (hk d (mem_toList_iff.2 ⟨i, hd⟩))

/-- The key of an entry has a position already, or is new. -/
theorem position_or_new (t : Table ι ε) (e : ε) :
    (∃ (i : Nat) (d : ε), t.entries[i]? = some d ∧ Keyed.key d = Keyed.key e) ∨
      ∀ d ∈ t.toList, Keyed.key d ≠ Keyed.key e := by
  by_cases hk : ∃ d ∈ t.toList, Keyed.key d = Keyed.key e
  · obtain ⟨d, hd, hkd⟩ := hk
    obtain ⟨i, hi⟩ := mem_toList_iff.1 hd
    exact .inl ⟨i, d, hi, hkd⟩
  · exact .inr fun d hd hkd => hk ⟨d, hd, hkd⟩

/-- An insertion changes no entry under another key. -/
theorem Valid.getElem?_insert_of_ne (h : t.Valid) {i : Nat} (hd : t.entries[i]? = some d)
    (hne : Keyed.key d ≠ Keyed.key e) : (t.insert e).entries[i]? = some d := by
  rcases t.position_or_new e with ⟨j, c, hc, hk⟩ | hnew
  · have hij : j ≠ i := by
      rintro rfl
      rw [hc] at hd
      exact hne (Option.some.inj hd ▸ hk)
    rw [h.entries_insert_of_mem hc hk, Array.getElem?_modify, if_neg hij, hd]
  · have hi : i < t.entries.size := (Array.getElem?_eq_some_iff.1 hd).1
    rw [h.entries_insert_of_new hnew, Array.getElem?_push, if_neg (by omega), hd]

/-- What holds of the entries and of a new one holds after the insertion, if overwriting keeps it. -/
theorem forall_mem_insert {P : ε → Prop} (hP : ∀ d e, P d → P e → P (Keyed.overwrite d e))
    (ht : ∀ d ∈ t.toList, P d) (he : P e) : ∀ d ∈ (t.insert e).toList, P d := by
  intro d hd
  obtain ⟨j, hj⟩ := mem_toList_iff.1 hd
  have old {c : ε} (hc : t.entries[j]? = some c) : P c :=
    ht c (mem_toList_iff.2 ⟨j, hc⟩)
  rw [Table.insert, exchange] at hj
  split at hj
  · rw [Array.getElem?_modify] at hj
    split at hj
    · obtain ⟨c, hc, rfl⟩ := Option.map_eq_some_iff.1 hj
      exact hP c e (old hc) he
    · exact old hj
  · rw [Array.getElem?_push] at hj
    split at hj
    · obtain rfl := Option.some.inj hj
      exact he
    · exact old hj

theorem forall_mem_ofList {P : ε → Prop} (hP : ∀ d e, P d → P e → P (Keyed.overwrite d e))
    {es : List ε} (hes : ∀ e ∈ es, P e) : ∀ d ∈ (ofList es : Table ι ε).toList, P d := by
  suffices ∀ t : Table ι ε, (∀ d ∈ t.toList, P d) → ∀ d ∈ (es.foldl Table.insert t).toList, P d from
    this _ (by intro d hd; contradiction)
  induction es with
  | nil => exact fun _ h => h
  | cons e es ih =>
    intro t ht
    have he : P e := hes e List.mem_cons_self
    refine ih (fun d hd => hes d (List.mem_cons_of_mem e hd)) _ ?_
    exact forall_mem_insert hP ht he

section Insert

variable [LawfulBEq ι] [LawfulHashable ι]

theorem Valid.get?_insert_of_ne (h : t.Valid) (hne : Keyed.key e ≠ k) :
    (t.insert e).get? k = t.get? k := by
  apply Option.ext
  intro d
  rw [(h.insert e).get?_eq_some_iff, h.get?_eq_some_iff]
  constructor
  · rintro ⟨hd, rfl⟩
    refine ⟨?_, rfl⟩
    obtain ⟨j, hj⟩ := mem_toList_iff.1 hd
    rcases t.position_or_new e with ⟨i, c, hc, hk⟩ | hnew
    · rw [h.entries_insert_of_mem hc hk, Array.getElem?_modify] at hj
      split at hj
      · rename_i hij
        rw [← hij, hc] at hj
        obtain rfl := Option.some.inj hj
        exact absurd (hk.symm.trans (Keyed.key_overwrite c e).symm) hne
      · exact mem_toList_iff.2 ⟨j, hj⟩
    · rw [h.entries_insert_of_new hnew, Array.getElem?_push] at hj
      split at hj
      · exact absurd (congrArg Keyed.key (Option.some.inj hj)) hne
      · exact mem_toList_iff.2 ⟨j, hj⟩
  · rintro ⟨hd, rfl⟩
    obtain ⟨j, hj⟩ := mem_toList_iff.1 hd
    exact ⟨mem_toList_iff.2 ⟨j, h.getElem?_insert_of_ne hj hne.symm⟩, rfl⟩

theorem Valid.get?_insert_self (h : t.Valid) (e : ε) :
    (t.insert e).get? (Keyed.key e) =
      some (((t.get? (Keyed.key e)).map (Keyed.overwrite · e)).getD e) := by
  rw [(h.insert e).get?_eq_some_iff]
  rcases t.position_or_new e with ⟨i, c, hc, hk⟩ | hnew
  · have hget : t.get? (Keyed.key e) = some c :=
      h.get?_eq_some_iff.2 ⟨mem_toList_iff.2 ⟨i, hc⟩, hk⟩
    have hi : (t.insert e).entries[i]? = some (Keyed.overwrite c e) := by
      rw [h.entries_insert_of_mem hc hk, Array.getElem?_modify, if_pos rfl, hc]
      rfl
    rw [hget]
    refine ⟨mem_toList_iff.2 ⟨i, hi⟩, ?_⟩
    exact (Keyed.key_overwrite c e).trans hk
  · have hget : t.get? (Keyed.key e) = none := by
      rw [Option.eq_none_iff_forall_ne_some]
      intro d hd
      exact hnew d (h.get?_eq_some_iff.1 hd).1 (h.get?_eq_some_iff.1 hd).2
    rw [hget, toList, h.entries_insert_of_new hnew]
    simp

end Insert

/-! ## Labels and contents -/

/-- How a caller sees the entries of a table: the label of an entry names it, and the content stands
under the label. -/
structure View (ε : Type) {ι : Type} [Keyed ε ι] (κ α : Type) where
  label : ε → κ
  content : ε → α
  /-- Whether two labels name the same entry. -/
  same : κ → κ → Bool
  /-- The key by which the table finds the entry with a label. -/
  key : κ → ι
  key_label (e : ε) : key (label e) = Keyed.key e
  /-- The label that came first stays. -/
  label_overwrite (d e : ε) : label (Keyed.overwrite d e) = label d
  /-- The content that came last stays. -/
  content_overwrite (d e : ε) : content (Keyed.overwrite d e) = content e
  same_comm (j k : κ) : same j k = same k j

namespace View

variable {κ α : Type} (v : View ε κ α) {live : κ → Prop}

/-- The keys tell the labels apart. -/
def Faithful (live : κ → Prop) : Prop :=
  ∀ j k, live j → live k → (v.same j k ↔ v.key j = v.key k)

/-- The entry as the caller sees it. -/
def pair (e : ε) : κ × α := (v.label e, v.content e)

/-- The entries of a table as the caller sees them. -/
def pairs (t : Table ι ε) : List (κ × α) := t.toList.map v.pair

theorem map_fst_pairs (t : Table ι ε) : (v.pairs t).map Prod.fst = t.toList.map v.label := by
  rw [pairs, List.map_map]
  rfl

end View

end Table

/-! ## Association lists -/

namespace Assoc

variable {κ α : Type} {same : κ → κ → Bool} {k : κ} {a : α} {entries : List (κ × α)}

theorem put_of_new (h : ∀ e ∈ entries, same e.1 k = false) :
    put same k a entries = entries ++ [(k, a)] := by
  induction entries with
  | nil => rfl
  | cons e rest ih =>
    have he : same e.1 k = false := h e List.mem_cons_self
    rw [put, he, if_neg (by simp), ih fun d hd => h d (List.mem_cons_of_mem e hd)]
    rfl

/-- Where one key is the same, its entry takes the new content. -/
theorem put_of_position {i : Nat} (hi : i < entries.length)
    (h : ∀ j (hj : j < entries.length), same entries[j].1 k ↔ j = i) :
    put same k a entries = entries.modify i fun e => (e.1, a) := by
  induction entries generalizing i with
  | nil => exact absurd hi (Nat.not_lt_zero i)
  | cons e rest ih =>
    have hhead : same e.1 k ↔ 0 = i := h 0 (Nat.zero_lt_succ _)
    cases i with
    | zero => rw [put, if_pos (hhead.2 rfl), List.modify_zero_cons]
    | succ i =>
      have hne : ¬ same e.1 k := fun he => Nat.succ_ne_zero i (hhead.1 he).symm
      rw [put, if_neg hne, List.modify_succ_cons, ih (Nat.lt_of_succ_lt_succ hi)]
      intro j hj
      have htail := h (j + 1) (Nat.succ_lt_succ hj)
      rw [Nat.succ_inj] at htail
      exact htail

/-- The keys after a run of writes: a key is added unless one that is the same was there. -/
theorem map_fst_putAll_eq_loop (hsame : ∀ j k, same j k = same k j) (new : List (κ × α)) :
    (putAll same entries new).map Prod.fst =
      List.eraseDupsBy.loop same (new.map Prod.fst) (entries.map Prod.fst).reverse := by
  induction new generalizing entries with
  | nil =>
    rw [List.map_nil, List.eraseDupsBy.loop, List.reverse_reverse]
    rfl
  | cons e new ih =>
    have hany : (entries.map Prod.fst).reverse.any (same e.1) =
        entries.any fun d => same d.1 e.1 := by
      rw [List.any_reverse, List.any_map]
      congr 1
      funext d
      exact hsame e.1 d.1
    rw [putAll, List.foldl_cons, ← putAll, ih, map_fst_put, List.map_cons, List.eraseDupsBy.loop,
      hany]
    cases entries.any fun d => same d.1 e.1 with
    | true => rfl
    | false =>
      simp only [Bool.false_eq_true, if_false, List.reverse_append, List.reverse_singleton,
        List.singleton_append]

/-- The keys of a run of writes, in the order in which they first came. -/
theorem map_fst_collect (hsame : ∀ j k, same j k = same k j) (new : List (κ × α)) :
    (collect same new).map Prod.fst = (new.map Prod.fst).eraseDupsBy same :=
  map_fst_putAll_eq_loop hsame new

end Assoc

/-! ## Runs of insertions -/

namespace Table

variable {ι ε κ α : Type} [BEq ι] [Hashable ι] [Keyed ε ι] {t : Table ι ε} {e d : ε}
  {v : View ε κ α} {live : κ → Prop}

/-- Inserting an entry is writing its content under its label. -/
theorem View.pairs_insert (hv : v.Faithful live) (h : t.Valid)
    (ht : ∀ d ∈ t.toList, live (v.label d)) (he : live (v.label e)) :
    v.pairs (t.insert e) = Assoc.put v.same (v.label e) (v.content e) (v.pairs t) := by
  have hsame {d : ε} (hd : d ∈ t.toList) :
      v.same (v.label d) (v.label e) ↔ Keyed.key d = Keyed.key e := by
    rw [hv _ _ (ht d hd) he, v.key_label, v.key_label]
  rcases t.position_or_new e with ⟨i, c, hc, hk⟩ | hnew
  · have hi : i < (v.pairs t).length := by
      have := (Array.getElem?_eq_some_iff.1 hc).1
      simpa [pairs, toList] using this
    rw [Assoc.put_of_position hi, pairs, toList, h.entries_insert_of_mem hc hk,
      Array.toList_modify]
    · apply List.ext_getElem?
      intro j
      simp only [List.getElem?_map, List.getElem?_modify, pairs, toList]
      cases t.entries.toList[j]? with
      | none => rfl
      | some d =>
        by_cases hij : i = j
        · simp [hij, pair, v.label_overwrite, v.content_overwrite]
        · simp [hij]
    · intro j hj
      have hj' : j < t.toList.length := by simpa [pairs] using hj
      have hget : t.entries[j]? = some t.toList[j] := by
        rw [← Array.getElem?_toList]
        exact List.getElem?_eq_getElem hj'
      have hlabel : (v.pairs t)[j].1 = v.label t.toList[j] := by simp [pairs, pair]
      rw [hlabel, hsame (List.getElem_mem hj')]
      constructor
      · intro hkj
        exact h.eq_of_key_eq hget hc (hkj.trans hk.symm)
      · rintro rfl
        rw [hc] at hget
        exact Option.some.inj hget ▸ hk
  · rw [Assoc.put_of_new, pairs, toList, h.entries_insert_of_new hnew, Array.toList_push,
      List.map_append]
    · rfl
    · intro p hp
      obtain ⟨d, hd, rfl⟩ := List.mem_map.1 hp
      exact eq_false_of_ne_true fun hs => hnew d hd ((hsame hd).1 hs)

variable [LawfulBEq ι] [LawfulHashable ι]

/-- A run of insertions is a run of writes. -/
theorem View.pairs_ofList (hv : v.Faithful live) {es : List ε} (hes : ∀ e ∈ es, live (v.label e)) :
    v.pairs (ofList es) = Assoc.collect v.same (es.map v.pair) := by
  suffices ∀ t : Table ι ε, t.Valid → (∀ d ∈ t.toList, live (v.label d)) →
      v.pairs (es.foldl Table.insert t) = Assoc.putAll v.same (v.pairs t) (es.map v.pair) from
    this _ valid_empty (by intro d hd; contradiction)
  induction es with
  | nil => exact fun _ _ _ => rfl
  | cons e es ih =>
    intro t h ht
    have he : live (v.label e) := hes e List.mem_cons_self
    have hlive : ∀ d ∈ (t.insert e).toList, live (v.label d) :=
      forall_mem_insert (fun d e hd _ => (v.label_overwrite d e).symm ▸ hd) ht he
    rw [List.foldl_cons, ih (fun d hd => hes d (List.mem_cons_of_mem e hd)) _ (h.insert e) hlive,
      View.pairs_insert hv h ht he]
    rfl

/-- A look-up after a run of insertions finds the content that came last. -/
theorem View.get?_ofList (v : View ε κ α) (es : List ε) (k : ι) :
    ((ofList es : Table ι ε).get? k).map v.content =
      (es.reverse.find? (Keyed.key · == k)).map v.content := by
  suffices ∀ t : Table ι ε, t.Valid → ((es.foldl Table.insert t).get? k).map v.content =
      ((es.reverse.find? (Keyed.key · == k)).or (t.get? k)).map v.content by
    have hempty : (empty : Table ι ε).get? k = none := by simp [get?, empty]
    rw [ofList, this _ valid_empty, hempty, Option.or_none]
  induction es with
  | nil => exact fun _ _ => rfl
  | cons e es ih =>
    intro t h
    rw [List.foldl_cons, ih _ (h.insert e), List.reverse_cons, List.find?_append]
    cases es.reverse.find? (Keyed.key · == k) with
    | some d => rfl
    | none =>
      by_cases hk : Keyed.key e = k
      · subst hk
        rw [h.get?_insert_self]
        cases t.get? (Keyed.key e) <;> simp [v.content_overwrite]
      · rw [h.get?_insert_of_ne hk]
        simp [hk]

/-- A table has the keys of all that was inserted. -/
theorem View.contains_ofList (v : View ε κ α) (es : List ε) (k : ι) :
    (ofList es : Table ι ε).contains k ↔ ∃ e ∈ es, Keyed.key e = k := by
  rw [(valid_ofList es).contains_eq_isSome_get?, ← Option.isSome_map (f := v.content),
    v.get?_ofList, Option.isSome_map, List.find?_isSome]
  simp only [List.mem_reverse, beq_iff_eq]

/-- What the table of the entries `es`, inserted one after the other, is to a caller who sees it
through the view `v` and asks for labels that are `live`. -/
structure Dictionary (v : View ε κ α) (live : κ → Prop) (es : List ε) (t : Table ι ε) : Prop where
  /-- The index maps the key of each entry to its position, and nothing else to anything. -/
  index (k : ι) (i : Nat) : t.index[k]? = some i ↔ ∃ e, t.entries[i]? = some e ∧ Keyed.key e = k
  /-- The table is an ordered association list. -/
  pairs : v.pairs t = Assoc.collect v.same (es.map v.pair)
  /-- No two entries have the same label. -/
  apart : t.toList.Pairwise fun d e => v.same (v.label d) (v.label e) = false
  /-- The labels stand in the order of their first insertion, each as it was first inserted. -/
  labels : t.toList.map v.label = (es.map v.label).eraseDupsBy v.same
  /-- There are as many entries as different labels were inserted. -/
  size : t.size = ((es.map v.label).eraseDupsBy v.same).length
  /-- A look-up finds the content that was inserted last under the label, if there was one. -/
  get? {k : κ} (hk : live k) : (t.get? (v.key k)).map v.content =
    (es.reverse.find? fun e => v.same (v.label e) k).map v.content
  contains (k : ι) : t.contains k = (t.get? k).isSome
  /-- A further insertion returns what a look-up found before. -/
  exchange (e : ε) : (t.exchange e).1 = t.get? (v.key (v.label e))
  /-- It returns nothing exactly if the label was not there. -/
  added (e : ε) : (t.exchange e).1.isNone = !t.contains (v.key (v.label e))
  /-- It leaves all entries under other labels as they are and where they are. -/
  unchanged {e d : ε} {i : Nat} (he : live (v.label e)) (hd : t.entries[i]? = some d)
    (hne : v.same (v.label d) (v.label e) = false) : (t.insert e).entries[i]? = some d
  /-- It changes no look-up under another label. -/
  get?_insert {e : ε} {k : κ} (he : live (v.label e)) (hk : live k)
    (hne : v.same (v.label e) k = false) : (t.insert e).get? (v.key k) = t.get? (v.key k)

theorem View.dictionary_ofList (hv : v.Faithful live) {es : List ε}
    (hes : ∀ e ∈ es, live (v.label e)) : Dictionary v live es (ofList es : Table ι ε) := by
  have h : (ofList es : Table ι ε).Valid := valid_ofList es
  have hlive : ∀ d ∈ (ofList es : Table ι ε).toList, live (v.label d) :=
    forall_mem_ofList (fun d e hd _ => (v.label_overwrite d e).symm ▸ hd) hes
  have hne {j k : κ} (hj : live j) (hk : live k) (hs : v.same j k = false) : v.key j ≠ v.key k :=
    fun hjk => by simp [(hv j k hj hk).2 hjk] at hs
  have hpairs := View.pairs_ofList hv hes
  have hlabels : (ofList es : Table ι ε).toList.map v.label =
      (es.map v.label).eraseDupsBy v.same := by
    rw [← v.map_fst_pairs, hpairs, Assoc.map_fst_collect v.same_comm, List.map_map]
    rfl
  have hcontains (k : ι) : (ofList es : Table ι ε).contains k = ((ofList es).get? k).isSome :=
    h.contains_eq_isSome_get? k
  have hexchange (e : ε) : ((ofList es : Table ι ε).exchange e).1 =
      (ofList es).get? (v.key (v.label e)) := by
    rw [exchange_fst, v.key_label]
  refine
    { index := h
      pairs := hpairs
      apart := ?_
      labels := hlabels
      size := ?_
      get? := ?_
      contains := hcontains
      exchange := hexchange
      added := ?_
      unchanged := ?_
      get?_insert := ?_ }
  · have hkeys := List.pairwise_map.1 h.nodup_keys
    refine hkeys.imp_of_mem fun {d e} hd he hkey => ?_
    rw [← v.key_label, ← v.key_label] at hkey
    exact eq_false_of_ne_true fun hs => hkey ((hv _ _ (hlive d hd) (hlive e he)).1 hs)
  · rw [← hlabels, List.length_map]
    rfl
  · intro k hk
    rw [v.get?_ofList]
    have hpred : ∀ e ∈ es.reverse,
        (Keyed.key e == v.key k) = v.same (v.label e) k := by
      intro e he
      rw [Bool.eq_iff_iff, beq_iff_eq, hv _ _ (hes e (List.mem_reverse.1 he)) hk, v.key_label]
    rw [List.find?_congr hpred]
  · intro e
    rw [hexchange, hcontains]
    cases (ofList es : Table ι ε).get? (v.key (v.label e)) <;> rfl
  · intro e d i he hd hs
    refine h.getElem?_insert_of_ne hd ?_
    rw [← v.key_label, ← v.key_label]
    exact hne (hlive d (mem_toList_iff.2 ⟨i, hd⟩)) he hs
  · intro e k he hk hs
    refine h.get?_insert_of_ne ?_
    rw [← v.key_label]
    exact hne he hk hs

end Table

end ShapeMatch
