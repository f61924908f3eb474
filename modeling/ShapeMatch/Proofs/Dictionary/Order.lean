import ShapeMatch.Dictionary.Assoc

/-!
# Proofs: the order of keys and the last write

A list without its later repetitions (`List.eraseDups`) is the order in which the keys of an ordered
dictionary stand. The first part collects the laws by which such orders are concatenated; the second
one says what a run of writes does to an association list whose keys are the same only if they are
equal: its keys are those that were there followed by the written ones, without later repetitions
(`Assoc.map_fst_putAll`), and a look-up finds what was written last (`Assoc.get?_putAll`).
-/

namespace ShapeMatch

/-! ## Lists without later repetitions -/

section EraseDups

variable {α β : Type} [BEq α] [LawfulBEq α]

/-- Selecting from a list and dropping later repetitions may be done in any order. -/
theorem eraseDups_filter (p : α → Bool) (l : List α) :
    (l.filter p).eraseDups = l.eraseDups.filter p := by
  match l with
  | [] => rfl
  | a :: l =>
    have ih := eraseDups_filter p (l.filter fun b => !b == a)
    have comm : (l.filter p).filter (fun b => !b == a) = (l.filter fun b => !b == a).filter p := by
      rw [List.filter_filter, List.filter_filter]
      simp only [Bool.and_comm]
    by_cases ha : p a
    · rw [List.filter_cons_of_pos ha, List.eraseDups_cons, List.eraseDups_cons,
        List.filter_cons_of_pos ha, comm, ih]
    · -- `p` rejects `a`, so none of what it selects is equal to `a`.
      have fresh : (l.filter p).filter (fun b => !b == a) = l.filter p := by
        rw [List.filter_eq_self]
        intro b hb
        have hne : b ≠ a := by
          rintro rfl
          exact ha (List.mem_filter.1 hb).2
        simpa using hne
      rw [List.filter_cons_of_neg ha, List.eraseDups_cons, List.filter_cons_of_neg ha, ← ih, ← comm,
        fresh]
termination_by l.length
decreasing_by exact Nat.lt_succ_of_le (List.length_filter_le _ _)

theorem nodup_eraseDups (l : List α) : l.eraseDups.Nodup := by
  match l with
  | [] => exact List.nodup_nil
  | a :: l =>
    rw [List.eraseDups_cons, List.nodup_cons]
    refine ⟨fun h => ?_, nodup_eraseDups _⟩
    have := (List.mem_filter.1 (List.mem_eraseDups.1 h)).2
    simp at this
termination_by l.length
decreasing_by exact Nat.lt_succ_of_le (List.length_filter_le _ _)

/-- A list without repetitions loses nothing. -/
theorem eraseDups_of_nodup {l : List α} (h : l.Nodup) : l.eraseDups = l := by
  induction l with
  | nil => rfl
  | cons a l ih =>
    obtain ⟨ha, hl⟩ := List.nodup_cons.1 h
    have fresh : (l.filter fun b => !b == a) = l := by
      rw [List.filter_eq_self]
      intro b hb
      have hne : b ≠ a := fun e => ha (e ▸ hb)
      simpa using hne
    rw [List.eraseDups_cons, fresh, ih hl]

/-- What the first list has already is dropped from the second one. -/
theorem eraseDups_append_filter (as bs : List α) :
    (as ++ bs).eraseDups = as.eraseDups ++ bs.eraseDups.filter fun b => !as.elem b := by
  rw [List.eraseDups_append, List.removeAll, eraseDups_filter]

/-- Later repetitions in the first part may be dropped beforehand. -/
theorem eraseDups_append_left (as bs : List α) :
    (as.eraseDups ++ bs).eraseDups = (as ++ bs).eraseDups := by
  rw [eraseDups_append_filter, eraseDups_append_filter, eraseDups_of_nodup (nodup_eraseDups as)]
  simp only [List.elem_eq_contains, List.contains_eq_mem, List.mem_eraseDups]

/-- Later repetitions in the second part may be dropped beforehand. -/
theorem eraseDups_append_right (as bs : List α) :
    (as ++ bs.eraseDups).eraseDups = (as ++ bs).eraseDups := by
  rw [eraseDups_append_filter, eraseDups_append_filter, eraseDups_of_nodup (nodup_eraseDups bs)]

/-- A list all of whose elements came before adds nothing. -/
theorem eraseDups_append_of_subset {as bs : List α} (h : bs ⊆ as) :
    (as ++ bs).eraseDups = as.eraseDups := by
  rw [eraseDups_append_filter, List.filter_eq_nil_iff.2, List.append_nil]
  intro b hb
  simpa using h (List.mem_eraseDups.1 hb)

/-- Later repetitions within the blocks of a concatenation may be dropped beforehand. -/
theorem eraseDups_flatMap_eraseDups (f : β → List α) (l : List β) :
    (l.flatMap fun b => (f b).eraseDups).eraseDups = (l.flatMap f).eraseDups := by
  induction l with
  | nil => rfl
  | cons b l ih =>
    rw [List.flatMap_cons, List.flatMap_cons, eraseDups_append_left, ← eraseDups_append_right, ih,
      eraseDups_append_right]

/-- A block that is repeated counts once. -/
theorem eraseDups_flatMap_const {l : List β} (h : l ≠ []) (as : List α) :
    (l.flatMap fun _ => as).eraseDups = as.eraseDups := by
  cases l with
  | nil => exact absurd rfl h
  | cons b l =>
    rw [List.flatMap_cons]
    apply eraseDups_append_of_subset
    intro a ha
    obtain ⟨_, _, h⟩ := List.mem_flatMap.1 ha
    exact h

end EraseDups

/-! ## Runs of writes -/

namespace Assoc

variable {κ α : Type}

section Equivalence

variable {same : κ → κ → Bool}

theorem get?_cons (e : κ × α) (entries : List (κ × α)) (k : κ) :
    get? same k (e :: entries) = if same e.1 k then some e.2 else get? same k entries := by
  simp only [get?, List.find?_cons]
  cases same e.1 k <;> rfl

theorem get?_append (k : κ) (es ds : List (κ × α)) :
    get? same k (es ++ ds) = (get? same k es).or (get? same k ds) := by
  simp only [get?, List.find?_append]
  cases es.find? fun e => same e.1 k <;> rfl

theorem get?_map_snd {β : Type} (f : α → β) (k : κ) (entries : List (κ × α)) :
    get? same k (entries.map fun e => (e.1, f e.2)) = (get? same k entries).map f := by
  rw [get?, get?, List.find?_map, Option.map_map, Option.map_map]
  rfl

theorem comm_of_equivalence (hsame : Equivalence fun j k : κ => (same j k : Prop)) (j k : κ) :
    same j k = same k j :=
  Bool.eq_iff_iff.2 ⟨hsame.symm, hsame.symm⟩

/-- A look-up after a write finds the write, or what was there under another key. -/
theorem get?_put_of_equivalence (hsame : Equivalence fun j k : κ => (same j k : Prop)) (k k' : κ)
    (a : α) (entries : List (κ × α)) :
    get? same k' (put same k a entries) = if same k k' then some a else get? same k' entries := by
  induction entries with
  | nil => rw [put, get?_cons]
  | cons e entries ih =>
    rw [put]
    by_cases he : same e.1 k
    · have hiff : same e.1 k' ↔ same k k' :=
        ⟨fun h => hsame.trans (hsame.symm he) h, fun h => hsame.trans he h⟩
      rw [if_pos he, get?_cons, get?_cons]
      simp only [hiff]
      split <;> rfl
    · rw [if_neg he, get?_cons, get?_cons, ih]
      by_cases hk : same e.1 k'
      · have hne : ¬ same k k' := fun h => he (hsame.trans hk (hsame.symm h))
        rw [if_pos hk, if_pos hk, if_neg hne]
      · rw [if_neg hk, if_neg hk]

/-- A look-up after a run of writes finds the last write under a key that is the same. -/
theorem get?_putAll_of_equivalence (hsame : Equivalence fun j k : κ => (same j k : Prop)) (k : κ)
    (entries new : List (κ × α)) :
    get? same k (putAll same entries new) = get? same k (new.reverse ++ entries) := by
  induction new generalizing entries with
  | nil => rfl
  | cons e new ih =>
    rw [putAll, List.foldl_cons, ← putAll, ih, get?_append, get?_put_of_equivalence hsame,
      List.reverse_cons, List.append_assoc, get?_append, List.singleton_append, get?_cons]

end Equivalence

variable [BEq κ] [LawfulBEq κ]

theorem isSome_get?_iff {k : κ} {entries : List (κ × α)} :
    (get? (· == ·) k entries).isSome ↔ k ∈ entries.map Prod.fst := by
  simp [get?]

theorem any_key_iff {k : κ} {entries : List (κ × α)} :
    (entries.any fun e => e.1 == k) ↔ k ∈ entries.map Prod.fst := by
  simp [List.any_eq_true]

theorem equivalence_beq : Equivalence fun j k : κ => ((j == k : Bool) : Prop) :=
  ⟨fun _ => beq_self_eq_true _, fun h => beq_iff_eq.2 (eq_of_beq h).symm,
    fun h h' => beq_iff_eq.2 ((eq_of_beq h).trans (eq_of_beq h'))⟩

/-- A look-up after a run of writes finds the last write under its key. -/
theorem get?_putAll (k : κ) (entries new : List (κ × α)) :
    get? (· == ·) k (putAll (· == ·) entries new) = get? (· == ·) k (new.reverse ++ entries) :=
  get?_putAll_of_equivalence equivalence_beq k entries new

/-- Where the keys are distinct, the order of the entries plays no part in a look-up. -/
theorem get?_reverse (k : κ) {entries : List (κ × α)} (h : (entries.map Prod.fst).Nodup) :
    get? (· == ·) k entries.reverse = get? (· == ·) k entries := by
  induction entries with
  | nil => rfl
  | cons e entries ih =>
    rw [List.map_cons, List.nodup_cons] at h
    rw [List.reverse_cons, get?_append, ih h.2, get?_cons, get?_cons]
    by_cases hk : e.1 == k
    · have : get? (· == ·) k entries = none := by
        rw [← Option.not_isSome_iff_eq_none, isSome_get?_iff, ← eq_of_beq hk]
        exact h.1
      rw [this, if_pos hk, if_pos hk, Option.none_or]
    · rw [if_neg hk, if_neg hk]
      exact Option.or_none

/-- Writing one thing under each of several keys, one that depends on the key alone. -/
theorem get?_map_key (f : κ → α) (l : List κ) (k : κ) :
    get? (· == ·) k (l.map fun j => (j, f j)) = if k ∈ l then some (f k) else none := by
  induction l with
  | nil => rfl
  | cons j l ih =>
    rw [List.map_cons, get?_cons, ih]
    by_cases hj : j = k
    · subst hj
      simp
    · rw [if_neg (by simpa using hj)]
      simp [Ne.symm hj]

/-- The keys after a write. -/
theorem map_fst_put_eq_eraseDups (k : κ) (a : α) {entries : List (κ × α)}
    (h : (entries.map Prod.fst).Nodup) :
    (put (· == ·) k a entries).map Prod.fst = (entries.map Prod.fst ++ [k]).eraseDups := by
  rw [map_fst_put, eraseDups_append_filter, eraseDups_of_nodup h]
  by_cases hk : k ∈ entries.map Prod.fst
  · rw [if_pos (any_key_iff.2 hk)]
    simp [List.eraseDups_cons, -List.mem_map, hk]
  · rw [if_neg (mt any_key_iff.1 hk)]
    simp [List.eraseDups_cons, -List.mem_map, hk]

/-- Where the keys are distinct, there is one entry under a key at most. -/
theorem map_snd_filter (k : κ) {entries : List (κ × α)} (h : (entries.map Prod.fst).Nodup) :
    (entries.filter (·.1 == k)).map Prod.snd = (get? (· == ·) k entries).toList := by
  induction entries with
  | nil => rfl
  | cons e entries ih =>
    rw [List.map_cons, List.nodup_cons] at h
    rw [get?_cons, List.filter_cons]
    by_cases hk : e.1 == k
    · have hrest : entries.filter (·.1 == k) = [] := by
        rw [List.filter_eq_nil_iff]
        intro d hd hkey
        have heq : d.1 = e.1 := (eq_of_beq hkey).trans (eq_of_beq hk).symm
        exact h.1 (heq ▸ List.mem_map_of_mem hd)
      rw [if_pos hk, if_pos hk, hrest]
      rfl
    · rw [if_neg hk, if_neg hk, ih h.2]

/-- The keys after a run of writes: first those that were there, then the new ones. -/
theorem map_fst_putAll (entries new : List (κ × α)) (h : (entries.map Prod.fst).Nodup) :
    (putAll (· == ·) entries new).map Prod.fst =
      (entries.map Prod.fst ++ new.map Prod.fst).eraseDups := by
  induction new generalizing entries with
  | nil => rw [List.map_nil, List.append_nil, eraseDups_of_nodup h]; rfl
  | cons e new ih =>
    rw [putAll, List.foldl_cons, ← putAll, ih _ (nodup_put e.1 e.2 h),
      map_fst_put_eq_eraseDups e.1 e.2 h, eraseDups_append_left, List.map_cons, List.append_assoc,
      List.singleton_append]

/-- The keys in their order and the look-ups say all about an association list with distinct keys.
-/
theorem ext_get? {es ds : List (κ × α)} (hk : es.map Prod.fst = ds.map Prod.fst)
    (hn : (es.map Prod.fst).Nodup) (hg : ∀ k, get? (· == ·) k es = get? (· == ·) k ds) :
    es = ds := by
  induction es generalizing ds with
  | nil => exact (List.map_eq_nil_iff.1 hk.symm).symm
  | cons e es ih =>
    cases ds with
    | nil => simp at hk
    | cons d ds =>
      rw [List.map_cons, List.map_cons, List.cons.injEq] at hk
      rw [List.map_cons, List.nodup_cons] at hn
      have he : e = d := by
        have := hg e.1
        rw [get?_cons, get?_cons, ← hk.1] at this
        simp only [beq_self_eq_true, if_true, Option.some.injEq] at this
        exact Prod.ext hk.1 this
      subst he
      rw [ih hk.2 hn.2]
      intro k
      by_cases hek : e.1 == k
      · -- The key of the first entry stands in neither rest.
        have hes : k ∉ es.map Prod.fst := by
          rw [← eq_of_beq hek]
          exact hn.1
        have hds : k ∉ ds.map Prod.fst := hk.2 ▸ hes
        rw [← isSome_get?_iff, Option.not_isSome_iff_eq_none] at hes hds
        rw [hes, hds]
      · have := hg k
        rwa [get?_cons, get?_cons, if_neg hek, if_neg hek] at this

/-- Entries whose keys are distinct are collected as they stand. -/
theorem collect_of_nodup {entries : List (κ × α)} (h : (entries.map Prod.fst).Nodup) :
    collect (· == ·) entries = entries := by
  refine (ext_get? ?_ h fun k => ?_).symm
  · rw [collect, map_fst_putAll [] entries List.nodup_nil]
    exact (eraseDups_of_nodup h).symm
  · rw [collect, get?_putAll, List.append_nil, get?_reverse k h]

end Assoc

end ShapeMatch
