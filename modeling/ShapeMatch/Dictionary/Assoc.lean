/-!
# Ordered association lists

Entries in the order in which their keys first came in. Writing under a key that is already there
changes the entry in its place and keeps the key that came first; any other key goes to the end. When
two keys count as the same is up to the caller.
-/

namespace ShapeMatch.Assoc

variable {κ α : Type} (same : κ → κ → Bool)

/-- Writes `a` under `k`. -/
def put (k : κ) (a : α) : List (κ × α) → List (κ × α)
  | [] => [(k, a)]
  | e :: rest => if same e.1 k then (e.1, a) :: rest else e :: put k a rest

/-- What is written under `k`. -/
def get? (k : κ) (entries : List (κ × α)) : Option α :=
  (entries.find? fun e => same e.1 k).map Prod.snd

/-- Writes the new entries, one after the other. -/
def putAll (entries new : List (κ × α)) : List (κ × α) :=
  new.foldl (fun done e => put same e.1 e.2 done) entries

/-- The association list of the entries, written one after the other. -/
def collect (entries : List (κ × α)) : List (κ × α) := putAll same [] entries

/-! ## The keys after a write -/

variable {same}

/-- A write keeps the keys, and adds its own at the end if none counted as the same. -/
theorem map_fst_put (k : κ) (a : α) (entries : List (κ × α)) :
    (put same k a entries).map Prod.fst =
      if entries.any (fun e => same e.1 k) then entries.map Prod.fst
      else entries.map Prod.fst ++ [k] := by
  induction entries with
  | nil => simp [put]
  | cons e rest ih =>
    by_cases h : same e.1 k
    · simp [put, h]
    · simp only [put, h, Bool.false_eq_true, if_false, List.map_cons, ih, List.any_cons,
        Bool.false_or]
      split <;> simp

/-- Where keys are the same only if they are equal, a write keeps them distinct. -/
theorem nodup_put [BEq κ] [LawfulBEq κ] (k : κ) (a : α) {entries : List (κ × α)}
    (h : (entries.map Prod.fst).Nodup) : ((put (· == ·) k a entries).map Prod.fst).Nodup := by
  rw [map_fst_put]
  split
  · exact h
  · rename_i hk
    rw [List.nodup_append]
    refine ⟨h, by simp, fun x hx y hy hxy => hk ?_⟩
    obtain ⟨e, he, rfl⟩ := List.mem_map.1 hx
    exact List.any_eq_true.2 ⟨e, he, by simp [hxy, List.mem_singleton.1 hy]⟩

/-- Where keys are the same only if they are equal, writes keep them distinct. -/
theorem nodup_putAll [BEq κ] [LawfulBEq κ] {entries : List (κ × α)} (new : List (κ × α))
    (h : (entries.map Prod.fst).Nodup) :
    ((putAll (· == ·) entries new).map Prod.fst).Nodup := by
  induction new generalizing entries with
  | nil => exact h
  | cons e new ih => exact ih (nodup_put e.1 e.2 h)

end ShapeMatch.Assoc
