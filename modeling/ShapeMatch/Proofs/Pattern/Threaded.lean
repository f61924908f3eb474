import ShapeMatch.Proofs.Pattern.Parts
import ShapeMatch.Proofs.Selection.Columns
import ShapeMatch.Pattern.Matching

/-!
# Proofs: merging what the parts select is writing it in one pass

`Pattern.run` returns selections from every part of a pattern, and the whole merges them. One can
also match by a single pass over the pattern that carries one table along and writes each capture
into it at once. `Pattern.thread` is that pass, for any kind of table that can be written to. Where it
collects along an array, it fills the columns itself, cell by cell (`Sheet.fill`).

Both make the same writes. That is said by `Replays`: there is a log of writes, or a failure, from
which the pass and the merged selections are obtained for every table to begin with. `Replays.seq`
puts two logs one after the other, and the pattern induction composes the logs of the parts.
-/

namespace ShapeMatch

/-- The writes of a pass, in order. -/
abbrev Log := List (SelectionKey × Capture)

/-- How a capture is written into a table. -/
abbrev Writer (σ : Type) := σ → SelectionKey → Capture → σ

/-- The writes of a log, one after the other. -/
def Writer.all {σ : Type} (write : Writer σ) (acc : σ) (log : Log) : σ :=
  log.foldl (fun acc e => write acc e.1 e.2) acc

/-- The table that is a log. -/
def Writer.record : Writer Log := fun log k c => log ++ [(k, c)]

@[simp] theorem Writer.all_insert (s : Selections) (log : Log) :
    Writer.all Selections.insert s log = s.insertAll log := by
  induction log generalizing s with
  | nil => rfl
  | cons e log ih => exact ih (s.insert e.1 e.2)

@[simp] theorem Writer.all_record (log new : Log) :
    Writer.all Writer.record log new = log ++ new := by
  induction new generalizing log with
  | nil => exact (List.append_nil log).symm
  | cons e new ih =>
    refine (ih (log ++ [e])).trans ?_
    rw [List.append_assoc, List.singleton_append]

namespace Pattern

/-- The table as it is, where the test succeeds. -/
def keep {σ : Type} (test : Bool) (acc : σ) : Option σ := if test then some acc else none

mutual

/-- The table after one pass over the pattern, or nothing where the value does not match. -/
def thread : Pattern → {σ : Type} → Writer σ → Value → σ → Option σ
  | literal l, _, _, v, acc => keep (v.sameValue l) acc
  | object fields, _, write, v, acc =>
    if v.isObjectLike then threadFields fields write v acc else none
  | tuple items, _, write, v, acc => do
    let vs ← v.items?
    if items.size = vs.size then
      match items with | ⟨items⟩ => threadItems items write vs.toList acc
    else none
  | map entries, _, write, v, acc => do threadEntries entries write (← v.entries?) acc
  | set [], _, _, v, acc => do keep (← v.members?).isEmpty acc
  | set [p], _, write, v, acc => do
    let vs ← v.members?
    if p.isMatcher then vs.toList.foldlM (fun acc w => p.thread write w acc) acc
    else keep (p.isIn vs) acc
  | set (p :: q :: ps), _, _, v, acc => do
    let vs ← v.members?
    keep ((p :: q :: ps).all (isIn vs)) acc
  | optional _ p, _, write, v, acc =>
    if v.isUndefined then some (write.all acc (p.keys.map (·, .absent)))
    else p.thread write v acc
  | array _ p, _, write, v, acc => do
    let vs ← v.items?
    if vs.isEmpty then return write.all acc (p.keys.map (·, .collected []))
    else
      -- Each element fills a table of its own, and the tables fill the columns row by row.
      let rows ← vs.toList.mapM fun w => p.thread Selections.insert w ∅
      return write.all acc (Sheet.fill (rows.flatMap Selections.entries)).captures
  | intersection _ ps, _, write, v, acc => threadEvery ps write v acc
  | union _ ps, _, write, v, acc =>
    threadFirst ps write v (write.all acc ((allKeys ps).map (·, .absent)))
  | not _ p, _, write, v, acc => keep (p.thread write v acc).isNone acc
  | guard _ _ holds, _, _, v, acc => keep (holds v) acc
  | select _ k, _, write, v, acc => some (write acc k (.value v))
  | selectWith _ k p, _, write, v, acc => p.thread write v (write acc k (.value v))
  | custom _ m, _, write, v, acc => (m.run v).map fun s => write.all acc s.entries

/-- Carries the table through every pattern. -/
def threadEvery : List Pattern → {σ : Type} → Writer σ → Value → σ → Option σ
  | [], _, _, _, acc => some acc
  | p :: ps, _, write, v, acc => do threadEvery ps write v (← p.thread write v acc)

/-- Carries the table through the first pattern that matches. -/
def threadFirst : List Pattern → {σ : Type} → Writer σ → Value → σ → Option σ
  | [], _, _, _, _ => none
  | p :: ps, _, write, v, acc =>
    match p.thread write v acc with
    | some done => some done
    | none => threadFirst ps write v acc

/-- Carries the table through the patterns, each on the value in the same place. -/
def threadItems : List Pattern → {σ : Type} → Writer σ → List Value → σ → Option σ
  | p :: ps, _, write, v :: vs, acc => do threadItems ps write vs (← p.thread write v acc)
  | _, _, _, _, acc => some acc

/-- Carries the table through the properties of the value. -/
def threadFields : List (String × Pattern) → {σ : Type} → Writer σ → Value → σ → Option σ
  | [], _, _, _, acc => some acc
  | (k, p) :: fields, _, write, v, acc => do
    let w ← v.part? k p.isOptional
    threadFields fields write v (← p.thread write w acc)

/-- Carries the table through the values under the keys of a map. -/
def threadEntries : List (Value × Pattern) → {σ : Type} → Writer σ → Mapping → σ → Option σ
  | [], _, _, _, acc => some acc
  | (k, p) :: entries, _, write, es, acc => do
    let w := ((es.get? k.key).map Prod.snd).getD .undefined
    threadEntries entries write es (← p.thread write w acc)

end

/-! ## One log for both -/

/-- Merging into given selections and carrying a table along come from one log of writes, or both
fail. -/
def Replays (merged : Selections → Option Selections)
    (pass : (σ : Type) → Writer σ → σ → Option σ) : Prop :=
  ∃ log? : Option Log, (∀ s, merged s = log?.map s.insertAll) ∧
    ∀ (σ : Type) (write : Writer σ) (acc : σ), pass σ write acc = log?.map (write.all acc)

/-- The same of a result that is merged when it is complete. -/
def Selects (result : Option Selections) (pass : (σ : Type) → Writer σ → σ → Option σ) : Prop :=
  Replays (fun s => result.map s.merge) pass

namespace Replays

variable {f f' : Selections → Option Selections} {g g' : (σ : Type) → Writer σ → σ → Option σ}

theorem congr (h : Replays f g) (hf : ∀ s, f' s = f s)
    (hg : ∀ (σ : Type) (write : Writer σ) (acc : σ), g' σ write acc = g σ write acc) :
    Replays f' g' := by
  obtain ⟨log?, hf', hg'⟩ := h
  refine ⟨log?, fun s => ?_, fun σ write acc => ?_⟩
  · exact (hf s).trans (hf' s)
  · exact (hg σ write acc).trans (hg' σ write acc)

theorem fail : Replays (fun _ => none) fun _ _ _ => none :=
  ⟨none, fun _ => rfl, fun _ _ _ => rfl⟩

theorem writes (log : Log) :
    Replays (fun s => some (s.insertAll log)) fun _ write acc => some (write.all acc log) :=
  ⟨some log, fun _ => rfl, fun _ _ _ => rfl⟩

theorem done : Replays some fun _ _ acc => some acc := writes []

/-- What is tested later writes to the end of the log. -/
theorem seq (h : Replays f g) (h' : Replays f' g') :
    Replays (fun s => (f s).bind f') fun σ write acc => (g σ write acc).bind (g' σ write) := by
  obtain ⟨log?, hf, hg⟩ := h
  obtain ⟨log?', hf', hg'⟩ := h'
  refine ⟨log?.bind fun log => log?'.map (log ++ ·), fun s => ?_, fun σ write acc => ?_⟩
  · show (f s).bind f' = _
    rw [hf]
    cases log? with
    | none => rfl
    | some log =>
      rw [Option.map_some, Option.bind_some, hf', Option.bind_some, Option.map_map]
      congr 1
      funext log'
      exact (Selections.insertAll_append s log log').symm
  · show (g σ write acc).bind (g' σ write) = _
    rw [hg]
    cases log? with
    | none => rfl
    | some log =>
      rw [Option.map_some, Option.bind_some, hg', Option.bind_some, Option.map_map]
      congr 1
      funext log'
      exact List.foldl_append.symm

/-- Selections that are merged from the start on may as well be merged when they are complete. -/
theorem selects (h : Replays f g) : Selects (f ∅) g := by
  obtain ⟨log?, hf, hg⟩ := h
  refine ⟨log?, fun s => ?_, hg⟩
  show (f ∅).map s.merge = _
  rw [hf, Option.map_map]
  congr 1
  funext log
  exact (Selections.insertAll_eq_merge s log).symm

end Replays

namespace Selects

variable {r r' : Option Selections} {g g' : (σ : Type) → Writer σ → σ → Option σ}

theorem fail : Selects none fun _ _ _ => none := Replays.fail

theorem writes (log : Log) :
    Selects (some (.ofList log)) fun _ write acc => some (write.all acc log) :=
  (Replays.writes log).selects

theorem check (test : Bool) : Selects (accept test) fun _ _ acc => keep test acc := by
  cases test with
  | true => exact Replays.done
  | false => exact fail

/-- The selections of a result are written in order. -/
theorem result (r : Option Selections) :
    Selects r fun _ write acc => r.map fun s => write.all acc s.entries := by
  refine ⟨r.map Selections.entries, fun s => ?_, fun σ write acc => ?_⟩
  · show r.map s.merge = _
    rw [Option.map_map]
    rfl
  · rw [Option.map_map]
    rfl

/-- What was written before the test is merged with its result. -/
theorem after (log : Log) (h : Selects r g) :
    Selects (r.bind fun t => some ((Selections.ofList log).merge t)) fun σ write acc =>
      g σ write (write.all acc log) := by
  refine ((Replays.writes log).seq h).congr (fun s => ?_) fun _ _ _ => rfl
  show _ = r.map (s.insertAll log).merge
  rw [Selections.insertAll_eq_merge]
  cases r with
  | none => rfl
  | some t => exact congrArg some (Selections.merge_assoc s _ t).symm

theorem ite {c : Prop} [Decidable c] (h : Selects r g) (h' : Selects r' g') :
    Selects (if c then r else r') fun σ write acc =>
      if c then g σ write acc else g' σ write acc := by
  by_cases hc : c
  · simpa only [if_pos hc] using h
  · simpa only [if_neg hc] using h'

theorem bind {α : Type} (o : Option α) {r : α → Option Selections}
    {g : α → (σ : Type) → Writer σ → σ → Option σ} (h : ∀ a, Selects (r a) (g a)) :
    Selects (o.bind r) fun σ write acc => o.bind fun a => g a σ write acc := by
  cases o with
  | none => exact fail
  | some a => exact h a

/-- The pass over a table of selections merges the result into it. -/
theorem pass_insert (h : Selects r g) (acc : Selections) :
    g Selections Selections.insert acc = r.map acc.merge := by
  obtain ⟨log?, hr, hg⟩ := h
  calc g Selections Selections.insert acc
    _ = log?.map (Writer.all Selections.insert acc) := hg Selections Selections.insert acc
    _ = log?.map acc.insertAll := by
      congr 1
      funext log
      exact Writer.all_insert acc log
    _ = r.map acc.merge := (hr acc).symm

/-- The pass over an empty table of selections is the result. -/
theorem pass_insert_empty (h : Selects r g) : g Selections Selections.insert ∅ = r := by
  rw [h.pass_insert]
  cases r with
  | none => rfl
  | some s => exact congrArg some (Selections.empty_merge s)

/-- The pass fails where the result does, whatever the table. -/
theorem isNone_pass (h : Selects r g) {σ : Type} (write : Writer σ) (acc : σ) :
    (g σ write acc).isNone = r.isNone := by
  obtain ⟨log?, hr, hg⟩ := h
  have := congrArg Option.isNone (hr ∅)
  rw [Option.isNone_map, Option.isNone_map] at this
  rw [hg, Option.isNone_map, this]

end Selects

/-- Matching a value and the pass make the same writes. -/
def Threads (p : Pattern) (v : Value) : Prop :=
  Selects (p.run v) fun _ write acc => p.thread write v acc

/-! ## The list functions -/

theorem replays_every {ps : List Pattern} (ih : ∀ p ∈ ps, ∀ v, p.Threads v) (v : Value) :
    Replays (runEvery ps v) fun _ write acc => threadEvery ps write v acc := by
  induction ps with
  | nil => exact .done
  | cons p ps ih' =>
    have hps := ih' fun q hq => ih q (List.mem_cons_of_mem _ hq)
    refine ((ih p List.mem_cons_self v).seq hps).congr (fun s => ?_) fun _ _ _ => rfl
    rw [runEvery]
    cases p.run v <;> rfl

theorem replays_first {ps : List Pattern} (ih : ∀ p ∈ ps, ∀ v, p.Threads v) (v : Value) :
    Selects (runFirst ps v) fun _ write acc => threadFirst ps write v acc := by
  induction ps with
  | nil => exact Selects.fail
  | cons p ps ih' =>
    have hps := ih' fun q hq => ih q (List.mem_cons_of_mem _ hq)
    obtain ⟨log?, hm, hp⟩ := ih p List.mem_cons_self v
    cases log? with
    | none =>
      have hrun : p.run v = none := Option.map_eq_none_iff.1 (hm ∅)
      refine hps.congr (fun s => ?_) fun σ write acc => ?_
      · rw [runFirst, hrun]
      · show threadFirst (p :: ps) write v acc = threadFirst ps write v acc
        rw [threadFirst, show p.thread write v acc = none from hp σ write acc]
    | some log =>
      obtain ⟨t, ht, -⟩ := Option.map_eq_some_iff.1 (hm ∅)
      refine ⟨some log, fun s => ?_, fun σ write acc => ?_⟩
      · rw [← hm, runFirst, ht]
      · show threadFirst (p :: ps) write v acc = _
        rw [threadFirst, show p.thread write v acc = _ from hp σ write acc]
        rfl

theorem replays_items {ps : List Pattern} (ih : ∀ p ∈ ps, ∀ v, p.Threads v) (vs : List Value) :
    Replays (runItems ps vs) fun _ write acc => threadItems ps write vs acc := by
  induction ps generalizing vs with
  | nil => cases vs <;> exact .done
  | cons p ps ih' =>
    cases vs with
    | nil => exact .done
    | cons v vs =>
      have hps := ih' (fun q hq => ih q (List.mem_cons_of_mem _ hq)) vs
      refine ((ih p List.mem_cons_self v).seq hps).congr (fun s => ?_) fun _ _ _ => rfl
      rw [runItems]
      cases p.run v <;> rfl

theorem replays_fields {fields : List (String × Pattern)}
    (ih : ∀ p ∈ fields.map Prod.snd, ∀ v, p.Threads v) (v : Value) :
    Replays (runFields fields v) fun _ write acc => threadFields fields write v acc := by
  induction fields with
  | nil => exact .done
  | cons f fields ih' =>
    obtain ⟨k, p⟩ := f
    have hps := ih' fun q hq => ih q (List.mem_cons_of_mem _ hq)
    cases hw : v.part? k p.isOptional with
    | none =>
      refine Replays.fail.congr (fun s => ?_) fun σ write acc => ?_
      · rw [runFields, hw]
        rfl
      · rw [threadFields, hw]
        rfl
    | some w =>
      refine ((ih p List.mem_cons_self w).seq hps).congr (fun s => ?_) fun σ write acc => ?_
      · rw [runFields, hw]
        show (p.run w).bind _ = _
        cases p.run w <;> rfl
      · rw [threadFields, hw]
        rfl

theorem replays_entries {entries : List (Value × Pattern)}
    (ih : ∀ p ∈ entries.map Prod.snd, ∀ v, p.Threads v) (es : Mapping) :
    Replays (runEntries entries es) fun _ write acc => threadEntries entries write es acc := by
  induction entries with
  | nil => exact .done
  | cons e entries ih' =>
    obtain ⟨k, p⟩ := e
    have hps := ih' fun q hq => ih q (List.mem_cons_of_mem _ hq)
    have hp := ih p List.mem_cons_self (((es.get? k.key).map Prod.snd).getD .undefined)
    refine (hp.seq hps).congr (fun s => ?_) fun _ _ _ => rfl
    rw [runEntries]
    cases p.run (((es.get? k.key).map Prod.snd).getD .undefined) <;> rfl

/-- A lone matcher tests the members of a set one after the other. -/
theorem replays_members {p : Pattern} (ih : ∀ v, p.Threads v) (vs : Members) :
    Replays (fun s => vs.entries.foldlM (fun s w => (p.run w).map s.merge) s) fun _ write acc =>
      vs.toList.foldlM (fun acc w => p.thread write w acc) acc := by
  have main : ∀ ws : List Value, Replays (fun s => ws.foldlM (fun s w => (p.run w).map s.merge) s)
      fun _ write acc => ws.foldlM (fun acc w => p.thread write w acc) acc := by
    intro ws
    induction ws with
    | nil => exact .done
    | cons w ws ih' => exact (ih w).seq ih'
  exact (main vs.toList).congr (fun s => Array.foldlM_toList.symm) fun _ _ _ => rfl

/-- The elements of an array fill tables of their own, and these are the results. -/
theorem mapM_thread {p : Pattern} (ih : ∀ v, p.Threads v) (vs : Array Value) :
    (vs.toList.mapM fun w => p.thread Selections.insert w ∅) =
      (vs.mapM p.run).map Array.toList := by
  have hrow : (fun w => p.thread Selections.insert w ∅) = p.run :=
    funext fun w => (ih w).pass_insert_empty
  rw [hrow, ← Array.toList_mapM]
  rfl

/-! ## All patterns -/

/-- Matching and the pass make the same writes, for every pattern and every value. -/
theorem threads (p : Pattern) (v : Value) : p.Threads v := by
  induction p using inductionOnParts generalizing v with
  | step p ih =>
    unfold Threads
    cases p with
    | literal l =>
      simp only [run, thread]
      exact .check _
    | guard _ _ holds =>
      simp only [run, thread]
      exact .check _
    | object fields =>
      simp only [run, thread]
      exact .ite (replays_fields ih v).selects .fail
    | tuple items =>
      obtain ⟨items⟩ := items
      simp only [run, thread]
      exact .bind v.items? fun vs => .ite (replays_items ih vs.toList).selects .fail
    | map entries =>
      simp only [run, thread]
      exact .bind v.entries? fun es => (replays_entries ih es).selects
    | set members =>
      rcases members with _ | ⟨p, _ | ⟨q, ps⟩⟩
      · simp only [run, thread]
        exact .bind v.members? fun vs => .check _
      · have hp := ih p (List.mem_singleton_self p)
        simp only [run, thread]
        exact .bind v.members? fun vs => .ite (replays_members hp vs).selects (.check _)
      · simp only [run, thread]
        exact .bind v.members? fun vs => .check _
    | optional _ p =>
      simp only [run, thread]
      exact .ite (.writes _) (ih p (List.mem_singleton_self p) v)
    | array _ p =>
      have hp := ih p (List.mem_singleton_self p)
      -- By the induction hypothesis the tables of the elements are their results.
      simp only [run, thread, mapM_thread hp]
      refine .bind v.items? fun vs => .ite (.writes _) ?_
      cases vs.mapM p.run with
      | none => exact .fail
      | some rows =>
        show Selects (some (.columns rows.toList)) fun _ write acc =>
          some (write.all acc (Sheet.fill (rows.toList.flatMap Selections.entries)).captures)
        rw [← Selections.entries_columns]
        exact .result (some (.columns rows.toList))
    | intersection _ ps =>
      simp only [run, thread]
      exact (replays_every ih v).selects
    | union _ ps =>
      have hps : ∀ q ∈ ps, ∀ v, q.Threads v := ih
      simp only [run, thread]
      -- The marks of absence are in the table before the branches are tried.
      exact .after _ (replays_first hps v)
    | not _ p =>
      have hp := ih p (List.mem_singleton_self p) v
      -- Only whether the inner pass fails matters: its writes are dropped with its table.
      simp only [run, thread, hp.isNone_pass]
      exact .check _
    | select _ k =>
      simp only [run, thread]
      exact .writes [(k, .value v)]
    | selectWith _ k p =>
      simp only [run, thread]
      exact .after [(k, .value v)] (ih p (List.mem_singleton_self p) v)
    | custom _ m =>
      simp only [run, thread]
      exact .result _

/-- The pass over a log finds the writes that the pass makes to any other table. -/
theorem thread_eq_record (p : Pattern) (v : Value) {σ : Type} (write : Writer σ) (acc : σ) :
    p.thread write v acc = (p.thread Writer.record v []).map (write.all acc) := by
  obtain ⟨log?, -, hp⟩ := threads p v
  have hlog : p.thread Writer.record v [] = log? := by
    refine (hp Log Writer.record []).trans ?_
    cases log? with
    | none => rfl
    | some log => exact congrArg some (Writer.all_record [] log)
  rw [hlog]
  exact hp σ write acc

/-- **One pass merges what is selected.** Carried along from any selections, the pass succeeds where
the value matches, and ends with what the pattern selects merged into them, in the same order of
keys. Hence of several writes under a key the last one stays, in the place of the first one; a key
that was there before keeps its place, and its capture if nothing is written under it. -/
theorem thread_eq_merge (p : Pattern) (v : Value) (acc : Selections) :
    (p.thread Selections.insert v acc =
      if p.isMatch v then some (acc.merge (p.selections v)) else none) ∧
    match p.thread Writer.record v [] with
    | some log =>
      p.isMatch v = true ∧
        (acc.merge (p.selections v)).keys = (acc.keys ++ log.map Prod.fst).eraseDups ∧
        ∀ k, (acc.merge (p.selections v)).get? k =
          ((log.filter (·.1 == k)).getLast?.map Prod.snd).or (acc.get? k)
    | none => p.isMatch v = false := by
  have hinsert := (threads p v).pass_insert acc
  have hrecord := thread_eq_record p v Selections.insert acc
  have hthread : p.thread Selections.insert v acc =
      if p.isMatch v then some (acc.merge (p.selections v)) else none := by
    rw [hinsert, isMatch, selections]
    cases p.run v <;> rfl
  refine ⟨hthread, ?_⟩
  rw [hthread] at hrecord
  cases hlog : p.thread Writer.record v [] with
  | none =>
    rw [hlog, Option.map_none] at hrecord
    cases hm : p.isMatch v with
    | false => rfl
    | true =>
      rw [hm] at hrecord
      contradiction
  | some log =>
    rw [hlog, Option.map_some, Writer.all_insert] at hrecord
    cases hm : p.isMatch v with
    | false =>
      rw [hm] at hrecord
      contradiction
    | true =>
      rw [hm] at hrecord
      have hmerge : acc.merge (p.selections v) = acc.insertAll log := Option.some.inj hrecord
      refine ⟨rfl, ?_, fun k => ?_⟩
      · rw [hmerge, Selections.keys_insertAll]
      · rw [hmerge, Selections.get?_insertAll, List.getLast?_filter]
        rfl

/-- Two writes under one key: an element of the tuple, and then a column. -/
example :
    (tuple #[select ⟨0⟩ (.named "x"), array ⟨1⟩ (select ⟨2⟩ (.named "x"))]).thread Writer.record
        (.array ⟨3⟩ #[.null, .array ⟨4⟩ #[.bool true, .bool false]]) [] =
      some [(.named "x", .value .null),
        (.named "x", .collected [.value (.bool true), .value (.bool false)])] := by
  rfl

end Pattern

end ShapeMatch
