import ShapeMatch.Proofs.Dictionary.Agreement
import ShapeMatch.Proofs.Pattern.Verdict

/-!
# Proofs: patterns with other captures

A `Replacement` says what comes in the place of each capture of a pattern (`Pattern.replace`): a matcher
that is not optional, as a capture is one itself, so that the pattern around it asks for the same
things. The plans of a pattern and of the replaced one then differ in their writes, and in the
replacement inside their tests, but in nothing else (`Pattern.image_plan`).

One replacement erases all captures. What is captured thus has no influence on what is matched
(`Pattern.isMatch_erase`).
-/

namespace ShapeMatch

/-- What comes in the place of the captures of a pattern. -/
structure Replacement where
  /-- In the place of the capture of any value. -/
  select : Ref → SelectionKey → Pattern
  /-- In the place of the capture of a value that matches the inner pattern, replaced already. -/
  selectWith : Ref → SelectionKey → Pattern → Pattern
  isMatcher_select : ∀ h k, (select h k).isMatcher
  isMatcher_selectWith : ∀ h k p, (selectWith h k p).isMatcher
  isOptional_select : ∀ h k, (select h k).isOptional = false
  isOptional_selectWith : ∀ h k p, (selectWith h k p).isOptional = false

namespace Pattern

mutual

/-- The pattern with its captures replaced. -/
def replace (θ : Replacement) : Pattern → Pattern
  | literal l => literal l
  | object fields => object (replaceFields θ fields)
  | tuple ⟨items⟩ => tuple (replaceAll θ items).toArray
  | map entries => map (replaceEntries θ entries)
  | set members => set (replaceAll θ members)
  | optional h p => optional h (p.replace θ)
  | array h p => array h (p.replace θ)
  | intersection h ps => intersection h (replaceAll θ ps)
  | union h ps => union h (replaceAll θ ps)
  | not h p => not h (p.replace θ)
  | guard h label holds => guard h label holds
  | select h k => θ.select h k
  | selectWith h k p => θ.selectWith h k (p.replace θ)
  | custom h m => custom h m

/-- The patterns with their captures replaced. -/
def replaceAll (θ : Replacement) : List Pattern → List Pattern
  | [] => []
  | p :: ps => p.replace θ :: replaceAll θ ps

/-- The fields with the captures in their patterns replaced. -/
def replaceFields (θ : Replacement) : List (String × Pattern) → List (String × Pattern)
  | [] => []
  | (k, p) :: fields => (k, p.replace θ) :: replaceFields θ fields

/-- The entries with the captures in their patterns replaced. -/
def replaceEntries (θ : Replacement) : List (Value × Pattern) → List (Value × Pattern)
  | [] => []
  | (k, p) :: entries => (k, p.replace θ) :: replaceEntries θ entries

end

section Replace

variable (θ : Replacement)

theorem replaceAll_eq_map (ps : List Pattern) : replaceAll θ ps = ps.map (replace θ) := by
  induction ps with
  | nil => rfl
  | cons p ps ih => rw [replaceAll, ih, List.map_cons]

theorem replaceFields_eq_map (fields : List (String × Pattern)) :
    replaceFields θ fields = fields.map fun f => (f.1, f.2.replace θ) := by
  induction fields with
  | nil => rfl
  | cons f fields ih => rw [replaceFields, ih, List.map_cons]

theorem replaceEntries_eq_map (entries : List (Value × Pattern)) :
    replaceEntries θ entries = entries.map fun e => (e.1, e.2.replace θ) := by
  induction entries with
  | nil => rfl
  | cons e entries ih => rw [replaceEntries, ih, List.map_cons]

/-! ## What the replacement keeps -/

@[simp] theorem isMatcher_replace (p : Pattern) : (p.replace θ).isMatcher = p.isMatcher := by
  cases p with
  | select h k => exact θ.isMatcher_select h k
  | selectWith h k p => exact θ.isMatcher_selectWith h k (p.replace θ)
  | _ => rfl

@[simp] theorem isOptional_replace (p : Pattern) : (p.replace θ).isOptional = p.isOptional := by
  cases p with
  | select h k => exact θ.isOptional_select h k
  | selectWith h k p => exact θ.isOptional_selectWith h k (p.replace θ)
  | _ => rfl

@[simp] theorem isIn_replace (p : Pattern) (vs : Members) : (p.replace θ).isIn vs = p.isIn vs := by
  by_cases h : p.isMatcher
  · rw [isIn_of_isMatcher h, isIn_of_isMatcher ((isMatcher_replace θ p).trans h)]
  · cases p <;> first | rfl | exact absurd rfl h

theorem all_isIn_replaceAll (ps : List Pattern) (vs : Members) :
    (replaceAll θ ps).all (isIn vs) = ps.all (isIn vs) := by
  rw [replaceAll_eq_map, List.all_map]
  congr 1
  funext p
  exact isIn_replace θ p vs

end Replace

end Pattern

/-! ## The plan of the replaced pattern -/

/-- The second plan is the first one with its tests replaced, and with writes that are related to those
of the first. -/
inductive Plan.Image (θ : Replacement)
    (W : List (SelectionKey × Capture) → List (SelectionKey × Capture) → Prop) : Plan → Plan → Prop where
  | every {writes writes' : List (SelectionKey × Capture)} {ts : List (Pattern × Value)}
      (hw : W writes writes') :
    Image θ W (.every writes ts) (.every writes' (ts.map fun t => (t.1.replace θ, t.2)))
  | each {p : Pattern} {v : Value} {vs : List Value} :
    Image θ W (.each p v vs) (.each (p.replace θ) v vs)
  | first {ps : List Pattern} {v : Value} :
    Image θ W (.first ps v) (.first (ps.map (Pattern.replace θ)) v)
  | refuse {p : Pattern} {v : Value} : Image θ W (.refuse p v) (.refuse (p.replace θ) v)
  | custom {m : CustomMatcher} {v : Value} : Image θ W (.custom m v) (.custom m v)

namespace Plan.Image

variable {θ : Replacement}
  {W : List (SelectionKey × Capture) → List (SelectionKey × Capture) → Prop} {a b : Plan}

theorem demand_eq (h : Image θ W a b) : b.demand = a.demand := by
  cases h <;> rfl

theorem tests_eq (h : Image θ W a b) : b.tests = a.tests.map fun t => (t.1.replace θ, t.2) := by
  cases h with
  | every | refuse | custom => rfl
  | each =>
    rw [tests, tests, List.map_map]
    rfl
  | first =>
    rw [tests, tests, List.map_map, List.map_map]
    rfl

theorem met_iff (h : Image θ W a b)
    (htests : ∀ t ∈ a.tests, (t.1.replace θ).isMatch t.2 = t.1.isMatch t.2) :
    b.demand.Met b.tests ↔ a.demand.Met a.tests := by
  rw [h.demand_eq, h.tests_eq]
  constructor
  · intro hb
    refine hb.congr (List.forall_mem_map.2 fun t ht => ?_) fun t ht => ?_
    · exact ⟨t, ht, htests t ht⟩
    · exact ⟨_, List.mem_map_of_mem ht, htests t ht⟩
  · intro ha
    refine ha.congr (fun t ht => ?_) (List.forall_mem_map.2 fun t ht => ?_)
    · exact ⟨_, List.mem_map_of_mem ht, (htests t ht).symm⟩
    · exact ⟨t, ht, (htests t ht).symm⟩

end Plan.Image

namespace Pattern

theorem mapM_map_result {α β γ : Type} (f : α → Option β) (g : β → γ) (l : List α) :
    (l.mapM fun a => (f a).map g) = (l.mapM f).map (List.map g) := by
  induction l with
  | nil => rfl
  | cons a l ih =>
    rw [List.mapM_cons, List.mapM_cons, ih]
    cases f a <;> cases l.mapM f <;> rfl

section Image

variable {θ : Replacement}
  {W : List (SelectionKey × Capture) → List (SelectionKey × Capture) → Prop}

theorem image_check (hnil : W [] []) (test : Bool) :
    Option.Rel (Plan.Image θ W) (Plan.check test) (Plan.check test) := by
  cases test with
  | true => exact .some (.every hnil)
  | false => exact .none

/-- Tests that are replaced one by one. -/
theorem image_tests (hnil : W [] []) {ts ts' : List (Pattern × Value)}
    (h : ts' = ts.map fun t => (t.1.replace θ, t.2)) :
    Option.Rel (Plan.Image θ W) (some (.every [] ts)) (some (.every [] ts')) := by
  subst h
  exact .some (.every hnil)

/-- A replacement that gives captures the plans of their images gives all patterns such plans. -/
theorem image_plan (hnil : W [] []) {p : Pattern}
    (hkeys : ∀ q ∈ p.parts, ∀ c : Capture, W (q.keys.map (·, c)) ((q.replace θ).keys.map (·, c)))
    (hselect : ∀ h k v, Option.Rel (Plan.Image θ W) ((select h k).plan v) ((θ.select h k).plan v))
    (hselectWith : ∀ h k q v, Option.Rel (Plan.Image θ W) ((selectWith h k q).plan v)
      ((θ.selectWith h k (q.replace θ)).plan v)) (v : Value) :
    Option.Rel (Plan.Image θ W) (p.plan v) ((p.replace θ).plan v) := by
  cases p with
  | literal | guard => exact image_check hnil _
  | select h k => exact hselect h k v
  | selectWith h k q => exact hselectWith h k q v
  | union _ ps =>
    rw [replace, replaceAll_eq_map]
    exact .some .first
  | not => exact .some .refuse
  | custom => exact .some .custom
  | intersection _ ps =>
    rw [replace, replaceAll_eq_map]
    refine image_tests hnil ?_
    rw [List.map_map, List.map_map]
    rfl
  | object fields =>
    rw [replace, replaceFields_eq_map, plan, plan]
    by_cases hv : v.isObjectLike
    · rw [if_pos hv, if_pos hv, List.mapM_map]
      -- Whether a field may be missing is read off its pattern, and a replacement keeps that.
      have hfields : ((fun f => (v.part? f.1 f.2.isOptional).map (f.2, ·)) ∘ fun f =>
            (f.1, f.2.replace θ) : String × Pattern → Option (Pattern × Value)) =
          fun f => ((v.part? f.1 f.2.isOptional).map (f.2, ·)).map fun t => (t.1.replace θ, t.2) := by
        funext f
        simp only [Function.comp_apply, isOptional_replace, Option.map_map]
        rfl
      rw [hfields, mapM_map_result]
      cases fields.mapM fun f => (v.part? f.1 f.2.isOptional).map (f.2, ·) with
      | none => exact .none
      | some ts => exact image_tests hnil rfl
    · rw [if_neg hv, if_neg hv]
      exact .none
  | tuple items =>
    obtain ⟨items⟩ := items
    rw [replace, replaceAll_eq_map, plan, plan]
    cases v.items? with
    | none => exact .none
    | some vs =>
      simp only [Option.bind_some, List.size_toArray, List.length_map]
      split
      · refine image_tests hnil ?_
        rw [List.zip_map_left]
        rfl
      · exact .none
  | map entries =>
    rw [replace, replaceEntries_eq_map, plan, plan]
    cases v.entries? with
    | none => exact .none
    | some es =>
      refine image_tests hnil ?_
      rw [List.map_map, List.map_map]
      rfl
  | set members =>
    rw [replace]
    -- The rule of a set pattern depends on its number of members, and on a single one being a matcher.
    rcases members with _ | ⟨p, _ | ⟨q, ps⟩⟩
    · rw [replaceAll, plan]
      cases v.members? with
      | none => exact .none
      | some vs => exact image_check hnil _
    · rw [replaceAll, replaceAll, plan, plan, isMatcher_replace]
      cases v.members? with
      | none => exact .none
      | some vs =>
        simp only [Option.bind_some, isIn_replace]
        split
        · refine image_tests hnil ?_
          rw [List.map_map]
          rfl
        · exact image_check hnil _
    · have hall (vs : Members) := all_isIn_replaceAll θ (p :: q :: ps) vs
      rw [replaceAll, replaceAll] at hall ⊢
      rw [plan, plan]
      cases v.members? with
      | none => exact .none
      | some vs =>
        rw [Option.bind_some, Option.bind_some, hall]
        exact image_check hnil _
  | optional h q =>
    have hq : q ∈ (optional h q).parts := List.mem_singleton_self q
    rw [replace, plan, plan]
    split
    · exact .some (.every (hkeys q hq .absent))
    · exact image_tests hnil rfl
  | array h q =>
    have hq : q ∈ (array h q).parts := List.mem_singleton_self q
    rw [replace, plan, plan]
    cases v.items? with
    | none => exact .none
    | some vs =>
      obtain ⟨vs⟩ := vs
      cases vs with
      | nil => exact .some (.every (hkeys q hq (.collected [])))
      | cons w ws => exact .some .each

/-- Captures have no influence on a match if their replacements have the same plans but for the
writes. -/
theorem isMatch_replace
    (himage : ∀ (p : Pattern) (v : Value),
      Option.Rel (Plan.Image θ W) (p.plan v) ((p.replace θ).plan v)) (p : Pattern) (v : Value) :
    (p.replace θ).isMatch v = p.isMatch v := by
  induction p using inductionOnParts generalizing v with
  | step p ih =>
    have hplan := himage p v
    rw [Bool.eq_iff_iff, isMatch_iff, isMatch_iff]
    generalize ha : p.plan v = a? at hplan
    generalize (p.replace θ).plan v = b? at hplan
    cases hplan with
    | none => simp
    | @some a b hab =>
      have htests : ∀ t ∈ a.tests, (t.1.replace θ).isMatch t.2 = t.1.isMatch t.2 :=
        fun t ht => ih t.1 (mem_parts_of_mem_tests ha ht) t.2
      simpa using hab.met_iff htests

end Image

end Pattern

/-! ## Erasing the captures -/

/-- No captures: in the place of the capture of any value comes the matcher of any value, and in the place
of a capture with an inner pattern the intersection of that pattern alone. -/
def Replacement.erasure : Replacement where
  select h _ := .guard h "any" fun _ => true
  selectWith h _ q := .intersection h [q]
  isMatcher_select _ _ := rfl
  isMatcher_selectWith _ _ _ := rfl
  isOptional_select _ _ := rfl
  isOptional_selectWith _ _ _ := rfl

namespace Pattern

/-- Whether the pattern is a capture. -/
def isCapture : Pattern → Bool
  | select .. | selectWith .. => true
  | _ => false

/-- The pattern with nothing captured. -/
def erase (p : Pattern) : Pattern := p.replace .erasure

theorem parts_erase (p : Pattern) : p.erase.parts = p.parts.map erase := by
  cases p with
  | object fields =>
    rw [erase, replace, replaceFields_eq_map, parts, parts, List.map_map, List.map_map]
    rfl
  | tuple items =>
    obtain ⟨items⟩ := items
    rw [erase, replace, replaceAll_eq_map]
    rfl
  | map entries =>
    rw [erase, replace, replaceEntries_eq_map, parts, parts, List.map_map, List.map_map]
    rfl
  | set ps | intersection _ ps | union _ ps =>
    rw [erase, replace, replaceAll_eq_map]
    rfl
  | _ => rfl

theorem isCapture_erase (p : Pattern) : p.erase.isCapture = false := by
  cases p with
  | tuple items =>
    obtain ⟨items⟩ := items
    rw [erase, replace]
    rfl
  | _ => rfl

/-- No capture is left, at any depth. -/
theorem everywhere_erase (p : Pattern) : p.erase.Everywhere fun q => q.isCapture = false := by
  induction p using inductionOnParts with
  | step p ih =>
    refine .of_parts (isCapture_erase p) ?_
    rw [parts_erase]
    exact List.forall_mem_map.2 ih

/-- **What is captured has no influence on what is matched.** A pattern and the one in which all
captures are replaced by patterns that capture nothing match the same values. -/
theorem isMatch_erase (p : Pattern) (v : Value) :
    p.erase.isMatch v = p.isMatch v ∧ p.erase.Everywhere fun q => q.isCapture = false := by
  refine ⟨isMatch_replace (W := fun _ _ => True) (fun q w => ?_) p v, everywhere_erase p⟩
  refine image_plan trivial (fun _ _ _ => trivial) (fun h k u => ?_) (fun h k q u => ?_) w
  · exact .some (.every trivial)
  · exact .some (.every trivial)

end Pattern

end ShapeMatch
