import ShapeMatch.Proofs.Json.Unambiguous
import ShapeMatch.Proofs.Json.Writer
import ShapeMatch.Proofs.Value.Rendering
import ShapeMatch.Proofs.Number.Exact

/-!
# Proofs: the JSON view of a value

The view of a value is the document that JSON is meant to keep of it (`Value.HasView`), and there is no
more than one. If a value exposes no big integer and no number but whole ones of moderate size, it has
a JSON text, and the reader finds the view in it, with nothing lost (`Value.view_of_jsonText`).
-/

namespace ShapeMatch

namespace Value

variable {v w : Value}

/-- A field that holds the value is shown: the value is neither `undefined` nor a symbol. -/
def IsShown (v : Value) : Prop := v ≠ undefined ∧ ∀ s, v ≠ symbol s

/-- The fields that are shown are those that JSON does not leave out. -/
theorem isShown_iff : v.IsShown ↔ ¬ v.isHidden := by
  rw [isHidden_iff, not_or, not_exists, IsShown]

instance : DecidablePred IsShown := fun _ => decidable_of_iff _ isShown_iff.symm

/-- The fields that are shown. -/
def shown (fields : List (String × Value)) : List (String × Value) :=
  fields.filter fun f => f.2.IsShown

/-- The document that JSON is meant to keep of a value. In an array every element keeps its place, a
record or an instance drops the fields that hold `undefined` or a symbol, and maps and sets show
nothing of what is in them. -/
inductive HasView : Value → Document → Prop where
  | undefined : HasView undefined .null
  | null : HasView null .null
  | symbol (s : Symbol) : HasView (symbol s) .null
  | bool (b : Bool) : HasView (bool b) (.bool b)
  | notFinite {x : Double} (h : x.isFinite = false) : HasView (number x) .null
  | whole {x : Double} {n : Int} (hx : x.isFinite) (h : x.value = n) :
    HasView (number x) (.number n)
  | string (s : String) : HasView (string s) (.string s)
  | array {r : Ref} {items : Array Value} {ds : List Document}
      (h : List.Forall₂ HasView items.toList ds) : HasView (array r items) (.array ds)
  | object {r : Ref} {fields : Record} {ms : List (String × Document)}
      (hnames : (shown fields.toList).map Prod.fst = ms.map Prod.fst)
      (h : List.Forall₂ HasView ((shown fields.toList).map Prod.snd) (ms.map Prod.snd)) :
    HasView (object r fields) (.object ms)
  | inst {r : Ref} {c : Class} {fields : Record} {ms : List (String × Document)}
      (hnames : (shown fields.toList).map Prod.fst = ms.map Prod.fst)
      (h : List.Forall₂ HasView ((shown fields.toList).map Prod.snd) (ms.map Prod.snd)) :
    HasView (inst r c fields) (.object ms)
  | map {r : Ref} {entries : Mapping} : HasView (map r entries) (.object [])
  | set {r : Ref} {members : Members} : HasView (set r members) (.object [])

/-! ## There is one view -/

theorem forall₂_unique {α β : Type} {R : α → β → Prop} {as : List α} {bs cs : List β}
    (h : ∀ a ∈ as, ∀ b c, R a b → R a c → b = c) (hb : List.Forall₂ R as bs)
    (hc : List.Forall₂ R as cs) : bs = cs := by
  induction hb generalizing cs with
  | nil =>
    cases hc
    rfl
  | cons hab _ ih =>
    cases hc with
    | cons hac hrest =>
      rw [h _ List.mem_cons_self _ _ hab hac,
        ih (fun a ha => h a (List.mem_cons_of_mem _ ha)) hrest]

theorem eq_of_map_eq {α β : Type} {as bs : List (α × β)}
    (hfst : as.map Prod.fst = bs.map Prod.fst) (hsnd : as.map Prod.snd = bs.map Prod.snd) :
    as = bs := by
  rw [← List.zip_unzip as, ← List.zip_unzip bs, List.unzip_eq_map, List.unzip_eq_map, hfst, hsnd]

theorem mem_of_mem_shown {fields : Record} (h : w ∈ (shown fields.toList).map Prod.snd) :
    w ∈ fields.toList.map Prod.snd := by
  obtain ⟨f, hf, rfl⟩ := List.mem_map.1 h
  exact List.mem_map_of_mem (List.mem_of_mem_filter hf)

/-- The members of a document that shows fields are settled by the views of the fields. -/
theorem members_unique {fields : Record} {ms ns : List (String × Document)}
    (h : ∀ w ∈ fields.toList.map Prod.snd, ∀ d e, w.HasView d → w.HasView e → d = e)
    (hnames : (shown fields.toList).map Prod.fst = ms.map Prod.fst)
    (hms : List.Forall₂ HasView ((shown fields.toList).map Prod.snd) (ms.map Prod.snd))
    (hnames' : (shown fields.toList).map Prod.fst = ns.map Prod.fst)
    (hns : List.Forall₂ HasView ((shown fields.toList).map Prod.snd) (ns.map Prod.snd)) :
    ms = ns :=
  eq_of_map_eq (hnames.symm.trans hnames')
    (forall₂_unique (fun w hw => h w (mem_of_mem_shown hw)) hms hns)

theorem HasView.unique {d e : Document} (hd : v.HasView d) (he : v.HasView e) : d = e := by
  induction v using inductionOnOpenParts generalizing d e with
  | step v ih =>
    have hparts : ∀ w ∈ v.openParts, ∀ d e, w.HasView d → w.HasView e → d = e :=
      fun w hw d e => ih w hw
    cases hd with
    | notFinite h =>
      cases he with
      | notFinite _ => rfl
      | whole hx _ => exact absurd hx (Bool.eq_false_iff.1 h)
    | whole hx h =>
      cases he with
      | notFinite h' => exact absurd hx (Bool.eq_false_iff.1 h')
      | whole _ h' => rw [← h, h']
    | array h =>
      cases he with
      | array h' => rw [forall₂_unique hparts h h']
    | object hnames h =>
      cases he with
      | object hnames' h' => rw [members_unique hparts hnames h hnames' h']
    | inst hnames h =>
      cases he with
      | inst hnames' h' => rw [members_unique hparts hnames h hnames' h']
    | undefined | null | symbol | bool | string | map | set =>
      cases he
      rfl

/-! ## The view is written -/

/-- JSON is made of the value, and says what the value has for a view. -/
def IsViewed (v : Value) : Prop := ∃ j d, v.toJson = .ok j ∧ j.Says d ∧ v.HasView d

theorem toJsonItems_of_isViewed {vs : List Value} (h : ∀ v ∈ vs, v.IsViewed) :
    ∃ js ds, toJsonItems vs = .ok js ∧ List.Forall₂ Json.Says js ds ∧
      List.Forall₂ HasView vs ds := by
  induction vs with
  | nil => exact ⟨[], [], rfl, .nil, .nil⟩
  | cons v vs ih =>
    obtain ⟨j, d, hj, hsays, hview⟩ := h v List.mem_cons_self
    obtain ⟨js, ds, hjs, hall, hviews⟩ := ih fun w hw => h w (List.mem_cons_of_mem _ hw)
    refine ⟨j :: js, d :: ds, ?_, .cons hsays hall, .cons hview hviews⟩
    rw [toJsonItems, hj, hjs]
    rfl

theorem toJsonFields_of_isViewed {fs : List (String × Value)} (h : ∀ f ∈ fs, f.2.IsViewed) :
    ∃ (js : List (String × Json)) (ms : List (String × Document)), toJsonFields fs = .ok js ∧
      js.map Prod.fst = ms.map Prod.fst ∧
      List.Forall₂ Json.Says (js.map Prod.snd) (ms.map Prod.snd) ∧
      (shown fs).map Prod.fst = ms.map Prod.fst ∧
      List.Forall₂ HasView ((shown fs).map Prod.snd) (ms.map Prod.snd) := by
  induction fs with
  | nil => exact ⟨[], [], rfl, rfl, .nil, rfl, .nil⟩
  | cons f fs ih =>
    obtain ⟨k, v⟩ := f
    obtain ⟨js, ms, hjs, hnames, hall, hshown, hviews⟩ :=
      ih fun g hg => h g (List.mem_cons_of_mem _ hg)
    by_cases hv : v.isHidden
    · have hdrop : shown ((k, v) :: fs) = shown fs :=
        List.filter_cons_of_neg (by simpa [isShown_iff] using hv)
      rw [toJsonFields, if_pos hv, hdrop]
      exact ⟨js, ms, hjs, hnames, hall, hshown, hviews⟩
    · obtain ⟨j, d, hj, hsays, hview⟩ := h (k, v) List.mem_cons_self
      have hkeep : shown ((k, v) :: fs) = (k, v) :: shown fs :=
        List.filter_cons_of_pos (by simpa [isShown_iff] using hv)
      rw [toJsonFields, if_neg hv, hkeep, hj, hjs]
      refine ⟨(k, j) :: js, (k, d) :: ms, rfl, ?_, .cons hsays hall, ?_, .cons hview hviews⟩
      · rw [List.map_cons, List.map_cons, hnames]
      · rw [List.map_cons, List.map_cons, hshown]

/-- The number is not finite, or a whole number that JSON writes out. -/
def IsPlainNumber (x : Double) : Prop :=
  x.isFinite = false ∨ ∃ n : Int, x.value = n ∧ n.natAbs < 10 ^ 21

theorem isViewed_number {x : Double} (h : IsPlainNumber x) : (number x).IsViewed := by
  have hnotFinite (hx : x.isFinite = false) : (number x).IsViewed := by
    refine ⟨.null, .null, ?_, .null, .notFinite hx⟩
    rw [toJson, Double.toJson, hx]
    rfl
  rcases h with hx | ⟨n, hn, hlt⟩
  · exact hnotFinite hx
  · by_cases hx : x.isFinite
    · have hlimit : n.natAbs < pow10 21 := hlt
      have hwhole := (Double.toInt?_eq_some_iff hx).2 hn
      refine ⟨.whole n, .number n, ?_, .whole n, .whole hx hn⟩
      simp only [toJson, Double.toJson, if_pos hx, hwhole, if_pos hlimit]
    · exact hnotFinite (Bool.eq_false_iff.2 hx)

theorem isViewed_array {r : Ref} {items : Array Value} (h : ∀ w ∈ items.toList, w.IsViewed) :
    (array r items).IsViewed := by
  obtain ⟨js, ds, hjs, hall, hviews⟩ := toJsonItems_of_isViewed h
  refine ⟨.array js, .array ds, ?_, .array hall, .array hviews⟩
  rw [toJson, hjs]
  rfl

/-- What is said of a record or an instance is said of its fields. -/
theorem exists_members {fields : Record} (h : ∀ w ∈ fields.toList.map Prod.snd, w.IsViewed) :
    ∃ js ms, toJsonFields fields.toList = .ok js ∧ (Json.object js).Says (.object ms) ∧
      (shown fields.toList).map Prod.fst = ms.map Prod.fst ∧
      List.Forall₂ HasView ((shown fields.toList).map Prod.snd) (ms.map Prod.snd) := by
  obtain ⟨js, ms, hjs, hnames, hall, hshown, hviews⟩ :=
    toJsonFields_of_isViewed fun f hf => h f.2 (List.mem_map_of_mem hf)
  exact ⟨js, ms, hjs, .object hnames hall, hshown, hviews⟩

theorem isViewed (hbigint : ∀ n, ¬ v.Exposes (bigint n))
    (hnumber : ∀ x, v.Exposes (number x) → IsPlainNumber x) : v.IsViewed := by
  induction v using inductionOnOpenParts with
  | step v ih =>
    have hparts : ∀ w ∈ v.openParts, w.IsViewed := fun w hw =>
      ih w hw (fun n hn => hbigint n (.of_part hw hn)) fun x hx => hnumber x (.of_part hw hx)
    cases v with
    | undefined => exact ⟨.null, .null, rfl, .null, .undefined⟩
    | null => exact ⟨.null, .null, rfl, .null, .null⟩
    | symbol s => exact ⟨.null, .null, rfl, .null, .symbol s⟩
    | bool b => exact ⟨.bool b, .bool b, rfl, .bool b, .bool b⟩
    | number x => exact isViewed_number (hnumber x (.refl _))
    | bigint n => exact absurd (.refl _) (hbigint n)
    | string s => exact ⟨.string s, .string s, rfl, .string s, .string s⟩
    | array r items => exact isViewed_array hparts
    | object r fields =>
      obtain ⟨js, ms, hjs, hsays, hnames, hviews⟩ := exists_members hparts
      refine ⟨.object js, .object ms, ?_, hsays, .object hnames hviews⟩
      rw [toJson]
      exact congrArg (Except.map Json.object) hjs
    | inst r c fields =>
      obtain ⟨js, ms, hjs, hsays, hnames, hviews⟩ := exists_members hparts
      refine ⟨.object js, .object ms, ?_, hsays, .inst hnames hviews⟩
      rw [toJson]
      exact congrArg (Except.map Json.object) hjs
    | map r entries => exact ⟨.object [], .object [], rfl, .object rfl .nil, .map⟩
    | set r members => exact ⟨.object [], .object [], rfl, .object rfl .nil, .set⟩

/-- **JSON keeps the view of a value.** If a value exposes no big integer, and no numbers but whole
ones of moderate size and those that are not finite, it has a JSON text. By the grammar that says one
document, which is read from it, and which is the one view of the value. -/
theorem view_of_jsonText (hbigint : ∀ n, ¬ v.Exposes (bigint n))
    (hnumber : ∀ x, v.Exposes (number x) → IsPlainNumber x) :
    ∃ text d, v.jsonText = .ok text ∧ (∀ e, Document.IsText text e ↔ e = d) ∧
      Document.read text = some d ∧ ∀ e, v.HasView e ↔ e = d := by
  obtain ⟨j, d, hj, hsays, hview⟩ := isViewed hbigint hnumber
  have hread := Document.isText_iff.1 (Json.isText_text hsays)
  refine ⟨j.text, d, ?_, fun e => ?_, hread, fun e => ⟨?_, ?_⟩⟩
  · rw [jsonText, hj]
    rfl
  · rw [Document.isText_iff, hread, Option.some_inj]
    exact eq_comm
  · intro he
    exact he.unique hview
  · rintro rfl
    exact hview

/-- A text that has to be escaped, a field that is left out, and a large number. -/
def mixedRecord : Record :=
  Table.ofList [("a\"\n", string "\\\x01é"), ("gone", undefined),
    ("size", number ⟨0xc3b0000000000000⟩)]

theorem toList_mixedRecord :
    mixedRecord.toList = [("a\"\n", string "\\\x01é"), ("gone", undefined),
      ("size", number ⟨0xc3b0000000000000⟩)] := by
  simp [mixedRecord, Table.ofList, Table.insert, Table.exchange, Table.empty, Table.toList,
    Keyed.key]

/-- The record between values that JSON has no words for, and a zero with a sign. -/
def mixedValue : Value :=
  array ⟨0⟩ #[undefined, object ⟨1⟩ mixedRecord, number .nan, map ⟨2⟩ ∅,
    number ⟨0x8000000000000000⟩]

def mixedDocument : Document :=
  .array [.null,
    .object [("a\"\n", .string "\\\x01é"), ("size", .number ((-2 ^ 60 : Int) : Rat))],
    .null, .object [], .number ((0 : Int) : Rat)]

theorem eq_of_exposes (hparts : v.openParts = []) (h : v.Exposes w) : w = v := by
  rcases exposes_iff.1 h with rfl | ⟨u, hu, -⟩
  · rfl
  · rw [hparts] at hu
    contradiction

theorem exposes_mixedValue (h : mixedValue.Exposes w) :
    w ∈ [mixedValue, object ⟨1⟩ mixedRecord, undefined, string "\\\x01é",
      number ⟨0xc3b0000000000000⟩, number .nan, map ⟨2⟩ ∅, number ⟨0x8000000000000000⟩] := by
  rcases exposes_iff.1 h with rfl | ⟨u, hu, h⟩
  · exact List.mem_cons_self
  · simp only [mixedValue, openParts, List.mem_cons, List.not_mem_nil, or_false] at hu
    rcases hu with rfl | rfl | rfl | rfl | rfl
    · simp [eq_of_exposes rfl h]
    · rcases exposes_iff.1 h with rfl | ⟨u, hu, h⟩
      · simp
      · simp only [openParts, toList_mixedRecord, List.map_cons, List.map_nil, List.mem_cons,
          List.not_mem_nil, or_false] at hu
        rcases hu with rfl | rfl | rfl <;> simp [eq_of_exposes rfl h]
    · simp [eq_of_exposes rfl h]
    · simp [eq_of_exposes rfl h]
    · simp [eq_of_exposes rfl h]

theorem view_of_jsonText_mixedValue :
    (∀ n, ¬ mixedValue.Exposes (bigint n)) ∧
      (∀ x, mixedValue.Exposes (number x) → IsPlainNumber x) ∧
      ∃ text, mixedValue.jsonText = .ok text ∧
        (∀ e, Document.IsText text e ↔ e = mixedDocument) ∧
        Document.read text = some mixedDocument := by
  have hbigint : ∀ n, ¬ mixedValue.Exposes (bigint n) := by
    intro n hn
    have h := exposes_mixedValue hn
    simp [mixedValue] at h
  have hsize : Double.value ⟨0xc3b0000000000000⟩ = ((-2 ^ 60 : Int) : Rat) := by decide +kernel
  have hzero : Double.value ⟨0x8000000000000000⟩ = ((0 : Int) : Rat) := by decide +kernel
  have hnumber : ∀ x, mixedValue.Exposes (number x) → IsPlainNumber x := by
    intro x hx
    have h := exposes_mixedValue hx
    simp only [mixedValue, number.injEq, List.mem_cons, List.not_mem_nil, or_false, reduceCtorEq,
      false_or] at h
    rcases h with rfl | rfl | rfl
    · exact .inr ⟨_, hsize, by decide⟩
    · exact .inl (by decide)
    · exact .inr ⟨_, hzero, by decide⟩
  obtain ⟨text, d, htext, hsays, hread, hunique⟩ := view_of_jsonText hbigint hnumber
  have hview : mixedValue.HasView mixedDocument := by
    have hrecord : (object ⟨1⟩ mixedRecord).HasView (.object [("a\"\n", .string "\\\x01é"),
        ("size", .number ((-2 ^ 60 : Int) : Rat))]) := by
      constructor
      · rw [toList_mixedRecord]
        rfl
      · rw [toList_mixedRecord]
        exact .cons (.string _) (.cons (.whole (by decide) hsize) .nil)
    exact .array (.cons .undefined (.cons hrecord (.cons (.notFinite (by decide))
      (.cons .map (.cons (.whole (by decide) hzero) .nil)))))
  obtain rfl := (hunique _).1 hview
  exact ⟨hbigint, hnumber, text, htext, hsays, hread⟩

end Value

end ShapeMatch
