import ShapeMatch.Value.Render
import ShapeMatch.Proofs.Json.Numbers
import ShapeMatch.Proofs.Number.Nearest

/-!
# Proofs: the two texts of a number

JSON and the display write a number from a decimal each: JSON from the number itself if it is whole and
not too large, and from its shortest decimal else; the display always from its shortest decimal. Both
texts are read back as the number. They are one text if the decimals are one, and then but for a narrow
range of small numbers (`Value.texts_of_number`).
-/

namespace ShapeMatch

namespace Decimal

variable {n : Nat}

theorem point_ofNat (n : Nat) : (ofNat n 0).point = ((digitsOf n).length : Int) := Int.add_zero _

theorem plain_ofNat (n : Nat) : (ofNat n 0).plain = digitsOf n := by
  obtain ⟨k, hk⟩ := exists_zeros n 0
  have hlength := congrArg List.length hk
  rw [List.length_append, List.length_replicate] at hlength
  have hpos : 0 < (Nat.toDigits 10 n).length := Nat.length_toDigits_pos
  unfold plain
  rw [point_ofNat, digitsOf, if_neg (by omega)]
  dsimp only
  rw [Int.toNat_natCast, if_pos (by omega), hk]
  congr 2
  rw [List.length_append, List.length_replicate]
  omega

/-- A whole number that is not too large is written by JSON without an exponent. -/
theorem json_write_ofNat (hlt : n < pow10 21) : Layout.json.write (ofNat n 0) = digitsOf n := by
  have hmagnitude : (ofNat n 0).magnitude = ((digitsOf n).length : Int) - 1 := by
    rw [magnitude, point_ofNat]
  have hpos : 0 < (digitsOf n).length := Nat.length_toDigits_pos
  have hle : (digitsOf n).length ≤ 21 :=
    (Nat.length_toDigits_le_iff (by decide) (by decide)).2 hlt
  rw [Layout.write, if_pos, plain_ofNat]
  rw [hmagnitude, Layout.json]
  dsimp only
  omega

end Decimal

namespace Double

variable {x : Double}

/-- The decimal from which JSON writes a number. -/
def jsonDecimal (x : Double) : Decimal :=
  match x.toInt? with
  | some n => if n.natAbs < pow10 21 then .ofNat n.natAbs 0 else x.reading.shortest .even
  | none => x.reading.shortest .even

theorem isFinite_cases (hx : x.isFinite) : x.isNaN = false ∧ x.isInfinite = false := by
  rw [isFinite, decide_eq_true_eq] at hx
  rw [isNaN, isInfinite, decide_eq_false_iff_not, decide_eq_false_iff_not]
  omega

theorem negative_iff {n : Int} (hfinite : x.isFinite) (hx : x.isZero = false)
    (hn : x.toInt? = some n) : n < 0 ↔ x.negative := by
  have hunits := units_of_value_eq ((toInt?_eq_some_iff hfinite).1 hn)
  have hvalue := value_of_units_eq hunits
  rw [(toInt?_eq_some_iff hfinite).1 hn, Int.cast_inj] at hvalue
  have hpos := units_pos hx
  rw [hunits] at hpos
  have habs := Nat.pos_of_mul_pos_right hpos
  split at hvalue
  · rename_i hnegative
    exact iff_of_true (by omega) hnegative
  · rename_i hnegative
    exact iff_of_false (by omega) hnegative

/-- JSON writes a number from one decimal, whether it is whole or not. -/
theorem write_toJson (hfinite : x.isFinite) (hx : x.isZero = false) :
    x.toJson.write [] =
      if x.negative then '-' :: Layout.json.write x.jsonDecimal
      else Layout.json.write x.jsonDecimal := by
  have hdouble : (Json.double x).write [] =
      if x.negative then '-' :: Layout.json.write (x.reading.shortest .even)
      else Layout.json.write (x.reading.shortest .even) :=
    List.append_nil _
  rw [toJson, if_pos hfinite, jsonDecimal]
  cases hn : x.toInt? with
  | none => exact hdouble
  | some n =>
    dsimp only
    split
    · rename_i hlt
      rw [Json.write, List.append_nil, Json.writeWhole, Decimal.json_write_ofNat hlt]
      exact if_congr (negative_iff hfinite hx hn) rfl rfl
    · exact hdouble

theorem jsonDecimal_cases (hfinite : x.isFinite) :
    (∃ n : Int, x.value = n ∧ n.natAbs < 10 ^ 21 ∧ x.jsonDecimal = .ofNat n.natAbs 0) ∨
      ((∀ n : Int, x.value = n → 10 ^ 21 ≤ n.natAbs) ∧
        x.jsonDecimal = x.reading.shortest .even) := by
  have hlimit : pow10 21 = 10 ^ 21 := rfl
  rw [jsonDecimal]
  cases hn : x.toInt? with
  | none =>
    refine .inr ⟨fun n hvalue => ?_, rfl⟩
    rw [(toInt?_eq_some_iff hfinite).2 hvalue] at hn
    contradiction
  | some n =>
    have hvalue := (toInt?_eq_some_iff hfinite).1 hn
    dsimp only
    split
    · rename_i hlt
      exact .inl ⟨n, hvalue, hlimit ▸ hlt, rfl⟩
    · rename_i hlt
      refine .inr ⟨fun m hm => ?_, rfl⟩
      rw [← Int.cast_inj.1 (hvalue.symm.trans hm), ← hlimit]
      exact Nat.le_of_not_lt hlt

/-- The decimal of a whole number is worth the number. -/
theorem signed_natAbs {n : Int} (hn : x.value = n) : signed x.negative n.natAbs = x.value := by
  rw [value, magnitude_of_units_eq (units_of_value_eq hn)]

theorem isNormal_jsonDecimal (hfinite : x.isFinite) (hx : x.isZero = false) :
    x.jsonDecimal.IsNormal := by
  rcases jsonDecimal_cases hfinite with ⟨n, hn, -, heq⟩ | ⟨-, heq⟩
  · have hpos := units_pos hx
    rw [units_of_value_eq hn] at hpos
    rw [heq]
    exact Decimal.isNormal_ofNat (Nat.pos_of_mul_pos_right hpos).ne' 0
  · rw [heq]
    exact isNormal_shortest hx .even

theorem isReadFrom_jsonDecimal (hfinite : x.isFinite) (hx : x.isZero = false) :
    x.IsReadFrom (signed x.negative x.jsonDecimal.value) := by
  rcases jsonDecimal_cases hfinite with ⟨n, hn, -, heq⟩ | ⟨-, heq⟩
  · rw [heq, Decimal.value_ofNat, zpow_zero, mul_one, signed_natAbs hn]
    exact x.isReadFrom_value
  · rw [heq]
    exact isReadFrom_shortest hx .even

end Double

namespace Layout

variable {d e : Decimal}

/-- The two styles differ where JSON starts to write an exponent one power of ten earlier. -/
theorem json_write_eq_display_write_iff (hd : d.IsNormal) (he : e.IsNormal) :
    json.write d = display.write e ↔
      d.value = e.value ∧ ¬ (10 ^ (-6 : Int) ≤ d.value ∧ d.value < 10 ^ (-5 : Int)) := by
  have hplain : (json.IsPlain d ↔ display.IsPlain d) ↔ d.magnitude ≠ -6 := by
    simp only [IsPlain, json, display]
    omega
  have hrange := hd.magnitude_eq_iff (m := -6)
  rw [show (-6 : Int) + 1 = -5 from rfl] at hrange
  rw [write_eq_write_iff hd he, hplain, ne_eq, hrange]
  refine and_congr_left fun _ => ⟨fun h => h ▸ rfl, fun h => hd.eq_of_value_eq he h⟩

end Layout

namespace Double

variable {x : Double}

/-- How the JSON text and the display of a number, which say `p` and `q`, stand to the number and to
each other. -/
structure HasTexts (x : Double) (text display : String) (p q : Rat) : Prop where
  text_says : Document.read text = some (.number p)
  display_says : Document.read display = some (.number q)
  text_back : x.IsReadFrom p
  display_back : x.IsReadFrom q
  /-- JSON says whole numbers exactly, as long as it writes them out. -/
  text_whole : ∀ n : Int, x.value = n → n.natAbs < 10 ^ 21 → p = n
  /-- If the two say different things about another number, these are equally near to it. -/
  near : (∀ n : Int, x.value = n → 10 ^ 21 ≤ n.natAbs) → p = q ∨ |x.value - p| = |x.value - q|
  /-- Of the numbers that they say the same of, only some small ones have two texts. -/
  same_iff : text = display ↔ p = q ∧ ¬ (10 ^ (-6 : Int) ≤ |p| ∧ |p| < 10 ^ (-5 : Int))
  same_of_whole : ∀ n : Int, x.value = n → n.natAbs < 2 ^ 53 → text = display

theorem hasTexts_zero (hx : x.isZero) :
    x.toJson.text = "0" ∧ x.display = "0" ∧ x.HasTexts "0" "0" 0 0 := by
  have hunsigned : x.unsigned = 0 := by simpa [isZero] using hx
  have hunits : x.units = 0 * unitsPerOne := by
    rw [units, significand, exponent, fraction, hunsigned, if_pos (Nat.zero_div _), Nat.zero_mod,
      Nat.zero_mul, Nat.zero_mul]
  have hvalue : x.value = 0 := by
    rw [value_of_units_eq hunits]
    split <;> rfl
  have hfinite : x.isFinite := by
    rw [isFinite, hunsigned]
    decide
  have htext : x.toJson.text = "0" := by
    have hzero := (toInt?_eq_some_iff (n := 0) hfinite).2 hvalue
    rw [toJson, if_pos hfinite, hzero]
    rfl
  have hdisplay : x.display = "0" := by
    obtain ⟨hnan, hinfinite⟩ := isFinite_cases hfinite
    rw [display, hnan, hinfinite, hx]
    rfl
  have hsays : Document.read "0" = some (.number 0) :=
    Document.isText_iff.1 (Json.isText_text (.whole 0))
  have hback : x.IsReadFrom 0 := hvalue ▸ x.isReadFrom_value
  refine ⟨htext, hdisplay, hsays, hsays, hback, hback, ?_, fun _ => .inl rfl, ?_, fun _ _ _ => rfl⟩
  · intro n hn _
    rw [← hn, hvalue]
  · refine iff_of_true rfl ⟨rfl, fun h => ?_⟩
    rw [abs_zero] at h
    exact absurd h.1 (not_le.2 (Decimal.ten_zpow_pos _))

/-- The decimals of a whole number, if it is moderate enough, are worth that number. -/
theorem value_jsonDecimal {n : Int} (hfinite : x.isFinite) (hn : x.value = n)
    (hlt : n.natAbs < 10 ^ 21) : x.jsonDecimal.value = n.natAbs := by
  rcases jsonDecimal_cases hfinite with ⟨m, hm, -, heq⟩ | ⟨hlarge, -⟩
  · rw [heq, Decimal.value_ofNat, zpow_zero, mul_one,
      Int.cast_inj.1 (hm.symm.trans hn)]
  · exact absurd hlt (Nat.not_lt.2 (hlarge n hn))

theorem hasTexts (hfinite : x.isFinite) (hx : x.isZero = false) :
    x.HasTexts x.toJson.text x.display (signed x.negative x.jsonDecimal.value)
      (signed x.negative (x.reading.shortest .up).value) := by
  have hd := isNormal_jsonDecimal hfinite hx
  have he := isNormal_shortest hx .up
  obtain ⟨hnan, hinfinite⟩ := isFinite_cases hfinite
  have htext : x.toJson.text = String.ofList (if x.negative then
      '-' :: Layout.json.write x.jsonDecimal else Layout.json.write x.jsonDecimal) := by
    rw [Json.text, write_toJson hfinite hx]
  have hdisplay : x.display = String.ofList (if x.negative then
      '-' :: Layout.display.write (x.reading.shortest .up)
      else Layout.display.write (x.reading.shortest .up)) := by
    rw [display, hnan, hinfinite, hx]
    rfl
  have hsame : x.toJson.text = x.display ↔
      Layout.json.write x.jsonDecimal = Layout.display.write (x.reading.shortest .up) := by
    rw [htext, hdisplay, String.ofList_inj]
    split
    · rw [List.cons_inj_right]
    · exact Iff.rfl
  constructor
  · rw [htext]
    exact Document.isText_iff.1 ((Layout.isMagnitude_write _ hd).isNumber _).isText
  · rw [hdisplay]
    exact Document.isText_iff.1 ((Layout.isMagnitude_write _ he).isNumber _).isText
  · exact isReadFrom_jsonDecimal hfinite hx
  · exact isReadFrom_shortest hx .up
  · intro n hn hlt
    rw [value_jsonDecimal hfinite hn hlt, signed_natAbs hn, hn]
  · intro hlarge
    rcases jsonDecimal_cases hfinite with ⟨n, hn, hlt, -⟩ | ⟨-, heq⟩
    · exact absurd hlt (Nat.not_lt.2 (hlarge n hn))
    · rw [heq, signed_inj, value, abs_signed_sub_signed, abs_signed_sub_signed]
      rcases shortest_tie hx with hup | hnear
      · exact .inl (by rw [hup])
      · exact .inr hnear.symm
  · rw [hsame, Layout.json_write_eq_display_write_iff hd he, signed_inj,
      abs_signed _ hd.value_pos.le]
  · intro n hn hlt
    have hvalue := value_jsonDecimal hfinite hn (by omega)
    have hone : (1 : Rat) ≤ x.jsonDecimal.value := by
      have hpos := hd.value_pos
      rw [hvalue] at hpos ⊢
      exact_mod_cast hpos
    rw [hsame, Layout.json_write_eq_display_write_iff hd he, hvalue,
      shortest_of_whole hx (units_of_value_eq hn) hlt, ← hvalue]
    refine ⟨rfl, fun h => ?_⟩
    have hsmall : (10 : Rat) ^ (-5 : Int) < 1 := by norm_num
    linarith

end Double

namespace Value

variable {x : Double}

/-- **The two texts of a number.** A finite number has a JSON text and a display, both say a number,
and both are read back as the double. JSON says a whole number below `10 ^ 21` exactly; otherwise the
two say the same or numbers that are equally near. They are the same text exactly if they say the same
and JSON does not write an exponent that the display does not write, and so for all whole numbers below
`2 ^ 53`. -/
theorem texts_of_number (hfinite : x.isFinite) :
    ∃ text p q, (number x).jsonText = .ok text ∧ x.HasTexts text (number x).display p q := by
  by_cases hx : x.isZero
  · obtain ⟨htext, hdisplay, hzero⟩ := Double.hasTexts_zero hx
    refine ⟨"0", 0, 0, ?_, ?_⟩
    · rw [jsonText, toJson]
      exact congrArg Except.ok htext
    · rw [display, hdisplay]
      exact hzero
  · have htexts := Double.hasTexts hfinite (Bool.eq_false_iff.2 hx)
    rw [← display] at htexts
    exact ⟨x.toJson.text, _, _, by rw [jsonText, toJson]; rfl, htexts⟩

/-- JSON has all digits of this number, and the display the shortest ones. -/
theorem texts_of_two_pow_55 :
    Double.isFinite ⟨0x4360000000000000⟩ ∧
      ∃ p q, Double.HasTexts ⟨0x4360000000000000⟩ "36028797018963968" "36028797018963970" p q := by
  have hfinite : Double.isFinite ⟨0x4360000000000000⟩ := by decide
  obtain ⟨text, p, q, htext, htexts⟩ := texts_of_number hfinite
  have hjson : (number ⟨0x4360000000000000⟩).jsonText = .ok "36028797018963968" := by
    decide +kernel
  have hdisplay : (number ⟨0x4360000000000000⟩).display = "36028797018963970" := by
    decide +kernel
  obtain rfl := Except.ok.inj (htext.symm.trans hjson)
  rw [hdisplay] at htexts
  exact ⟨hfinite, p, q, htexts⟩

/-- There are numbers with two texts: one with more digits than are needed, one half way between two
shortest decimals, and one that JSON writes with an exponent. -/
theorem texts_differ :
    ¬ (∀ x : Double, x.isFinite → (number x).jsonText = .ok (number x).display) ∧
    (Double.isFinite ⟨0x4360000000000000⟩ ∧
      (number ⟨0x4360000000000000⟩).jsonText = .ok "36028797018963968" ∧
      (number ⟨0x4360000000000000⟩).display = "36028797018963970") ∧
    (Double.isFinite ⟨0x4310000000000001⟩ ∧
      (number ⟨0x4310000000000001⟩).jsonText = .ok "1125899906842624.2" ∧
      (number ⟨0x4310000000000001⟩).display = "1125899906842624.3") ∧
    (Double.isFinite ⟨0x3eb0c6f7a0b5ed8d⟩ ∧
      (number ⟨0x3eb0c6f7a0b5ed8d⟩).jsonText = .ok "1e-6" ∧
      (number ⟨0x3eb0c6f7a0b5ed8d⟩).display = "0.000001") := by
  refine ⟨fun h => ?_, by decide +kernel⟩
  have hone := h ⟨0x4360000000000000⟩ (by decide)
  have htwo : (number ⟨0x4360000000000000⟩).jsonText ≠
      .ok (number ⟨0x4360000000000000⟩).display := by
    decide +kernel
  exact htwo hone

end Value

end ShapeMatch
