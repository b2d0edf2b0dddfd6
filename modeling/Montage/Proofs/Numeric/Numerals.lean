import Mathlib.Tactic.FieldSimp
import Mathlib.Tactic.Ring
import Montage.Numeric.Decimal
import Montage.Proofs.Numeric.Accuracy
import Montage.Proofs.Text.Patterns

/-!
# The value of numerals

Which number a decimal numeral stands for. The numeral of a double in a filter graph stands for the
nearest multiple of a thousandth.
-/

namespace Montage.Numeric

/-- The number that a numeral without a sign stands for: digits, and behind a point more digits. -/
def unsignedValue? (cs : List Char) : Option ℚ :=
  let whole := cs.takeWhile Char.isDigit
  if whole = [] then none
  else match cs.dropWhile Char.isDigit with
    | [] => some (Nat.ofDigitChars 10 whole 0)
    | '.' :: fraction =>
      if fraction ≠ [] ∧ fraction.all Char.isDigit then
        some (Nat.ofDigitChars 10 whole 0 + Nat.ofDigitChars 10 fraction 0 / 10 ^ fraction.length)
      else none
    | _ => none

/-- The number that a numeral with or without a minus stands for. -/
def signedValue? : List Char → Option ℚ
  | '-' :: rest => (unsignedValue? rest).map (-·)
  | rest => unsignedValue? rest

/-- The number that a decimal numeral stands for. -/
def decimalValue? (text : String) : Option ℚ := signedValue? text.toList

/-! ### Digits -/

private theorem toList_zeroPadded (width n : Nat) :
    (zeroPadded width (toString n)).toList =
      List.replicate (width - (Nat.toDigits 10 n).length) '0' ++ Nat.toDigits 10 n := by
  rw [zeroPadded, String.toList_append, String.toList_ofList, Nat.toString_eq_repr,
    ← String.length_toList, Nat.toList_repr]

/-- Digits filled up to a width are still those of the number. -/
theorem zeroPadded_digits {width : Nat} (n : Nat) (hw : 0 < width) :
    width ≤ (zeroPadded width (toString n)).toList.length ∧
      (n < 10 ^ width → (zeroPadded width (toString n)).toList.length = width) ∧
      (zeroPadded width (toString n)).toList.all Char.isDigit = true ∧
      Nat.ofDigitChars 10 (zeroPadded width (toString n)).toList 0 = n := by
  have hlength := Nat.length_toDigits_le_iff (n := n) (b := 10) (by decide) hw
  rw [toList_zeroPadded]
  refine ⟨?_, fun h ↦ ?_, ?_, ?_⟩
  · rw [List.length_append, List.length_replicate]
    omega
  · have hshort := hlength.mpr h
    rw [List.length_append, List.length_replicate]
    omega
  · rw [List.all_eq_true]
    intro c hc
    rcases List.mem_append.mp hc with hc | hc
    · rw [List.eq_of_mem_replicate hc]
      rfl
    · exact Nat.isDigit_of_mem_toDigits (by decide) (by decide) hc
  · rw [Nat.ofDigitChars_append, Nat.ofDigitChars_replicate_zero, Nat.mul_zero,
      Nat.ofDigitChars_ten_toDigits]

/-- Decimals with the point in front of them. Without decimals there is no point. -/
def pointed : List Char → List Char
  | [] => []
  | decimals => '.' :: decimals

/-- The last digit of a number that is no multiple of ten is not zero. -/
private theorem getLast?_digits {digits : List Char} (h : Nat.ofDigitChars 10 digits 0 % 10 ≠ 0) :
    digits.getLast? ≠ some '0' := by
  intro hlast
  obtain ⟨front, rfl⟩ := List.getLast?_eq_some_iff.mp hlast
  rw [Nat.ofDigitChars_append, Nat.ofDigitChars_cons, Nat.ofDigitChars_nil] at h
  exact h (by simp)

/-- The text of a fraction is a point and at most three digits that stand for it, the last of them
not zero. -/
theorem fractionText_digits {thousandths : Nat} (h : thousandths < 1000) :
    ∃ decimals, (fractionText thousandths).toList = pointed decimals ∧
      (∀ c ∈ decimals, c.isDigit = true) ∧ decimals.length ≤ 3 ∧ decimals.getLast? ≠ some '0' ∧
      Nat.ofDigitChars 10 decimals 0 * 1000 = thousandths * 10 ^ decimals.length := by
  have hfilled : ∀ width n : Nat, 0 < width → width ≤ 3 → n < 10 ^ width → n % 10 ≠ 0 →
      n * 1000 = thousandths * 10 ^ width →
      fractionText thousandths = "." ++ zeroPadded width (toString n) →
      ∃ decimals, (fractionText thousandths).toList = pointed decimals ∧
        (∀ c ∈ decimals, c.isDigit = true) ∧ decimals.length ≤ 3 ∧ decimals.getLast? ≠ some '0' ∧
        Nat.ofDigitChars 10 decimals 0 * 1000 = thousandths * 10 ^ decimals.length := by
    intro width n hw hw3 hn hlast hvalue htext
    obtain ⟨-, hlength, hdigits, hread⟩ := zeroPadded_digits n hw
    have hlength := hlength hn
    refine ⟨(zeroPadded width (toString n)).toList, ?_, List.all_eq_true.mp hdigits, ?_, ?_, ?_⟩
    · rw [htext, String.toList_append]
      cases hd : (zeroPadded width (toString n)).toList with
      | nil =>
        rw [hd] at hlength
        exact absurd hlength hw.ne
      | cons => rfl
    · rw [hlength]
      exact hw3
    · apply getLast?_digits
      rw [hread]
      exact hlast
    · rw [hread, hlength, hvalue]
  by_cases hzero : thousandths = 0
  · rw [hzero]
    exact ⟨[], rfl, by simp, by simp, by simp, rfl⟩
  by_cases hone : thousandths % 100 = 0
  · refine hfilled 1 (thousandths / 100) (by decide) (by decide) (by omega) (by omega) (by omega) ?_
    have hdigit : (toString (thousandths / 100)).length = 1 := by
      rw [Nat.toString_eq_repr, ← String.length_toList, Nat.toList_repr,
        Nat.toDigits_of_lt_base (by omega)]
      rfl
    rw [fractionText, if_neg hzero, if_pos hone, zeroPadded, hdigit]
    rfl
  · by_cases htwo : thousandths % 10 = 0
    · refine hfilled 2 (thousandths / 10) (by decide) (by decide) (by omega) (by omega) (by omega)
        ?_
      rw [fractionText, if_neg hzero, if_neg hone, if_pos htwo]
    · refine hfilled 3 thousandths (by decide) (by decide) h htwo (by omega) ?_
      rw [fractionText, if_neg hzero, if_neg hone, if_neg htwo]

/-! ### Numerals of thousandths -/

theorem unsignedValue?_pointed {whole decimals : List Char} (hne : whole ≠ [])
    (hw : ∀ c ∈ whole, c.isDigit = true) (hd : ∀ c ∈ decimals, c.isDigit = true) :
    unsignedValue? (whole ++ pointed decimals) =
      some ((Nat.ofDigitChars 10 whole 0 : ℚ) +
        Nat.ofDigitChars 10 decimals 0 / 10 ^ decimals.length) := by
  cases decimals with
  | nil =>
    obtain ⟨htake, hdrop⟩ := Text.takeWhile_append_stop hw [] rfl
    rw [unsignedValue?, pointed, htake, hdrop]
    simp [hne]
  | cons digit decimals =>
    obtain ⟨htake, hdrop⟩ := Text.takeWhile_append_stop hw ('.' :: digit :: decimals) rfl
    have hall : (digit :: decimals).all Char.isDigit = true := List.all_eq_true.mpr hd
    rw [unsignedValue?, pointed, htake, hdrop]
    · simp only [if_neg hne, ne_eq, List.cons_ne_nil, not_false_eq_true, hall, and_self, if_true]
    · exact List.cons_ne_nil _ _

/-- The digits of a number are digits, and there is at least one. -/
theorem toList_toString_digits (n : Nat) :
    (toString n).toList ≠ [] ∧ (∀ c ∈ (toString n).toList, c.isDigit = true) ∧
      Nat.ofDigitChars 10 (toString n).toList 0 = n := by
  rw [Nat.toString_eq_repr, Nat.toList_repr]
  exact ⟨Nat.toDigits_ne_nil, fun c hc ↦ Nat.isDigit_of_mem_toDigits (by decide) (by decide) hc,
    Nat.ofDigitChars_ten_toDigits⟩

theorem unsignedValue?_thousandths (n : Nat) :
    unsignedValue? ((toString (n / 1000)).toList ++ (fractionText (n % 1000)).toList) =
      some ((n : ℚ) / 1000) := by
  obtain ⟨hne, hdigits, hwhole⟩ := toList_toString_digits (n / 1000)
  obtain ⟨decimals, htext, hall, -, -, hvalue⟩ := fractionText_digits (Nat.mod_lt n (by decide))
  have hsplit : (n : ℚ) = (n / 1000 : Nat) * 1000 + (n % 1000 : Nat) := by
    exact_mod_cast (Nat.div_add_mod' n 1000).symm
  have hfraction : (Nat.ofDigitChars 10 decimals 0 : ℚ) * 1000 =
      (n % 1000 : Nat) * 10 ^ decimals.length := by
    exact_mod_cast hvalue
  rw [htext, unsignedValue?_pointed hne hdigits hall, hwhole, hsplit]
  congr 1
  field_simp
  linarith

/-- The numeral of a number of thousandths stands for it. -/
theorem decimalValue?_thousandthsText (n : Int) :
    decimalValue? (thousandthsText n) = some ((n : ℚ) / 1000) := by
  have hunsigned := unsignedValue?_thousandths n.natAbs
  rw [Nat.cast_natAbs] at hunsigned
  unfold decimalValue? thousandthsText
  by_cases hn : n < 0
  · have hminus : "-".toList = ['-'] := rfl
    rw [if_pos hn, String.append_assoc, String.toList_append, String.toList_append, hminus,
      List.singleton_append, signedValue?, hunsigned, Option.map_some, abs_of_neg hn, Int.cast_neg,
      neg_div, neg_neg]
  · rw [if_neg hn, String.empty_append, String.toList_append]
    unfold signedValue?
    split
    · next rest heq =>
      have hminus : '-' ∈ Nat.toDigits 10 (n.natAbs / 1000) := by
        rw [Nat.toString_eq_repr, Nat.toList_repr] at heq
        cases hd : Nat.toDigits 10 (n.natAbs / 1000) with
        | nil => exact absurd hd Nat.toDigits_ne_nil
        | cons digit digits =>
          rw [hd] at heq
          rw [(List.cons.inj heq).1]
          exact List.mem_cons_self
      exact absurd (Nat.isDigit_of_mem_toDigits (by decide) (by decide) hminus) (by decide)
    · rw [hunsigned, abs_of_nonneg (Int.not_lt.mp hn)]

private theorem thousandthsText_mul (n : Int) : thousandthsText (n * 1000) = toString n := by
  have hfraction : fractionText 0 = "" := rfl
  have habs : (n * 1000).natAbs = n.natAbs * 1000 := Int.natAbs_mul n 1000
  rw [thousandthsText, habs, Nat.mul_div_cancel _ (by decide), Nat.mul_mod_left, hfraction,
    String.append_empty]
  cases n with
  | ofNat n =>
    have hsign : ¬ Int.ofNat n * 1000 < 0 := by
      rw [Int.ofNat_eq_natCast]
      omega
    rw [if_neg hsign, String.empty_append]
    rfl
  | negSucc n =>
    have hsign : Int.negSucc n * 1000 < 0 := by omega
    rw [if_pos hsign]
    rfl

/-- The numeral of an integer stands for it. -/
theorem decimalValue?_toString (n : Int) : decimalValue? (toString n) = some (n : ℚ) := by
  rw [← thousandthsText_mul, decimalValue?_thousandthsText]
  push_cast
  rw [mul_div_cancel_right₀ _ (by norm_num)]

/-! ### Numerals of doubles -/

namespace Binary64

private theorem abs_scaledAt_sub_le (place : Nat) :
    |(scaledAt 3 place : ℚ) / 1000 - unitsAt place / unitsPerOne| ≤ 1 / 2000 := by
  have hone : (0 : ℚ) < unitsPerOne := Nat.cast_pos.mpr unitsPerOne_pos
  have hnear := roundHalfEven_near (unitsAt place * tenTo 3) unitsPerOne unitsPerOne_pos
  change 2 * (scaledAt 3 place * unitsPerOne) ≤ 2 * (unitsAt place * 1000) + unitsPerOne ∧
    2 * (unitsAt place * 1000) ≤ 2 * (scaledAt 3 place * unitsPerOne) + unitsPerOne at hnear
  generalize scaledAt 3 place = scaled at hnear ⊢
  have hup : 2 * ((scaled : ℚ) * unitsPerOne) ≤ 2 * (unitsAt place * 1000) + unitsPerOne := by
    exact_mod_cast hnear.1
  have hdown : 2 * ((unitsAt place : ℚ) * 1000) ≤ 2 * (scaled * unitsPerOne) + unitsPerOne := by
    exact_mod_cast hnear.2
  rw [div_sub_div _ _ (by norm_num) hone.ne', abs_le, div_le_iff₀ (by linarith),
    le_div_iff₀ (by linarith)]
  constructor <;> linarith

/-- A finite double is at most half a thousandth away from its thousandths. -/
theorem abs_thousandths_sub_le {x : Binary64} (h : x.isFinite = true) :
    |(x.thousandths : ℚ) / 1000 - x.value| ≤ 1 / 2000 := by
  cases x with
  | nan => cases h
  | signed negative place =>
    have hpositive : |((signed false place).thousandths : ℚ) / 1000 - (signed false place).value| ≤
        1 / 2000 := by
      have hthousandths : (signed false place).thousandths = (scaledAt 3 place.val : Int) := rfl
      rw [hthousandths, value, units_positive, Int.cast_natCast, Int.cast_natCast]
      exact abs_scaledAt_sub_le place.val
    cases negative with
    | false => exact hpositive
    | true =>
      have hthousandths :
          (signed true place).thousandths = -(signed false place).thousandths := rfl
      have hvalue : (signed true place).value = -(signed false place).value :=
        value_neg (signed false place)
      generalize (signed false place).value = exact at hvalue hpositive
      rw [hthousandths, hvalue, Int.cast_neg, neg_div, neg_sub_neg, abs_sub_comm]
      exact hpositive

/-- The thousandths of a double are rounded from its units and have their sign. -/
theorem thousandths_eq (x : Binary64) : x.thousandths =
    if x.units < 0 then -(roundHalfEven (x.units.natAbs * tenTo 3) unitsPerOne : Int)
    else (roundHalfEven (x.units.natAbs * tenTo 3) unitsPerOne : Int) := by
  have hzero : roundHalfEven (0 * tenTo 3) unitsPerOne = 0 := by
    have hround := roundHalfEven_mul 0 unitsPerOne unitsPerOne_pos
    rwa [Nat.zero_mul] at hround ⊢
  cases x with
  | nan => exact congrArg _ hzero.symm
  | signed negative place =>
    cases negative with
    | false =>
      rw [units_positive, if_neg (by omega), Int.natAbs_natCast]
      rfl
    | true =>
      have hthousandths : (signed true place).thousandths = -(scaledAt 3 place.val : Int) := rfl
      rw [hthousandths, units_negative, Int.natAbs_neg, Int.natAbs_natCast, scaledAt]
      by_cases hneg : -(unitsAt place.val : Int) < 0
      · rw [if_pos hneg]
      · have hnone : unitsAt place.val = 0 := by omega
        rw [if_neg hneg, hnone, hzero]
        rfl

/-- Greater units have no lesser thousandths. -/
theorem thousandths_mono {x y : Binary64} (h : x.units ≤ y.units) :
    x.thousandths ≤ y.thousandths := by
  have hmono : ∀ {m n : Nat}, m ≤ n →
      roundHalfEven (m * tenTo 3) unitsPerOne ≤ roundHalfEven (n * tenTo 3) unitsPerOne :=
    fun hmn ↦ roundHalfEven_mono unitsPerOne_pos unitsPerOne_pos
      (Nat.mul_le_mul_right _ (Nat.mul_le_mul_right _ hmn))
  rw [thousandths_eq, thousandths_eq]
  by_cases hx : x.units < 0
  · rw [if_pos hx]
    by_cases hy : y.units < 0
    · have hround := hmono (show y.units.natAbs ≤ x.units.natAbs by omega)
      rw [if_pos hy]
      omega
    · rw [if_neg hy]
      omega
  · have hround := hmono (show x.units.natAbs ≤ y.units.natAbs by omega)
    rw [if_neg hx, if_neg (by omega)]
    omega

end Binary64

/-- The numeral of a finite double stands for its thousandths. -/
theorem decimalValue?_num {x : Binary64} (h : x.isFinite = true) :
    decimalValue? (num x) = some ((x.thousandths : ℚ) / 1000) := by
  rw [num, if_pos h, decimalValue?_thousandthsText]

/-- The other doubles are written as words. -/
theorem num_mem_of_not_finite {x : Binary64} (h : x.isFinite = false) :
    num x ∈ ["NaN", "inf", "-inf"] := by
  rw [num, h, if_neg Bool.false_ne_true]
  cases x with
  | nan => exact List.mem_cons_self
  | signed negative place =>
    have hplace : place.val = infinitePlace := by
      have := of_decide_eq_false h
      omega
    simp only [Binary64.toText, Binary64.write, if_pos hplace]
    cases negative <;> decide

/-- The words stand for no number. -/
theorem decimalValue?_num_of_not_finite {x : Binary64} (h : x.isFinite = false) :
    decimalValue? (num x) = none := by
  have hword : ∀ word ∈ ["NaN", "inf", "-inf"], decimalValue? word = none := by
    intro word hw
    simp only [List.mem_cons, List.not_mem_nil, or_false] at hw
    rcases hw with rfl | rfl | rfl <;> rfl
  exact hword _ (num_mem_of_not_finite h)

end Montage.Numeric
