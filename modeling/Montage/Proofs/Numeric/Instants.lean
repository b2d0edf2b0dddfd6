import Mathlib.Data.Real.Basic
import Montage.Proofs.Numeric.Numerals

/-!
# Numerals as instants

The numerals of lengths, read as points in time. An infinite length is written as a word, which is
read as a time that never comes. Greater lengths have later numerals, and numerals in order divide
the time between the first and the last into stretches that leave nothing out.
-/

namespace Montage.Numeric

/-- The time that a text stands for, in seconds. -/
noncomputable def instant? (text : String) : Option (WithTop ℝ) :=
  if text = "inf" then some ⊤
  else (decimalValue? text).map fun seconds ↦ (((seconds : ℚ) : ℝ) : WithTop ℝ)

theorem instant?_of_decimalValue? {text : String} {seconds : ℚ}
    (h : decimalValue? text = some seconds) :
    instant? text = some ((seconds : ℝ) : WithTop ℝ) := by
  have hword : text ≠ "inf" := by
    rintro rfl
    cases h
  rw [instant?, if_neg hword, h, Option.map_some]

namespace Binary64

variable {x y : Binary64}

/-- Whether a double is a number that is not below zero. -/
structure IsLength (x : Binary64) : Prop where
  number : x.isNaN = false
  nonneg : 0 ≤ x.units

theorem isLength_zero : (0 : Binary64).IsLength where
  number := isNaN_zero
  nonneg := units_zero.ge

/-- The time that the numeral of a length stands for. -/
noncomputable def instant (x : Binary64) : WithTop ℝ :=
  if x.isFinite then ((((x.thousandths : ℚ) / 1000 : ℚ) : ℝ) : WithTop ℝ) else ⊤

theorem num_of_infinite (hx : x.IsLength) (h : x.isFinite = false) : num x = "inf" := by
  rw [num, h, if_neg Bool.false_ne_true]
  cases x with
  | nan => cases hx.number
  | signed negative place =>
    have hplace : place.val = infinitePlace := by
      have := of_decide_eq_false h
      omega
    simp only [toText, write, if_pos hplace]
    cases negative with
    | false => decide
    | true =>
      have hpos : unitsAt 0 < unitsAt place.val := by
        rw [hplace]
        exact unitsAt_lt_unitsAt (Nat.le_refl _) (Nat.mul_pos (by decide) (twoTo_pos 52))
      have hnonneg := hx.nonneg
      rw [units_negative] at hnonneg
      omega

/-- The numeral of a length can be read. -/
theorem instant?_num (hx : x.IsLength) : instant? (num x) = some x.instant := by
  unfold instant
  by_cases hf : x.isFinite = true
  · rw [if_pos hf, instant?_of_decimalValue? (decimalValue?_num hf)]
  · rw [Bool.not_eq_true] at hf
    rw [num_of_infinite hx hf, instant?, if_pos rfl, if_neg (by rw [hf]; exact Bool.false_ne_true)]

/-- The thousandths of a length are rounded from its units. -/
private theorem thousandths_of_nonneg (h : 0 ≤ x.units) :
    x.thousandths = roundHalfEven (x.units.natAbs * tenTo 3) unitsPerOne := by
  rw [thousandths_eq, if_neg (Int.not_lt.mpr h)]

theorem IsLength.thousandths_nonneg (hx : x.IsLength) : 0 ≤ x.thousandths := by
  rw [thousandths_of_nonneg hx.nonneg]
  exact Int.natCast_nonneg _

/-- The numeral of a double is not later than that of a greater one. -/
theorem instant_le_instant (h : x.units ≤ y.units)
    (hf : y.isFinite = true → x.isFinite = true) : x.instant ≤ y.instant := by
  unfold instant
  by_cases hy : y.isFinite = true
  · have hthousandths := thousandths_mono h
    rw [if_pos hy, if_pos (hf hy), WithTop.coe_le_coe, Rat.cast_le]
    exact div_le_div_of_nonneg_right (Int.cast_le.mpr hthousandths) (by norm_num)
  · rw [if_neg hy]
    exact le_top

/-- A length is not written as zero exactly if it is more than half a thousandth. -/
theorem thousandths_pos_iff (h : 0 ≤ x.units) : 0 < x.thousandths ↔ 1 / 2000 < x.value := by
  have hone : (0 : ℚ) < unitsPerOne := Nat.cast_pos.mpr unitsPerOne_pos
  have hunits : ((x.units.natAbs : ℕ) : ℚ) = x.units := by
    rw [← Int.cast_natCast, Int.natAbs_of_nonneg h]
  have hvalue : 1 / 2000 < x.value ↔ unitsPerOne < 2 * (x.units.natAbs * tenTo 3) := by
    rw [value, lt_div_iff₀ hone, ← hunits, show tenTo 3 = 1000 from rfl, ← Nat.cast_lt (α := ℚ)]
    push_cast
    constructor <;> intro hlt <;> linarith
  rw [thousandths_of_nonneg h, Int.natCast_pos, hvalue, roundHalfEven_pos_iff unitsPerOne_pos]

/-- The numeral of a double stands for an earlier time than that of the other. -/
def RoundsBefore (x y : Binary64) : Prop :=
  x.isFinite = true ∧ (y.isFinite = true → x.thousandths < y.thousandths)

instance (x y : Binary64) : Decidable (x.RoundsBefore y) :=
  inferInstanceAs
    (Decidable (x.isFinite = true ∧ (y.isFinite = true → x.thousandths < y.thousandths)))

theorem instant_lt_instant_iff : x.instant < y.instant ↔ x.RoundsBefore y := by
  unfold instant RoundsBefore
  by_cases hx : x.isFinite = true
  · by_cases hy : y.isFinite = true
    · rw [if_pos hx, if_pos hy, WithTop.coe_lt_coe, Rat.cast_lt,
        div_lt_div_iff_of_pos_right (by norm_num), Int.cast_lt]
      simp [hx, hy]
    · rw [if_pos hx, if_neg hy]
      simp [hx, hy, WithTop.coe_lt_top]
  · rw [if_neg hx]
    simp [hx]

/-- A length grows when another is added to it. -/
theorem IsLength.add (hx : x.IsLength) (hy : y.isFinite = true) (hpos : 0 < y) :
    (x + y).IsLength ∧ x.units ≤ (x + y).units ∧
      ((x + y).isFinite = true → x.isFinite = true) := by
  by_cases hf : x.isFinite = true
  · have hle : x.units ≤ (x + y).units := value_le_value_iff.mp (value_le_value_add hf hy
      (value_nonneg_iff.mpr hx.nonneg) (value_nonneg_iff.mpr (units_pos_of_pos hpos).le))
    exact ⟨⟨isNaN_add_of_isFinite hx.number hy, hx.nonneg.trans hle⟩, hle, fun _ ↦ hf⟩
  · rw [Bool.not_eq_true] at hf
    rw [add_eq_self_of_infinite hx.number hf hy]
    exact ⟨hx, le_refl _, id⟩

end Binary64

/-- Between the first and the last of some times, every instant follows one of them and comes before
the next. -/
theorem exists_between_times {α : Type} [LinearOrder α] (times : ℕ → α) {t : α} {n : ℕ}
    (hfirst : times 0 ≤ t) (hlast : t < times n) :
    ∃ i < n, times i ≤ t ∧ t < times (i + 1) := by
  induction n with
  | zero => exact absurd hlast (not_lt.mpr hfirst)
  | succ n ih =>
    rcases lt_or_ge t (times n) with hbefore | hafter
    · obtain ⟨i, hi, h⟩ := ih hbefore
      exact ⟨i, Nat.lt_succ_of_lt hi, h⟩
    · exact ⟨n, Nat.lt_succ_self n, hafter, hlast⟩

/-- Times in order leave an instant only one place. -/
theorem eq_of_between_times {α : Type} [LinearOrder α] {times : ℕ → α} (h : Monotone times) {t : α}
    {i j : ℕ} (hi : times i ≤ t ∧ t < times (i + 1)) (hj : times j ≤ t ∧ t < times (j + 1)) :
    i = j := by
  have hle {i j : ℕ} (hi : times i ≤ t) (hj : t < times (j + 1)) : i ≤ j :=
    Nat.le_of_lt_succ (h.reflect_lt (hi.trans_lt hj))
  exact Nat.le_antisymm (hle hi.1 hj.2) (hle hj.1 hi.2)

end Montage.Numeric
