import Mathlib.Tactic.FieldSimp
import Mathlib.Tactic.Ring
import Montage.Proofs.Numeric.Accuracy
import Montage.Proofs.Numeric.Monotone

/-!
# Rounded numbers

What an operation on finite doubles computes is rounded from the exact result. A rounded number is
in order with every double, it is exact where that is a double, and no finite double is nearer. It
is off by at most one part in `2 ^ 53` of the exact number, or by half a unit.
-/

namespace Montage.Numeric.Binary64

variable {x y r : Binary64} {exact : ℚ} {num den : ℕ}

/-- A number with this sign. -/
def withSign (negative : Bool) (number : ℚ) : ℚ := if negative then -number else number

/-- The double is rounded from this number: its place is nearest to the units of the number. -/
def Rounds (x : Binary64) (exact : ℚ) : Prop :=
  ∃ negative num den, 0 < den ∧ x = signed negative (nearestPlace num den) ∧
    exact = withSign negative (num / den / unitsPerOne)

/-! ### Signs -/

theorem withSign_not (negative : Bool) (number : ℚ) :
    withSign (!negative) number = -withSign negative number := by
  cases negative with
  | false => rfl
  | true => exact (neg_neg number).symm

theorem withSign_zero (negative : Bool) : withSign negative 0 = 0 := by
  cases negative with
  | false => rfl
  | true => exact neg_zero

theorem abs_withSign (negative : Bool) (number : ℚ) : |withSign negative number| = |number| := by
  cases negative with
  | false => rfl
  | true => exact abs_neg number

theorem withSign_sub (negative : Bool) (a b : ℚ) :
    withSign negative a - withSign negative b = withSign negative (a - b) := by
  cases negative with
  | false => rfl
  | true => exact (neg_sub' a b).symm

theorem withSign_mul (s t : Bool) (a b : ℚ) :
    withSign s a * withSign t b = withSign (s != t) (a * b) := by
  cases s <;> cases t <;> simp [withSign]

theorem withSign_div (s t : Bool) (a b : ℚ) :
    withSign s a / withSign t b = withSign (s != t) (a / b) := by
  cases s <;> cases t <;> simp [withSign, div_neg, neg_div]

theorem value_signed (negative : Bool) (place : Fin (infinitePlace + 1)) :
    (signed negative place).value = withSign negative (unitsAt place / unitsPerOne) := by
  cases negative with
  | false => rw [value, units_positive, Int.cast_natCast]; rfl
  | true => rw [value, units_negative, Int.cast_neg, Int.cast_natCast, neg_div]; rfl

private theorem ratio_nonneg (num den : ℕ) : (0 : ℚ) ≤ num / den :=
  div_nonneg num.cast_nonneg den.cast_nonneg

theorem abs_value_signed (negative : Bool) (place : Fin (infinitePlace + 1)) :
    |(signed negative place).value| = unitsAt place / unitsPerOne := by
  rw [value_signed, abs_withSign, abs_of_nonneg (ratio_nonneg _ _)]

theorem value_abs (x : Binary64) : x.abs.value = |x.value| := by
  cases x with
  | nan => rw [Binary64.abs, value, units, Int.cast_zero, zero_div, abs_zero]
  | signed negative place =>
    rw [abs_value_signed, Binary64.abs, value_signed]
    rfl

theorem lt_iff_value_lt (hx : x.isNaN = false) (hy : y.isNaN = false) :
    x < y ↔ x.value < y.value := by
  rw [lt_iff_units_lt hx hy, ← not_le, ← not_le, value_le_value_iff]

theorem Rounds.neg (h : x.Rounds exact) : x.neg.Rounds (-exact) := by
  obtain ⟨negative, num, den, hd, rfl, rfl⟩ := h
  exact ⟨!negative, num, den, hd, rfl, (withSign_not _ _).symm⟩

/-! ### The order of rounded numbers -/

/-- A finite double that is not below zero is a whole number of units. -/
private theorem exists_value_eq_units (hx : x.isFinite = true) (h : 0 ≤ x.value) :
    ∃ place < infinitePlace, x.value = unitsAt place / unitsPerOne := by
  obtain ⟨place, hplace, hunits⟩ := exists_units_eq hx (value_nonneg_iff.mp h)
  exact ⟨place, hplace, by rw [value, hunits, Int.cast_natCast]⟩

private theorem unitsAt_div_le {a b : ℕ} (hb : b ≤ infinitePlace) (h : a ≤ b) :
    (unitsAt a : ℚ) / unitsPerOne ≤ unitsAt b / unitsPerOne :=
  div_le_div_of_nonneg_right (Nat.cast_le.mpr (unitsAt_le_unitsAt hb h)) unitsPerOne_cast_pos.le

private theorem nearest_le_value (hd : 0 < den) (hr : r.isFinite = true)
    (h : (num : ℚ) / den / unitsPerOne ≤ r.value) :
    (unitsAt (nearestPlace num den) : ℚ) / unitsPerOne ≤ r.value := by
  have hnonneg := div_nonneg (ratio_nonneg num den) unitsPerOne_cast_pos.le
  obtain ⟨place, hplace, hvalue⟩ := exists_value_eq_units hr (hnonneg.trans h)
  rw [hvalue, div_le_div_iff_of_pos_right unitsPerOne_cast_pos,
    div_le_iff₀ (Nat.cast_pos.mpr hd)] at h
  rw [hvalue]
  exact unitsAt_div_le hplace.le (nearestPlace_le hd hplace.le (by exact_mod_cast h))

private theorem value_le_nearest (hd : 0 < den) (hr : r.isFinite = true)
    (h : r.value ≤ (num : ℚ) / den / unitsPerOne) :
    r.value ≤ (unitsAt (nearestPlace num den) : ℚ) / unitsPerOne := by
  rcases le_total r.value 0 with hr0 | hr0
  · exact hr0.trans (ratio_nonneg _ _)
  · obtain ⟨place, hplace, hvalue⟩ := exists_value_eq_units hr hr0
    rw [hvalue, div_le_div_iff_of_pos_right unitsPerOne_cast_pos,
      le_div_iff₀ (Nat.cast_pos.mpr hd)] at h
    rw [hvalue]
    exact unitsAt_div_le (Nat.le_of_lt_succ (Fin.isLt _))
      (le_nearestPlace hd hplace.le (by exact_mod_cast h))

/-- What is rounded is not above a double unless the exact number is. -/
theorem Rounds.value_le (h : x.Rounds exact) (hr : r.isFinite = true) (hle : exact ≤ r.value) :
    x.value ≤ r.value := by
  obtain ⟨negative, num, den, hd, rfl, rfl⟩ := h
  rw [value_signed]
  cases negative with
  | false => exact nearest_le_value hd hr hle
  | true =>
    have hneg := value_le_nearest hd ((isFinite_neg r).trans hr)
      (by rw [value_neg]; exact neg_le.mp hle)
    rw [value_neg] at hneg
    exact neg_le.mp hneg

/-- What is rounded is not below a double unless the exact number is. -/
theorem Rounds.le_value (h : x.Rounds exact) (hr : r.isFinite = true) (hle : r.value ≤ exact) :
    r.value ≤ x.value := by
  have hneg := h.neg.value_le ((isFinite_neg r).trans hr)
    (by rw [value_neg]; exact neg_le_neg hle)
  rw [value_neg, value_neg] at hneg
  exact neg_le_neg_iff.mp hneg

/-- Finite doubles are less than infinity. -/
private theorem abs_value_lt (hr : r.isFinite = true) :
    |r.value| < unitsAt infinitePlace / unitsPerOne := by
  cases r with
  | nan => cases hr
  | signed negative place =>
    have hlt := unitsAt_lt_unitsAt (Nat.le_refl _) (of_decide_eq_true hr)
    rw [abs_value_signed]
    exact div_lt_div_of_pos_right (Nat.cast_lt.mpr hlt) unitsPerOne_cast_pos

/-- What lies between finite doubles is rounded to a finite one. -/
theorem Rounds.isFinite {low high : Binary64} (h : x.Rounds exact) (hl : low.isFinite = true)
    (hh : high.isFinite = true) (hle : low.value ≤ exact) (hge : exact ≤ high.value) :
    x.isFinite = true := by
  have hlow := h.le_value hl hle
  have hhigh := h.value_le hh hge
  obtain ⟨negative, num, den, hd, rfl, -⟩ := h
  by_contra hinf
  rw [Bool.not_eq_true] at hinf
  have hplace : (nearestPlace num den).val = infinitePlace := by
    have hge := of_decide_eq_false hinf
    have hlt := (nearestPlace num den).isLt
    omega
  rw [value_signed, hplace] at hlow hhigh
  cases negative with
  | false => exact absurd ((le_abs_self _).trans_lt (abs_value_lt hh)) (not_lt.mpr hhigh)
  | true => exact absurd ((neg_le_abs _).trans_lt (abs_value_lt hl)) (not_lt.mpr (le_neg.mp hlow))

theorem nonneg_iff : 0 ≤ x ↔ x.isNaN = false ∧ 0 ≤ x.value := by
  rw [value_nonneg_iff]
  constructor
  · intro h
    have hunits := units_le_units h
    rw [units_zero] at hunits
    exact ⟨(isNaN_of_le h).2, hunits⟩
  · rintro ⟨hx, hunits⟩
    rwa [le_iff_units_le isNaN_zero hx, units_zero]

/-- What is rounded from a number that is not negative is not negative. -/
theorem Rounds.nonneg (h : x.Rounds exact) (he : 0 ≤ exact) : 0 ≤ x := by
  have hvalue := h.le_value isFinite_zero (by rwa [value_zero])
  rw [value_zero] at hvalue
  obtain ⟨negative, num, den, -, rfl, -⟩ := h
  exact nonneg_iff.mpr ⟨rfl, hvalue⟩

/-- A number that is a double is rounded to itself. -/
theorem Rounds.eq_value (h : x.Rounds r.value) (hr : r.isFinite = true) :
    x.isFinite = true ∧ x.value = r.value :=
  ⟨h.isFinite hr hr le_rfl le_rfl, le_antisymm (h.value_le hr le_rfl) (h.le_value hr le_rfl)⟩

/-! ### Accuracy -/

private theorem exists_half_step (hd : 0 < den) (h : (nearestPlace num den).val < infinitePlace) :
    ∃ shift, twoTo shift ∣ unitsAt (nearestPlace num den) ∧
      |(unitsAt (nearestPlace num den) : ℚ) - num / den| ≤ (twoTo shift : ℕ) / 2 ∧
        (shift = 0 ∨ ((twoTo 52 * twoTo shift : ℕ) : ℚ) ≤ num / den) := by
  obtain ⟨shift, hdvd, hup, hdown, hshort⟩ := exists_step hd h
  have hden : (0 : ℚ) < den := Nat.cast_pos.mpr hd
  have hup' : 2 * ((unitsAt (nearestPlace num den) : ℚ) * den) ≤ 2 * num + twoTo shift * den := by
    exact_mod_cast hup
  have hdown' : 2 * (num : ℚ) ≤ 2 * (unitsAt (nearestPlace num den) * den) + twoTo shift * den := by
    exact_mod_cast hdown
  refine ⟨shift, hdvd, ?_, hshort.imp_right fun hle ↦ ?_⟩
  · rw [abs_sub_le_iff, sub_le_iff_le_add, sub_le_iff_le_add, div_le_iff₀ hden,
      ← sub_le_iff_le_add', le_div_iff₀ hden]
    constructor <;> linarith
  · rw [le_div_iff₀ hden]
    exact_mod_cast hle

private theorem near_ratio (hd : 0 < den) (h : (nearestPlace num den).val < infinitePlace) :
    |(unitsAt (nearestPlace num den) : ℚ) - num / den| ≤ num / den / 2 ^ 53 ∨
      |(unitsAt (nearestPlace num den) : ℚ) - num / den| ≤ 1 / 2 := by
  obtain ⟨shift, -, hstep, hshort⟩ := exists_half_step hd h
  rcases hshort with rfl | hshort
  · rw [twoTo_zero, Nat.cast_one] at hstep
    exact Or.inr hstep
  · left
    have htwo : ((twoTo 52 : ℕ) : ℚ) = 2 ^ 52 := by norm_num [twoTo]
    rw [Nat.cast_mul, htwo] at hshort
    refine hstep.trans ?_
    rw [le_div_iff₀ (by norm_num)]
    linarith

private theorem value_sub_withSign (negative : Bool) (place : Fin (infinitePlace + 1)) (q : ℚ) :
    |(signed negative place).value - withSign negative (q / unitsPerOne)| =
      |(unitsAt place : ℚ) - q| / unitsPerOne := by
  rw [value_signed, withSign_sub, abs_withSign, ← sub_div, abs_div, abs_of_pos unitsPerOne_cast_pos]

/-- Rounding moves a number by at most one part in `2 ^ 53`, or by at most half a unit. -/
theorem Rounds.near (h : x.Rounds exact) (hx : x.isFinite = true) :
    |x.value - exact| ≤ |exact| / 2 ^ 53 ∨ |x.value - exact| ≤ 1 / 2 / unitsPerOne := by
  have hone := unitsPerOne_cast_pos
  obtain ⟨negative, num, den, hd, rfl, rfl⟩ := h
  rw [value_sub_withSign, abs_withSign, abs_div, abs_of_nonneg (ratio_nonneg _ _), abs_of_pos hone,
    div_right_comm, div_le_div_iff_of_pos_right hone, div_le_div_iff_of_pos_right hone]
  exact near_ratio hd (of_decide_eq_true hx)

/-- Beside a number at most half a step away, other multiples of the step are no nearer. -/
private theorem abs_sub_le_of_dvd {step u w : ℕ} {q : ℚ} (hu : step ∣ u) (hw : step ∣ w)
    (h : |(u : ℚ) - q| ≤ step / 2) : |(u : ℚ) - q| ≤ |w - q| := by
  obtain ⟨a, rfl⟩ := hu
  obtain ⟨b, rfl⟩ := hw
  by_cases hab : a = b
  · rw [hab]
  · have hapart : (1 : ℚ) ≤ |(a : ℚ) - b| := by
      have hne : (a : ℤ) - b ≠ 0 := by omega
      exact_mod_cast Int.one_le_abs hne
    have hstep : (step : ℚ) ≤ |((step * a : ℕ) : ℚ) - (step * b : ℕ)| := by
      rw [Nat.cast_mul, Nat.cast_mul, ← mul_sub, abs_mul, Nat.abs_cast]
      exact le_mul_of_one_le_right step.cast_nonneg hapart
    have htriangle := abs_sub_le ((step * a : ℕ) : ℚ) q (step * b : ℕ)
    rw [abs_sub_comm q] at htriangle
    linarith

private theorem closest_ratio {place : ℕ} (hd : 0 < den)
    (h : (nearestPlace num den).val < infinitePlace) :
    |(unitsAt (nearestPlace num den) : ℚ) - num / den| ≤ |(unitsAt place : ℚ) - num / den| := by
  obtain ⟨shift, hdvd, hstep, hshort⟩ := exists_half_step hd h
  rcases hshort with rfl | hshort
  · exact abs_sub_le_of_dvd hdvd (by simp [twoTo_zero]) hstep
  · by_cases hlarge : twoTo 52 * twoTo shift ≤ unitsAt place
    · exact abs_sub_le_of_dvd hdvd (dvd_unitsAt hlarge) hstep
    · -- The place lies below a multiple of the step that is itself below the number.
      have hlow : (unitsAt place : ℚ) ≤ (twoTo 52 * twoTo shift : ℕ) :=
        Nat.cast_le.mpr (Nat.le_of_not_le hlarge)
      refine (abs_sub_le_of_dvd hdvd (Nat.dvd_mul_left _ (twoTo 52)) hstep).trans ?_
      rw [abs_of_nonpos (by linarith), abs_of_nonpos (by linarith)]
      linarith

/-- No finite double is nearer to a number than the one it is rounded to. -/
theorem Rounds.closest (h : x.Rounds exact) (hx : x.isFinite = true) (hr : r.isFinite = true) :
    |x.value - exact| ≤ |r.value - exact| := by
  have hone := unitsPerOne_cast_pos
  obtain ⟨negative, num, den, hd, rfl, rfl⟩ := h
  have hplace : (nearestPlace num den).val < infinitePlace := of_decide_eq_true hx
  rw [value_sub_withSign]
  cases r with
  | nan => cases hr
  | signed other place =>
    by_cases hsign : other = negative
    · rw [hsign, value_sub_withSign]
      exact div_le_div_of_nonneg_right (closest_ratio hd hplace) hone.le
    · -- A double on the other side of zero is farther away than zero.
      have hzero := @closest_ratio num den 0 hd hplace
      have hunits : ((unitsAt 0 : ℕ) : ℚ) = 0 := Nat.cast_zero
      rw [hunits, zero_sub, abs_neg, abs_of_nonneg (ratio_nonneg _ _)] at hzero
      refine (div_le_div_of_nonneg_right hzero hone.le).trans ?_
      have hother : other = !negative := Bool.eq_not_of_ne hsign
      have hfar : |(signed other place).value - withSign negative (num / den / unitsPerOne)| =
          unitsAt place / unitsPerOne + num / den / unitsPerOne := by
        have hsum := div_nonneg (ratio_nonneg num den) hone.le
        rw [hother, value_signed, withSign_not, ← neg_add', abs_neg]
        cases negative with
        | false => exact abs_of_nonneg (add_nonneg (ratio_nonneg _ _) hsum)
        | true =>
          show |-_ + -_| = _
          rw [← neg_add, abs_neg]
          exact abs_of_nonneg (add_nonneg (ratio_nonneg _ _) hsum)
      rw [hfar]
      exact le_add_of_nonneg_left (ratio_nonneg _ _)

/-! ### Operations -/

theorem ofRatio_rounds (negative : Bool) (num : ℕ) (hd : 0 < den) :
    (ofRatio negative num den).Rounds (withSign negative (num / den)) := by
  have hone : (unitsPerOne : ℚ) ≠ 0 := unitsPerOne_cast_pos.ne'
  refine ⟨negative, num * unitsPerOne, den, hd, rfl, ?_⟩
  rw [Nat.cast_mul, mul_div_right_comm, mul_div_cancel_right₀ _ hone]

/-- A zero of either sign is rounded from zero. -/
theorem signed_zero_rounds (negative : Bool) : (signed negative 0).Rounds 0 := by
  have hplace : (0 : Fin (infinitePlace + 1)) = nearestPlace 0 1 :=
    Fin.ext (nearestPlace_zero Nat.one_pos).symm
  refine ⟨negative, 0, 1, Nat.one_pos, by rw [← hplace], ?_⟩
  rw [Nat.cast_zero, zero_div, zero_div, withSign_zero]

/-- The sum of finite doubles is rounded from the exact sum. -/
theorem add_rounds (hx : x.isFinite = true) (hy : y.isFinite = true) :
    (x + y).Rounds (x.value + y.value) := by
  have hvalue : x.value + y.value = ((x.units + y.units : ℤ) : ℚ) / unitsPerOne := by
    rw [value, value, Int.cast_add, add_div]
  rcases add_cases hx hy with ⟨hz, negative, hsum⟩ | ⟨-, hsum⟩
  · rw [hvalue, hsum, hz, Int.cast_zero, zero_div]
    exact signed_zero_rounds negative
  · refine ⟨_, _, 1, Nat.one_pos, hsum, ?_⟩
    rw [hvalue, withSign, Nat.cast_natAbs, Nat.cast_one, div_one]
    by_cases hn : x.units + y.units < 0
    · rw [if_pos (decide_eq_true hn), abs_of_neg hn, Int.cast_neg, neg_div, neg_neg]
    · rw [if_neg (by simpa using hn), abs_of_nonneg (not_lt.mp hn)]

/-- The difference of finite doubles is rounded from the exact difference. -/
theorem sub_rounds (hx : x.isFinite = true) (hy : y.isFinite = true) :
    (x - y).Rounds (x.value - y.value) := by
  have hadd := add_rounds hx ((isFinite_neg y).trans hy)
  rwa [value_neg, ← sub_eq_add_neg] at hadd

/-- The product of finite doubles is rounded from the exact product. -/
theorem mul_rounds (hx : x.isFinite = true) (hy : y.isFinite = true) :
    (x * y).Rounds (x.value * y.value) := by
  obtain ⟨s, p, rfl, hp⟩ := exists_signed_of_isFinite hx
  obtain ⟨t, q, rfl, hq⟩ := exists_signed_of_isFinite hy
  refine ⟨s != t, unitsAt p * unitsAt q, unitsPerOne, unitsPerOne_pos, ?_, ?_⟩
  · show mul (signed s p) (signed t q) = _
    simp only [mul, hp, hq, or_self, if_false]
  · rw [value_signed, value_signed, withSign_mul, div_mul_div_comm, Nat.cast_mul, div_div]

/-- The quotient of finite doubles is rounded from the exact quotient. -/
theorem div_rounds (hx : x.isFinite = true) (hy : y.isFinite = true) (h : y.value ≠ 0) :
    (x / y).Rounds (x.value / y.value) := by
  obtain ⟨s, p, rfl, hp⟩ := exists_signed_of_isFinite hx
  obtain ⟨t, q, rfl, hq⟩ := exists_signed_of_isFinite hy
  have hq0 : 0 < q.val := by
    refine Nat.pos_of_ne_zero fun hz ↦ h ?_
    have hunits : unitsAt q = 0 := by rw [hz]; rfl
    rw [value_signed, hunits, Nat.cast_zero, zero_div, withSign_zero]
  have hquotient : signed s p / signed t q = ofRatio (s != t) (unitsAt p) (unitsAt q) := by
    show div (signed s p) (signed t q) = _
    simp only [div, hp, hq, if_false, hq0.ne']
  rw [hquotient, value_signed, value_signed, withSign_div,
    div_div_div_cancel_right₀ unitsPerOne_cast_pos.ne']
  exact ofRatio_rounds _ _ (unitsAt_lt_unitsAt (Nat.le_of_lt_succ q.isLt) hq0)

end Montage.Numeric.Binary64
