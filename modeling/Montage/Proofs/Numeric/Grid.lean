import Mathlib.Data.Int.Log
import Montage.Proofs.Numeric.Rounded

/-!
# The grid of the doubles

From a power of two on, doubles are multiples of its `2 ^ 52`-nd part, and multiples of a power of
two with 53 digits are doubles. So beside a number on the grid there is room of a step.
-/

namespace Montage.Numeric.Binary64

variable {x : Binary64} {k : ℤ}

theorem cast_twoTo (n : ℕ) : ((twoTo n : ℕ) : ℚ) = 2 ^ n := by
  show ((2 ^ n : ℕ) : ℚ) = 2 ^ n
  rw [Nat.cast_pow, Nat.cast_ofNat]

private theorem two_zpow_pos (k : ℤ) : (0 : ℚ) < 2 ^ k := zpow_pos two_pos k

/-- A number of units at a shift, as a multiple of a power of two. -/
private theorem mul_twoTo_div (digits : ℚ) (shift : ℕ) :
    digits * 2 ^ shift / unitsPerOne = digits * 2 ^ ((shift : ℤ) - 1074) := by
  have hone : (unitsPerOne : ℚ) = 2 ^ 1074 := cast_twoTo 1074
  rw [hone, mul_div_assoc, ← zpow_natCast, ← zpow_natCast, ← zpow_sub₀ two_ne_zero]
  rfl

private theorem exists_unitsAt_eq_of_le {digits shift : ℕ} (hu : digits ≤ twoTo 53)
    (hs : shift < 2045) : ∃ place < infinitePlace, unitsAt place = digits * twoTo shift := by
  rcases Nat.lt_or_eq_of_le hu with hlt | rfl
  · exact exists_unitsAt_eq hlt (by omega)
  · have hdigits : twoTo 52 < twoTo 53 := Nat.pow_lt_pow_right (by decide) (by decide)
    obtain ⟨place, hplace, hunits⟩ := exists_unitsAt_eq hdigits (Nat.succ_lt_succ hs)
    refine ⟨place, hplace, hunits.trans ?_⟩
    rw [twoTo_succ shift, twoTo_succ 52, Nat.mul_comm (twoTo shift), Nat.mul_assoc]

/-- Multiples of a power of two with at most 53 digits are doubles. -/
theorem exists_value_eq {m e : ℤ} (hm : |m| ≤ 2 ^ 53) (hl : -1074 ≤ e) (hh : e ≤ 970) :
    ∃ r : Binary64, r.isFinite = true ∧ r.value = m * 2 ^ e := by
  obtain ⟨shift, hshift⟩ := Int.eq_ofNat_of_zero_le (by omega : 0 ≤ e + 1074)
  have hdigits : m.natAbs ≤ twoTo 53 := by
    rw [Int.abs_eq_natAbs] at hm
    exact_mod_cast hm
  obtain ⟨place, hplace, hunits⟩ := exists_unitsAt_eq_of_le hdigits (by omega : shift < 2045)
  refine ⟨signed (m < 0) ⟨place, by omega⟩, decide_eq_true hplace, ?_⟩
  rw [value_signed, hunits, Nat.cast_mul, cast_twoTo, mul_twoTo_div, ← hshift, add_sub_cancel_right,
    Nat.cast_natAbs, withSign]
  by_cases hn : m < 0
  · rw [if_pos (decide_eq_true hn), abs_of_neg hn, Int.cast_neg, neg_mul, neg_neg]
  · rw [if_neg (by simpa using hn), abs_of_nonneg (not_lt.mp hn)]

/-- What does not exceed `2 ^ 1023` is rounded to a finite double. -/
theorem Rounds.isFinite_of_le {exact : ℚ} (h : x.Rounds exact) (he : |exact| ≤ 2 ^ 1023) :
    x.isFinite = true := by
  obtain ⟨low, hl, hlvalue⟩ := exists_value_eq (m := -2 ^ 53) (e := 970) (by decide) (by decide)
    (by decide)
  obtain ⟨high, hh, hhvalue⟩ := exists_value_eq (m := 2 ^ 53) (e := 970) (by decide) (by decide)
    (by decide)
  have hpower : (2 : ℚ) ^ 1023 = 2 ^ 53 * 2 ^ (970 : ℤ) := by
    rw [← zpow_natCast, ← zpow_natCast, ← zpow_add₀ two_ne_zero]
    rfl
  rw [hpower, abs_le] at he
  generalize (2 : ℚ) ^ (970 : ℤ) = step at he hlvalue hhvalue
  refine h.isFinite hl hh ?_ ?_
  · rw [hlvalue]
    push_cast
    linarith
  · rw [hhvalue]
    push_cast
    linarith

/-- Above the smallest numbers rounding moves a number by at most one part in `2 ^ 53`. -/
theorem Rounds.near_of_large {exact : ℚ} (h : x.Rounds exact) (hx : x.isFinite = true)
    (he : 1 / 2 ^ 1022 ≤ |exact|) : |x.value - exact| ≤ |exact| / 2 ^ 53 := by
  refine (h.near hx).elim id fun hunit ↦ hunit.trans ?_
  have hone : (unitsPerOne : ℚ) = 2 ^ 1022 * 2 ^ 52 := by
    rw [← pow_add]
    exact cast_twoTo 1074
  have hsplit : ∀ least : ℚ, (1 : ℚ) / 2 / (least * 2 ^ 52) = 1 / least / 2 ^ 53 := by
    intro least
    rw [div_div, div_div, pow_succ 2 52]
    ring
  rw [hone, hsplit]
  exact div_le_div_of_nonneg_right he (pow_nonneg zero_le_two 53)

/-- Rounding moves a number by at most one part in `2 ^ 53` of what is one more. -/
theorem Rounds.near_add_one {exact : ℚ} (h : x.Rounds exact) (hx : x.isFinite = true) :
    |x.value - exact| ≤ (|exact| + 1) / 2 ^ 53 := by
  have hunit : (1 : ℚ) / 2 / unitsPerOne ≤ 1 / 2 ^ 53 := by
    have hone : (2 : ℚ) ^ 53 ≤ unitsPerOne := by
      rw [← cast_twoTo 53]
      exact Nat.cast_le.mpr (twoTo_le (by decide))
    exact div_le_div₀ zero_le_one (by norm_num) (by norm_num) hone
  have hpart : 0 ≤ |exact| / 2 ^ 53 := by positivity
  rw [add_div]
  rcases h.near hx with hnear | hnear <;> linarith

/-- A double from a power of two on is a multiple of its `2 ^ 52`-nd part. -/
theorem exists_multiple (hx : x.isFinite = true) (hk : -1022 ≤ k) (h : 2 ^ k ≤ |x.value|) :
    ∃ m : ℤ, x.value = m * 2 ^ (k - 52) := by
  obtain ⟨shift, hshift⟩ := Int.eq_ofNat_of_zero_le (by omega : 0 ≤ k + 1022)
  cases x with
  | nan => cases hx
  | signed negative place =>
    have hone : (unitsPerOne : ℚ) = 2 ^ (1074 : ℤ) :=
      (cast_twoTo 1074).trans (zpow_natCast 2 1074).symm
    have hlarge : twoTo 52 * twoTo shift ≤ unitsAt place := by
      rw [abs_value_signed, le_div_iff₀ unitsPerOne_cast_pos, hone, ← zpow_add₀ two_ne_zero] at h
      have hexp : k + 1074 = ((52 + shift : ℕ) : ℤ) := by omega
      rw [hexp, zpow_natCast, ← cast_twoTo, twoTo_add] at h
      exact_mod_cast h
    obtain ⟨c, hc⟩ := dvd_unitsAt hlarge
    have hexp : (shift : ℤ) - 1074 = k - 52 := by omega
    refine ⟨if negative then -c else c, ?_⟩
    rw [value_signed, hc, Nat.mul_comm, Nat.cast_mul, cast_twoTo, mul_twoTo_div, hexp, withSign]
    cases negative <;> simp

/-- A half above 53 digits is rounded to the even neighbour. -/
theorem Rounds.eq_of_tie {digits : ℕ} {e : ℤ} (h : x.Rounds ((2 * digits + 1) * 2 ^ (e - 1)))
    (hl : 2 ^ 52 ≤ digits) (hu : digits < 2 ^ 53) (he : -1073 ≤ e) (he' : e ≤ 900) :
    x.value = (digits + digits % 2 : ℕ) * 2 ^ e := by
  obtain ⟨shift, hshift⟩ := Int.eq_ofNat_of_zero_le (by omega : 0 ≤ e - 1 + 1074)
  obtain ⟨negative, num, den, hd, rfl, hexact⟩ := h
  have hden : (0 : ℚ) < den := Nat.cast_pos.mpr hd
  have hexp : (shift : ℤ) - 1074 = e - 1 := by omega
  have hpos : (0 : ℚ) < (2 * digits + 1) * 2 ^ (e - 1) := mul_pos (by positivity) (two_zpow_pos _)
  have hratio : (0 : ℚ) ≤ num / den / unitsPerOne :=
    div_nonneg (div_nonneg (Nat.cast_nonneg _) (Nat.cast_nonneg _)) (Nat.cast_nonneg _)
  cases negative with
  | true =>
    change _ = -(_ : ℚ) at hexact
    rw [hexact] at hpos
    exact absurd hpos (not_lt.mpr (neg_nonpos.mpr hratio))
  | false =>
    change _ = (num : ℚ) / den / unitsPerOne at hexact
    rw [← hexp, ← mul_twoTo_div, div_left_inj' unitsPerOne_cast_pos.ne', eq_div_iff hden.ne',
      ← cast_twoTo] at hexact
    have hplace : nearestPlace num den = nearestPlace ((2 * digits + 1) * twoTo shift) 1 := by
      apply nearestPlace_congr hd Nat.one_pos
      rw [Nat.mul_one]
      exact_mod_cast hexact.symm
    have hexp' : ((shift + 1 : ℕ) : ℤ) - 1074 = e := by
      rw [Nat.cast_add, Nat.cast_one]
      omega
    rw [value_signed, hplace, unitsAt_nearestPlace_tie hl hu (by omega), withSign, if_neg (by simp),
      Nat.cast_mul, cast_twoTo, mul_twoTo_div, hexp']

/-- Below a number on the grid there is room of a step. -/
theorem value_le_sub (hx : x.isFinite = true) (hk : -1022 ≤ k) {n : ℤ}
    (hlow : (2 : ℚ) ^ k < n * 2 ^ (k - 52)) (h : x.value < n * 2 ^ (k - 52)) :
    x.value ≤ (n - 1) * 2 ^ (k - 52) := by
  have hstep := two_zpow_pos (k - 52)
  have hpower : (2 : ℚ) ^ k = (2 ^ 52 : ℤ) * 2 ^ (k - 52) := by
    have hcast : ((2 ^ 52 : ℤ) : ℚ) = 2 ^ (52 : ℤ) := by norm_num
    rw [hcast, ← zpow_add₀ two_ne_zero, add_sub_cancel]
  have hbelow : ∀ {m : ℤ}, (m : ℚ) * 2 ^ (k - 52) < n * 2 ^ (k - 52) →
      (m : ℚ) * 2 ^ (k - 52) ≤ (n - 1) * 2 ^ (k - 52) := by
    intro m hm
    have hlt : m < n := Int.cast_lt.mp ((mul_lt_mul_iff_left₀ hstep).mp hm)
    have hle : (m : ℚ) ≤ n - 1 := by
      exact_mod_cast Int.le_sub_one_of_lt hlt
    exact mul_le_mul_of_nonneg_right hle hstep.le
  by_cases hlarge : (2 : ℚ) ^ k ≤ x.value
  · obtain ⟨m, hm⟩ := exists_multiple hx hk (hlarge.trans (le_abs_self _))
    rw [hm] at h ⊢
    exact hbelow h
  · rw [hpower] at hlow hlarge
    exact (not_le.mp hlarge).le.trans (hbelow hlow)

/-- Above a number on the grid there is room of a step. -/
theorem add_le_value (hx : x.isFinite = true) (hk : -1022 ≤ k) {n : ℤ}
    (hlow : (2 : ℚ) ^ k ≤ n * 2 ^ (k - 52)) (h : n * 2 ^ (k - 52) < x.value) :
    (n + 1) * 2 ^ (k - 52) ≤ x.value := by
  have hstep := two_zpow_pos (k - 52)
  obtain ⟨m, hm⟩ := exists_multiple hx hk ((hlow.trans h.le).trans (le_abs_self _))
  rw [hm] at h ⊢
  have hlt : n < m := Int.cast_lt.mp ((mul_lt_mul_iff_left₀ hstep).mp h)
  have hle : (n : ℚ) + 1 ≤ m := by
    exact_mod_cast Int.add_one_le_of_lt hlt
  exact mul_le_mul_of_nonneg_right hle hstep.le

/-! ### Steps between doubles -/

/-- How far the next double is from the absolute value of this one. -/
def ulp : Binary64 → ℚ
  | nan => 0
  | signed _ place => (unitsAt (place.val + 1) - unitsAt place.val) / unitsPerOne

/-- A step is at least one part in `2 ^ 53` of the number. -/
theorem abs_value_le_ulp (hx : x.isFinite = true) : |x.value| / 2 ^ 53 ≤ ulp x := by
  cases x with
  | nan => cases hx
  | signed negative place =>
    have hplace : place.val < infinitePlace := of_decide_eq_true hx
    have hlt := unitsAt_lt_unitsAt hplace place.val.lt_succ_self
    obtain ⟨digits, shift, hunits, hu, hlong, -⟩ := exists_digits place.val
    have hstep : unitsAt place.val + twoTo shift ≤ unitsAt (place.val + 1) := by
      rcases hlong with rfl | hlong
      · rw [twoTo_zero]
        exact hlt
      · have hlow : twoTo 52 * twoTo shift ≤ unitsAt place.val := by
          rw [hunits]
          exact Nat.mul_le_mul_right _ hlong
        obtain ⟨c, hc⟩ := dvd_unitsAt hlow
        obtain ⟨d, hd⟩ := dvd_unitsAt (hlow.trans hlt.le)
        rw [Nat.succ_eq_add_one] at hlt
        rw [hc, hd] at hlt ⊢
        rw [← Nat.mul_succ]
        exact Nat.mul_le_mul_left _ (Nat.lt_of_mul_lt_mul_left hlt)
    have hmost : (unitsAt place.val : ℚ) ≤ 2 ^ 53 * twoTo shift := by
      rw [hunits, Nat.cast_mul, ← cast_twoTo 53]
      exact mul_le_mul_of_nonneg_right (Nat.cast_le.mpr hu.le) (Nat.cast_nonneg _)
    have hstep' : (unitsAt place.val : ℚ) + twoTo shift ≤ unitsAt (place.val + 1) := by
      exact_mod_cast hstep
    rw [abs_value_signed, ulp, div_right_comm]
    refine div_le_div_of_nonneg_right ?_ unitsPerOne_cast_pos.le
    rw [div_le_iff₀ (by norm_num)]
    linarith

end Montage.Numeric.Binary64
