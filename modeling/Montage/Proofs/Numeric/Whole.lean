import Mathlib.Data.Rat.Floor
import Montage.Proofs.Numeric.Grid

/-!
# Whole numbers among the doubles

Every integer part of a double is a double, and so is every integer of at most 53 digits. The floor
of a double is therefore exact, and so are remainders, and sums and products of small integers.
-/

namespace Montage.Numeric.Binary64

variable {x y : Binary64} {m : ℤ}

/-- An integer of at most 53 digits is rounded to itself. -/
theorem Rounds.eq_of_whole (h : x.Rounds m) (hm : |m| ≤ 2 ^ 53) :
    x.isFinite = true ∧ x.value = m := by
  obtain ⟨r, hr, hvalue⟩ := exists_value_eq (e := 0) hm (by decide) (by decide)
  rw [zpow_zero, mul_one] at hvalue
  rw [← hvalue] at h ⊢
  exact h.eq_value hr

/-- From `2 ^ 52` on all doubles are integers. -/
theorem exists_whole (hx : x.isFinite = true) (h : 2 ^ 52 ≤ |x.value|) :
    ∃ n : ℤ, x.value = n := by
  obtain ⟨n, hn⟩ := exists_multiple (k := 52) hx (by decide) (by exact_mod_cast h)
  exact ⟨n, by rw [hn, sub_self, zpow_zero, mul_one]⟩

/-- From `2 ^ 53` on all doubles are even integers. -/
theorem exists_even (hx : x.isFinite = true) (h : 2 ^ 53 ≤ |x.value|) :
    ∃ n : ℤ, x.value = 2 * n := by
  obtain ⟨n, hn⟩ := exists_multiple (k := 53) hx (by decide) (by exact_mod_cast h)
  exact ⟨n, by rw [hn]; norm_num; ring⟩

/-! ### Integer parts -/

theorem floorInt_eq (x : Binary64) : x.floorInt = ⌊x.value⌋ := by
  rw [floorInt, Int.fdiv_eq_ediv_of_nonneg _ (Int.natCast_nonneg _), value,
    Rat.floor_intCast_div_natCast]

/-- The floor of a number has its sign. -/
private theorem withSign_abs_floor (negative : Bool) {q : ℚ} (hq : 0 ≤ q) :
    withSign negative (|⌊withSign negative q⌋| : ℤ) = (⌊withSign negative q⌋ : ℤ) := by
  cases negative with
  | false =>
    show ((|⌊q⌋| : ℤ) : ℚ) = (⌊q⌋ : ℤ)
    rw [abs_of_nonneg (Int.floor_nonneg.mpr hq)]
  | true =>
    have hfloor : ⌊-q⌋ ≤ 0 := by
      exact_mod_cast (Int.floor_le (-q)).trans (neg_nonpos.mpr hq)
    show -((|⌊-q⌋| : ℤ) : ℚ) = (⌊-q⌋ : ℤ)
    rw [abs_of_nonpos hfloor, Int.cast_neg, neg_neg]

private theorem floor_rounds (hx : x.isFinite = true) : x.floor.Rounds (⌊x.value⌋ : ℤ) := by
  obtain ⟨negative, place, rfl, hplace⟩ := exists_signed_of_isFinite hx
  by_cases hz : place.val = 0
  · have hzero : place = 0 := Fin.ext hz
    have hvalue : (signed negative 0).value = 0 := by
      rw [value, units_signed_zero, Int.cast_zero, zero_div]
    rw [floor, if_pos (Or.inr hz), hzero, hvalue, Int.floor_zero, Int.cast_zero]
    exact signed_zero_rounds negative
  · have hround := ofRatio_rounds negative (signed negative place).floorInt.natAbs Nat.one_pos
    have hratio : (0 : ℚ) ≤ unitsAt place / unitsPerOne :=
      div_nonneg (Nat.cast_nonneg _) (Nat.cast_nonneg _)
    rw [Nat.cast_natAbs, Nat.cast_one, div_one, floorInt_eq, value_signed,
      withSign_abs_floor negative hratio, ← value_signed] at hround
    rw [floor, if_neg (by simp [hplace, hz]), floorInt_eq]
    exact hround

/-- The floor of a finite double is its integer part. -/
theorem value_floor (hx : x.isFinite = true) :
    x.floor.isFinite = true ∧ x.floor.value = (⌊x.value⌋ : ℤ) := by
  have hround := floor_rounds hx
  by_cases hlarge : 2 ^ 52 ≤ |x.value|
  · obtain ⟨n, hn⟩ := exists_whole hx hlarge
    have hfloor : ((⌊x.value⌋ : ℤ) : ℚ) = x.value := by rw [hn, Int.floor_intCast]
    rw [hfloor] at hround ⊢
    exact hround.eq_value hx
  · apply hround.eq_of_whole
    obtain ⟨hlow, hhigh⟩ := abs_lt.mp (not_le.mp hlarge)
    have hbelow : -(2 ^ 52 : ℤ) ≤ ⌊x.value⌋ := Int.le_floor.mpr (by exact_mod_cast hlow.le)
    have habove : ⌊x.value⌋ < (2 ^ 52 : ℤ) := Int.floor_lt.mpr (by exact_mod_cast hhigh)
    rw [abs_le]
    constructor <;> linarith

/-- A double that is an integer is brought between the bounds as it is. -/
theorem toIntWithin_of_value (hx : x.isFinite = true) (h : x.value = m) (low high : ℤ) :
    toIntWithin low high x = max low (min high m) := by
  have hunits : x.units = m * unitsPerOne := by
    rw [value, div_eq_iff unitsPerOne_cast_pos.ne'] at h
    exact_mod_cast h
  obtain ⟨negative, place, rfl, hplace⟩ := exists_signed_of_isFinite hx
  have hone : (unitsPerOne : ℤ) ≠ 0 := Int.natCast_ne_zero.mpr unitsPerOne_pos.ne'
  rw [toIntWithin, if_neg hplace, hunits, Int.mul_tdiv_cancel _ hone]

/-- The floor of a double within the bounds, as an integer. -/
theorem toIntWithin_floor (hx : x.isFinite = true) (low high : ℤ) :
    x.floor.toIntWithin low high = max low (min high ⌊x.value⌋) := by
  obtain ⟨hfinite, hvalue⟩ := value_floor hx
  exact toIntWithin_of_value hfinite hvalue low high

/-! ### Small integers -/

theorem value_ofNat {n : ℕ} (h : n ≤ 2 ^ 53) :
    (ofNat n).isFinite = true ∧ (ofNat n).value = n := by
  have hround : (ofNat n).Rounds ((n : ℤ) : ℚ) := by
    have hratio := ofRatio_rounds false n Nat.one_pos
    rwa [Nat.cast_one, div_one] at hratio
  have hsmall : |(n : ℤ)| ≤ 2 ^ 53 := by
    rw [Nat.abs_cast]
    exact_mod_cast h
  exact hround.eq_of_whole hsmall

/-! ### Division by small integers -/

/-- The remainder of finite doubles is exact, with the sign of the first. -/
private theorem value_rem_signed {s t : Bool} {p q : Fin (infinitePlace + 1)}
    (hp : p.val < infinitePlace) (hq : q.val < infinitePlace) (hq0 : q.val ≠ 0) :
    (signed s p % signed t q).isFinite = true ∧
      (signed s p % signed t q).value = withSign s ((unitsAt p % unitsAt q : ℕ) / unitsPerOne) := by
  obtain ⟨place, hplace, hunits⟩ := exists_unitsAt_eq_mod hp hq
  have hnearest := nearestPlace_unitsAt Nat.one_pos hplace.le
  rw [Nat.mul_one] at hnearest
  have hrem : signed s p % signed t q = signed s (nearestPlace (unitsAt place) 1) := by
    show rem (signed s p) (signed t q) = _
    simp only [rem, hp.ne, hq.ne, hq0, or_self, if_false, hunits]
  rw [hrem]
  refine ⟨decide_eq_true (by rw [hnearest]; exact hplace), ?_⟩
  rw [value_signed, hnearest, hunits]

/-- A small integer as a place. -/
private theorem exists_ofNat_eq {n : ℕ} (hn : 0 < n) (hn' : n ≤ 2 ^ 53) :
    ∃ q : Fin (infinitePlace + 1), ofNat n = signed false q ∧ q.val < infinitePlace ∧ q.val ≠ 0 ∧
      unitsAt q = n * unitsPerOne := by
  obtain ⟨hfinite, hvalue⟩ := value_ofNat hn'
  generalize hq : nearestPlace (n * unitsPerOne) 1 = q
  have hnat : ofNat n = signed false q := by rw [← hq]; rfl
  rw [hnat] at hfinite hvalue
  rw [value_signed, withSign, if_neg Bool.false_ne_true, div_eq_iff unitsPerOne_cast_pos.ne']
    at hvalue
  have hunits : unitsAt q = n * unitsPerOne := by exact_mod_cast hvalue
  refine ⟨q, hnat, of_decide_eq_true hfinite, fun hzero ↦ ?_, hunits⟩
  have hnone : unitsAt q.val = 0 := by rw [hzero]; rfl
  rw [hunits] at hnone
  exact (Nat.mul_pos hn unitsPerOne_pos).ne' hnone

/-- A remainder of units, as a number. -/
private theorem mod_div_eq (units : ℕ) {one n : ℕ} (hone : 0 < one) (hn : 0 < n) :
    ((units % (n * one) : ℕ) : ℚ) / one = units / one - n * ⌊(units / one / n : ℚ)⌋ := by
  have hone' : (one : ℚ) ≠ 0 := Nat.cast_ne_zero.mpr hone.ne'
  have hn' : (n : ℚ) ≠ 0 := Nat.cast_ne_zero.mpr hn.ne'
  have hfloor : ⌊(units / one / n : ℚ)⌋ = (units / (n * one) : ℕ) := by
    rw [div_div, mul_comm (one : ℚ)]
    exact_mod_cast Rat.floor_natCast_div_natCast units (n * one)
  have hsplit : (units : ℚ) = n * one * (units / (n * one) : ℕ) + (units % (n * one) : ℕ) := by
    exact_mod_cast (Nat.div_add_mod units (n * one)).symm
  rw [hfloor, Int.cast_natCast]
  generalize units % (n * one) = rest at hsplit
  rw [hsplit]
  field_simp
  ring

/-- A double with a minus sign that is not below zero is a zero. -/
private theorem unitsAt_eq_zero_of_nonneg {place : Fin (infinitePlace + 1)}
    (h : 0 ≤ (signed true place).value) : unitsAt place = 0 := by
  rw [value_signed, withSign, if_pos rfl, neg_nonneg] at h
  have hle := (div_le_iff₀ unitsPerOne_cast_pos).mp h
  rw [zero_mul] at hle
  exact_mod_cast le_antisymm hle (Nat.cast_nonneg _)

/-- The remainder by an integer is exact. -/
theorem value_rem {n : ℕ} (hx : x.isFinite = true) (h0 : 0 ≤ x.value) (hn : 0 < n)
    (hn' : n ≤ 2 ^ 53) :
    (x % ofNat n).isFinite = true ∧ (x % ofNat n).value = x.value - n * ⌊x.value / n⌋ := by
  cases x with
  | nan => cases hx
  | signed s p =>
    obtain ⟨q, hnat, hq, hq0, hunits⟩ := exists_ofNat_eq hn hn'
    rw [hnat]
    obtain ⟨hfinite, hvalue⟩ :=
      value_rem_signed (s := s) (t := false) (of_decide_eq_true hx) hq hq0
    refine ⟨hfinite, ?_⟩
    rw [hvalue, hunits]
    cases s with
    | false =>
      rw [value_signed, withSign, withSign, if_neg Bool.false_ne_true, if_neg Bool.false_ne_true]
      exact mod_div_eq _ unitsPerOne_pos hn
    | true =>
      have hzero := unitsAt_eq_zero_of_nonneg h0
      rw [value_signed, hzero, Nat.zero_mod, Nat.cast_zero, zero_div, withSign_zero, zero_div,
        Int.floor_zero, Int.cast_zero, mul_zero, sub_zero]

/-- Below an integer there is room of more than its `2 ^ 53`-rd part. -/
private theorem value_lt_sub_part {p : ℕ} (hx : x.isFinite = true) (hp : 2 ≤ p) (hp' : p ≤ 2 ^ 53)
    (h : x.value < p) : x.value * (1 + 1 / 2 ^ 53) < p := by
  have hlow := Nat.log2_self_le (Nat.sub_ne_zero_of_lt hp)
  have hhigh := Nat.lt_log2_self (n := p - 1)
  have hlog : (p - 1).log2 ≤ 52 := by
    have hlt : (p - 1).log2 < 53 := (Nat.log2_lt (Nat.sub_ne_zero_of_lt hp)).mpr (by omega)
    omega
  generalize (p - 1).log2 = log at hlow hhigh hlog
  have hgrid : ((p * 2 ^ (52 - log) : ℕ) : ℚ) * 2 ^ ((log : ℤ) - 52) = p := by
    have hexp : ((52 - log : ℕ) : ℤ) + (log - 52) = 0 := by omega
    rw [Nat.cast_mul, Nat.cast_pow, Nat.cast_ofNat, mul_assoc, ← zpow_natCast,
      ← zpow_add₀ two_ne_zero, hexp, zpow_zero, mul_one]
  have hstep : (2 : ℚ) ^ ((log : ℤ) - 52) * 2 ^ 53 = 2 ^ (log + 1) := by
    have hexp : (log : ℤ) - 52 + (53 : ℕ) = (log + 1 : ℕ) := by omega
    rw [← zpow_natCast 2 53, ← zpow_natCast 2 (log + 1), ← zpow_add₀ two_ne_zero, hexp]
  have hbelow : x.value ≤ p - 2 ^ ((log : ℤ) - 52) := by
    have hroom := value_le_sub (k := log) (n := (p * 2 ^ (52 - log) : ℕ)) hx (by omega)
      (by rw [Int.cast_natCast, hgrid, zpow_natCast]; exact_mod_cast (by omega : 2 ^ log < p))
      (by rwa [Int.cast_natCast, hgrid])
    rwa [Int.cast_natCast, sub_mul, hgrid, one_mul] at hroom
  have hmost : (p : ℚ) ≤ 2 ^ (log + 1) := by exact_mod_cast (by omega : p ≤ 2 ^ (log + 1))
  generalize (2 : ℚ) ^ ((log : ℤ) - 52) = step at hstep hbelow
  rw [← hstep] at hmost
  linarith

private theorem div_ofNat_rounds {n : ℕ} (hx : x.isFinite = true) (hn : 0 < n)
    (hn' : n ≤ 2 ^ 53) : (x / ofNat n).Rounds (x.value / n) := by
  obtain ⟨hnf, hnvalue⟩ := value_ofNat hn'
  rw [← hnvalue]
  exact div_rounds hx hnf (by rw [hnvalue]; exact Nat.cast_ne_zero.mpr hn.ne')

/-- A quotient below an integer is not rounded up to it. -/
private theorem div_lt_of_div_lt {n k : ℕ} (hx : x.isFinite = true) (hn : 2 ≤ n)
    (hp : (k + 1) * n ≤ 2 ^ 53) (hq : (x / ofNat n).isFinite = true)
    (hlow : 1 / 2 ≤ x.value / n) (hhigh : x.value / n < k + 1) : (x / ofNat n).value < k + 1 := by
  have hn0 : (0 : ℚ) < n := Nat.cast_pos.mpr (by omega)
  have hround := div_ofNat_rounds hx (by omega : 0 < n)
    ((Nat.le_mul_of_pos_left n k.succ_pos).trans hp)
  have habs : |x.value / n| = x.value / n := abs_of_nonneg (by linarith)
  have hnormal : 1 / 2 ^ 1022 ≤ |x.value / n| := by
    rw [habs]
    exact (one_div_le_one_div_of_le two_pos (le_self_pow₀ one_le_two (by decide))).trans hlow
  have hnear := (le_abs_self _).trans (hround.near_of_large hq hnormal)
  rw [habs] at hnear
  rw [div_lt_iff₀ hn0] at hhigh
  have hroom := value_lt_sub_part hx (hn.trans (Nat.le_mul_of_pos_left n k.succ_pos)) hp
    (by push_cast; exact hhigh)
  push_cast at hroom
  calc (x / ofNat n).value ≤ x.value * (1 + 1 / 2 ^ 53) / n := by
        rw [mul_div_right_comm]
        linarith
    _ < k + 1 := by rwa [div_lt_iff₀ hn0]

/-- The integer part of a quotient by an integer is exact. -/
theorem floor_div {n : ℕ} (hx : x.isFinite = true) (h0 : 0 ≤ x.value) (hn : 2 ≤ n)
    (hb : x.value + n ≤ 2 ^ 53) :
    (x / ofNat n).isFinite = true ∧ ⌊(x / ofNat n).value⌋ = ⌊x.value / n⌋ := by
  have hone : (1 : ℚ) ≤ n := by exact_mod_cast (by omega : 1 ≤ n)
  have hq : 0 ≤ x.value / n := div_nonneg h0 (by linarith)
  have hqle : x.value / n ≤ 2 ^ 53 := (div_le_self h0 hone).trans (by linarith)
  have hround := div_ofNat_rounds hx (by omega : 0 < n)
    (by exact_mod_cast (by linarith : (n : ℚ) ≤ 2 ^ 53))
  have hfinite : (x / ofNat n).isFinite = true := by
    refine hround.isFinite_of_le ?_
    rw [abs_of_nonneg hq]
    exact hqle.trans (pow_le_pow_right₀ one_le_two (by decide))
  refine ⟨hfinite, ?_⟩
  have hlow := Int.floor_le (x.value / n)
  have hhigh := Int.lt_floor_add_one (x.value / n)
  obtain ⟨k, hk⟩ := Int.eq_ofNat_of_zero_le (Int.floor_nonneg.mpr hq)
  rw [hk, Int.cast_natCast] at hlow hhigh
  rw [hk, Int.floor_eq_iff, Int.cast_natCast]
  constructor
  · obtain ⟨hkf, hkvalue⟩ := value_ofNat (n := k) (by exact_mod_cast hlow.trans hqle)
    rw [← hkvalue] at hlow ⊢
    exact hround.le_value hkf hlow
  · rcases le_total (1 / 2) (x.value / n) with hlarge | hsmall
    · have hp : ((k + 1) * n : ℕ) ≤ 2 ^ 53 := by
        rw [le_div_iff₀ (by linarith)] at hlow
        exact_mod_cast (by linarith : ((k : ℚ) + 1) * n ≤ 2 ^ 53)
      exact div_lt_of_div_lt hx hn hp hfinite hlarge hhigh
    · -- Below one half the quotient is not rounded beyond it.
      obtain ⟨r, hr, hvalue⟩ := exists_value_eq (m := 1) (e := -1) (by norm_num) (by decide)
        (by decide)
      have hhalf : r.value = 1 / 2 := by rw [hvalue]; norm_num
      rw [← hhalf] at hsmall
      have hle := hround.value_le hr hsmall
      have hk0 : (0 : ℚ) ≤ k := Nat.cast_nonneg k
      linarith

end Montage.Numeric.Binary64
