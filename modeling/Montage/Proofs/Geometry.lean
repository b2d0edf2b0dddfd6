import Montage.Geometry
import Montage.Proofs.Numeric.Monotone
import Montage.Proofs.Numeric.Whole
import Montage.Quality

/-!
# Rounding to pixels

A length is rounded by adding a half and taking the floor. The sum is rounded as well, and there are
numbers that it carries to the next integer: the double just below one half, and the odd integers
that need all 53 digits. All other numbers are rounded half up exactly. Rounding keeps the order of
doubles and gives words.
-/

namespace Montage.Geometry

open Montage.Numeric (Binary64)
open Montage.Numeric.Binary64

variable {x : Binary64}

/-- A half added to the number is rounded up to an integer that the exact sum does not reach. -/
def CarriesHalf (x : Binary64) : Prop :=
  x.value = 1 / 2 - 1 / 2 ^ 54 ∨
    ∃ n : ℤ, x.value = n ∧ n % 2 = 1 ∧ 2 ^ 52 < |n| ∧ |n| < 2 ^ 53

/-! ### The sum with a half -/

private theorem value_half : (0.5 : Binary64).isFinite = true ∧ (0.5 : Binary64).value = 1 / 2 := by
  refine ⟨by decide +kernel, ?_⟩
  have hvalue : (0.5 : Binary64).value = (1 : ℤ) / (2 : ℕ) :=
    value_eq_div two_pos (by decide +kernel)
  rw [hvalue, Int.cast_one, Nat.cast_ofNat]

private theorem add_half_rounds (hx : x.isFinite = true) :
    (x + 0.5).Rounds (x.value + 1 / 2) := by
  have hround := add_rounds hx value_half.1
  rwa [value_half.2] at hround

private theorem bounds_add_half (hx : x.isFinite = true) (hb : |x.value| < 2 ^ 62) :
    (x + 0.5).isFinite = true ∧ -2 ^ 62 ≤ (x + 0.5).value ∧ (x + 0.5).value ≤ 3 * 2 ^ 61 := by
  have hround := add_half_rounds hx
  obtain ⟨hlow, hhigh⟩ := abs_lt.mp hb
  obtain ⟨low, hl, hlvalue⟩ := exists_value_eq (m := -1) (e := 62) (by decide) (by decide)
    (by decide)
  obtain ⟨high, hh, hhvalue⟩ := exists_value_eq (m := 3) (e := 61) (by decide) (by decide)
    (by decide)
  have hl' : low.value = -2 ^ 62 := by rw [hlvalue]; norm_num
  have hh' : high.value = 3 * 2 ^ 61 := by rw [hhvalue]; norm_num
  have hle : low.value ≤ x.value + 1 / 2 := by linarith
  have hge : x.value + 1 / 2 ≤ high.value := by linarith
  rw [← hl', ← hh']
  exact ⟨hround.isFinite hl hh hle hge, hround.le_value hl hle, hround.value_le hh hge⟩

private theorem roundHalfUp_eq_floor_add_half (hx : x.isFinite = true) (hb : |x.value| < 2 ^ 62) :
    roundHalfUp x = ⌊(x + 0.5).value⌋ := by
  obtain ⟨hfinite, hlow, hhigh⟩ := bounds_add_half hx hb
  have hbelow : -2 ^ 62 ≤ ⌊(x + 0.5).value⌋ := Int.le_floor.mpr (by exact_mod_cast hlow)
  have habove : ⌊(x + 0.5).value⌋ ≤ 3 * 2 ^ 61 := by
    exact_mod_cast (Int.floor_le _).trans hhigh
  have htwo : ((Numeric.twoTo 63 : ℕ) : ℤ) = 2 ^ 63 := by norm_num [Numeric.twoTo]
  rw [roundHalfUp, toIntWithin_floor hfinite, htwo]
  omega

/-! ### Numbers with less than 53 digits before the point -/

/-- The grid of a half beyond an integer: the number and a half are multiples of its step, and the
next integer has no more than 53 digits on it. -/
private theorem exists_grid {m : ℕ} (h : m < 2 ^ 52) :
    ∃ (c b : ℕ) (k : ℤ), -1 ≤ k ∧ k ≤ 51 ∧ (2 ^ 52 ≤ c ∧ (0 < m → 2 ^ 52 < c)) ∧
      (0 < b ∧ b ≤ c ∧ c + b ≤ 2 ^ 53) ∧
        (c : ℚ) * 2 ^ (k - 52) = m + 1 / 2 ∧ (b : ℚ) * 2 ^ (k - 52) = 1 / 2 := by
  have hlog : (2 * m + 1).log2 ≤ 52 := by
    have hlt : (2 * m + 1).log2 < 53 := (Nat.log2_lt (Nat.succ_ne_zero (2 * m))).mpr (by omega)
    omega
  have hlow : 2 ^ (2 * m + 1).log2 ≤ 2 * m + 1 := Nat.log2_self_le (Nat.succ_ne_zero (2 * m))
  have hhigh := Nat.lt_log2_self (n := 2 * m + 1)
  generalize (2 * m + 1).log2 = log at hlog hlow hhigh
  obtain ⟨j, hj⟩ := Nat.exists_eq_add_of_le hlog
  have hpos : 0 < 2 ^ j := pow_pos two_pos j
  have hfull : 2 ^ log * 2 ^ j = 2 ^ 52 := by rw [← pow_add, ← hj]
  have hnext : 2 ^ (log + 1) * 2 ^ j = 2 ^ 53 := by rw [pow_succ, mul_right_comm, hfull, ← pow_succ]
  have hhalf : ((2 ^ j : ℕ) : ℚ) * 2 ^ ((log - 1 : ℤ) - 52) = 1 / 2 := by
    have hexp : (j : ℤ) + ((log - 1) - 52) = -1 := by omega
    rw [Nat.cast_pow, Nat.cast_ofNat, ← zpow_natCast, ← zpow_add₀ two_ne_zero, hexp, zpow_neg_one,
      one_div]
  refine ⟨(2 * m + 1) * 2 ^ j, 2 ^ j, log - 1, by omega, by omega, ⟨?_, fun hm ↦ ?_⟩,
    ⟨hpos, Nat.le_mul_of_pos_left _ (by omega), ?_⟩, ?_, hhalf⟩
  · rw [← hfull]
    exact Nat.mul_le_mul_right _ hlow
  · rw [← hfull]
    refine Nat.mul_lt_mul_of_pos_right (lt_of_le_of_ne hlow fun heq ↦ ?_) hpos
    -- An odd number beyond one is no power of two.
    cases log with
    | zero => omega
    | succ log => rw [pow_succ] at heq; omega
  · rw [← hnext, ← Nat.succ_mul]
    exact Nat.mul_le_mul_right _ hhigh
  · rw [Nat.cast_mul, mul_assoc, hhalf]
    push_cast
    ring

private theorem zpow_eq_mul_step (k : ℤ) : (2 : ℚ) ^ k = 2 ^ 52 * 2 ^ (k - 52) := by
  have hcast : (2 : ℚ) ^ 52 = 2 ^ (52 : ℤ) := by norm_cast
  rw [hcast, ← zpow_add₀ two_ne_zero, add_sub_cancel]

private theorem add_half_lt_of_pos {m : ℕ} (hx : x.isFinite = true) (hm : 0 < m)
    (hm' : m < 2 ^ 52) (h : x.value < m + 1 / 2) : (x + 0.5).value < m + 1 := by
  obtain ⟨c, b, k, hk, hk', ⟨-, hlow⟩, ⟨hb, -, hhigh⟩, hgrid, hhalf⟩ := exists_grid hm'
  have hstep : (0 : ℚ) < 2 ^ (k - 52) := zpow_pos two_pos _
  have hpower := zpow_eq_mul_step k
  have hbelow := value_le_sub (k := k) (n := c) hx (by omega)
    (by
      rw [hpower, Int.cast_natCast]
      exact mul_lt_mul_of_pos_right (by exact_mod_cast hlow hm) hstep)
    (by rwa [Int.cast_natCast, hgrid])
  obtain ⟨r, hr, hvalue⟩ := exists_value_eq (m := c - 1 + b) (e := k - 52)
    (by rw [abs_le]; constructor <;> omega) (by omega) (by omega)
  push_cast at hvalue hbelow
  generalize (2 : ℚ) ^ (k - 52) = step at hstep hgrid hhalf hvalue hbelow
  refine ((add_half_rounds hx).value_le hr ?_).trans_lt ?_ <;> linarith

private theorem add_half_lt_of_neg {m : ℕ} (hx : x.isFinite = true) (hm : m < 2 ^ 52)
    (h : x.value < -(m + 1 / 2)) : (x + 0.5).value < -m := by
  obtain ⟨c, b, k, hk, hk', ⟨hlow, -⟩, ⟨hb, hbc, hhigh⟩, hgrid, hhalf⟩ := exists_grid hm
  have hstep : (0 : ℚ) < 2 ^ (k - 52) := zpow_pos two_pos _
  have hpower := zpow_eq_mul_step k
  have habove := add_le_value (k := k) (n := c) ((isFinite_neg x).trans hx) (by omega)
    (by
      rw [hpower, Int.cast_natCast]
      exact mul_le_mul_of_nonneg_right (by exact_mod_cast hlow) hstep.le)
    (by rw [Int.cast_natCast, hgrid, value_neg]; linarith)
  obtain ⟨r, hr, hvalue⟩ := exists_value_eq (m := b - c - 1) (e := k - 52)
    (by rw [abs_le]; constructor <;> omega) (by omega) (by omega)
  rw [value_neg] at habove
  push_cast at hvalue habove
  generalize (2 : ℚ) ^ (k - 52) = step at hstep hgrid hhalf hvalue habove
  refine ((add_half_rounds hx).value_le hr ?_).trans_lt ?_ <;> linarith

/-- Around zero only the double just below one half is carried. -/
private theorem add_half_lt_one (hx : x.isFinite = true) (h : x.value < 1 / 2)
    (hne : x.value ≠ 1 / 2 - 1 / 2 ^ 54) : (x + 0.5).value < 1 := by
  have hle : x.value ≤ 1 / 2 - 1 / 2 ^ 53 := by
    by_contra hgt
    have hbelow := value_le_sub (k := -2) (n := 2 ^ 53) hx (by decide) (by norm_num)
      (by norm_num; linarith)
    have habove := add_le_value (k := -2) (n := 2 ^ 53 - 2) hx (by decide) (by norm_num)
      (by norm_num at hgt ⊢; linarith)
    norm_num at hbelow habove
    exact hne (le_antisymm (by norm_num; linarith) (by norm_num; linarith))
  obtain ⟨r, hr, hvalue⟩ := exists_value_eq (m := 2 ^ 53 - 1) (e := -53) (by norm_num) (by decide)
    (by decide)
  norm_num at hvalue hle
  refine ((add_half_rounds hx).value_le hr ?_).trans_lt ?_ <;> linarith

private theorem add_half_below_one (hx : x.isFinite = true) (h : x.value = 1 / 2 - 1 / 2 ^ 54) :
    (x + 0.5).value = 1 := by
  have hround := add_half_rounds hx
  have htie : x.value + 1 / 2 = (2 * ((2 ^ 53 - 1 : ℕ) : ℚ) + 1) * 2 ^ ((-53 : ℤ) - 1) := by
    rw [h]
    norm_num
  rw [htie] at hround
  rw [hround.eq_of_tie (by norm_num) (by norm_num) (by decide) (by decide)]
  norm_num

/-- The last half below `2 ^ 52` reaches it exactly. -/
private theorem add_half_le_of_last (hx : x.isFinite = true) (h : x.value < 2 ^ 52) :
    (x + 0.5).value ≤ 2 ^ 52 := by
  have hbelow := value_le_sub (k := 51) (n := 2 ^ 53) hx (by decide) (by norm_num)
    (by norm_num; linarith)
  obtain ⟨r, hr, hvalue⟩ := exists_value_eq (m := 2 ^ 52) (e := 0) (by norm_num) (by decide)
    (by decide)
  rw [zpow_zero, mul_one, Int.cast_pow, Int.cast_ofNat] at hvalue
  norm_num at hbelow
  rw [← hvalue]
  exact (add_half_rounds hx).value_le hr (by rw [hvalue]; linarith)

private theorem floor_le_add_half (hx : x.isFinite = true) (h : |x.value| < 2 ^ 52) :
    (⌊x.value + 1 / 2⌋ : ℤ) ≤ (x + 0.5).value := by
  obtain ⟨hlow, hhigh⟩ := abs_lt.mp h
  have hle := Int.floor_le (x.value + 1 / 2)
  have hbelow : -2 ^ 53 ≤ ⌊x.value + 1 / 2⌋ := Int.le_floor.mpr (by push_cast; linarith)
  have habove : ⌊x.value + 1 / 2⌋ ≤ 2 ^ 53 := by
    have hlt : (⌊x.value + 1 / 2⌋ : ℚ) ≤ (2 ^ 53 : ℤ) := by push_cast; linarith
    exact_mod_cast hlt
  obtain ⟨r, hr, hvalue⟩ := exists_value_eq (e := 0) (abs_le.mpr ⟨hbelow, habove⟩) (by decide)
    (by decide)
  rw [zpow_zero, mul_one] at hvalue
  rw [← hvalue] at hle ⊢
  exact (add_half_rounds hx).le_value hr hle

/-- Below `2 ^ 52` the rounded sum does not reach another integer, except from below one half. -/
private theorem add_half_lt_floor (hx : x.isFinite = true) (h : |x.value| < 2 ^ 52)
    (hne : x.value ≠ 1 / 2 - 1 / 2 ^ 54) : (x + 0.5).value < ⌊x.value + 1 / 2⌋ + 1 := by
  obtain ⟨hlow, hhigh⟩ := abs_lt.mp h
  have hlt := Int.lt_floor_add_one (x.value + 1 / 2)
  have hbelow : -2 ^ 52 ≤ ⌊x.value + 1 / 2⌋ := Int.le_floor.mpr (by push_cast; linarith)
  have habove : ⌊x.value + 1 / 2⌋ ≤ 2 ^ 52 := by
    rw [← Int.lt_add_one_iff, Int.floor_lt]
    push_cast
    linarith
  generalize ⌊x.value + 1 / 2⌋ = n at hlt hbelow habove
  rcases lt_trichotomy n 0 with hn | rfl | hn
  · obtain ⟨m, rfl⟩ : ∃ m : ℕ, n = -m - 1 := ⟨(-n - 1).toNat, by omega⟩
    push_cast at hlt ⊢
    have hneg := add_half_lt_of_neg (m := m) hx (by omega) (by linarith)
    linarith
  · rw [Int.cast_zero, zero_add] at hlt ⊢
    exact add_half_lt_one hx (by linarith) hne
  · rcases eq_or_lt_of_le habove with rfl | hn'
    · refine (add_half_le_of_last hx hhigh).trans_lt ?_
      norm_num
    · obtain ⟨m, rfl⟩ := Int.eq_ofNat_of_zero_le hn.le
      exact add_half_lt_of_pos hx (by omega) (by omega) (by push_cast at hlt ⊢; linarith)

/-! ### Whole numbers of 53 and more digits -/

/-- Halves of 53 digits go to the even neighbour. -/
private theorem add_half_of_tie {n : ℤ} (hx : x.isFinite = true) (h : x.value = n)
    (hn : 2 ^ 52 ≤ n ∧ n < 2 ^ 53 ∨ -2 ^ 53 ≤ n ∧ n < -2 ^ 52) :
    (x + 0.5).value = (n + n % 2 : ℤ) := by
  have hround := add_half_rounds hx
  rw [h] at hround
  rcases hn with hn | hn
  · obtain ⟨m, rfl⟩ := Int.eq_ofNat_of_zero_le (by omega : 0 ≤ n)
    have htie : ((m : ℤ) : ℚ) + 1 / 2 = (2 * m + 1) * 2 ^ ((0 : ℤ) - 1) := by
      norm_num
      ring
    rw [htie] at hround
    rw [hround.eq_of_tie (by omega) (by omega) (by decide) (by decide), zpow_zero, mul_one]
    rfl
  · obtain ⟨m, rfl⟩ : ∃ m : ℕ, n = -m - 1 := ⟨(-n - 1).toNat, by omega⟩
    have hneg := hround.neg
    have htie : -(((-m - 1 : ℤ) : ℚ) + 1 / 2) = (2 * m + 1) * 2 ^ ((0 : ℤ) - 1) := by
      norm_num
      ring
    rw [htie] at hneg
    have hvalue := hneg.eq_of_tie (by omega) (by omega) (by decide) (by decide)
    rw [value_neg, zpow_zero, mul_one] at hvalue
    have heven : ((m + m % 2 : ℕ) : ℤ) = -(-m - 1 + (-m - 1) % 2) := by omega
    rw [← neg_inj, hvalue, ← Int.cast_natCast, heven, Int.cast_neg]

/-- With more digits the half is lost. -/
private theorem add_half_of_even {n : ℤ} (hx : x.isFinite = true) (hb : |x.value| < 2 ^ 62)
    (h : x.value = n) (hn : 2 ^ 53 ≤ n ∨ n < -2 ^ 53) : (x + 0.5).value = n := by
  have hfinite := (bounds_add_half hx hb).1
  have hround := add_half_rounds hx
  have hclose := hround.closest hfinite hx
  rw [h] at hclose
  have habs : |(n : ℚ) - (n + 1 / 2)| = 1 / 2 := by
    rw [sub_add_cancel_left, abs_neg]
    norm_num
  rw [habs, abs_le] at hclose
  have hn' : 2 ^ 53 ≤ |n| := le_abs.mpr (by omega)
  obtain ⟨a, ha⟩ := exists_even hx (by rw [h]; exact_mod_cast hn')
  rw [h] at ha
  have ha' : n = 2 * a := by exact_mod_cast ha
  have hlarge : (2 : ℚ) ^ 53 ≤ |(x + 0.5).value| := by
    rw [le_abs]
    rcases hn with hn | hn
    · have hcast : (2 : ℚ) ^ 53 ≤ n := by exact_mod_cast hn
      exact Or.inl (by linarith)
    · have hcast : (n : ℚ) ≤ -2 ^ 53 - 2 := by
        exact_mod_cast (by omega : n ≤ -2 ^ 53 - 2)
      exact Or.inr (by linarith)
  obtain ⟨b, hb⟩ := exists_even hfinite hlarge
  rw [hb] at hclose ⊢
  have hlow : n ≤ 2 * b := by
    have hle : (n : ℚ) ≤ 2 * b := by linarith
    exact_mod_cast hle
  have hhigh : 2 * b ≤ n + 1 := by
    have hle : 2 * (b : ℚ) ≤ n + 1 := by linarith
    exact_mod_cast hle
  have heq : 2 * b = n := by omega
  exact_mod_cast heq

/-! ### The rounding -/

private theorem floor_whole_add_half (n : ℤ) : ⌊(n : ℚ) + 1 / 2⌋ = n := by
  rw [Int.floor_intCast_add]
  norm_num

private theorem not_carriesHalf_of_lt (h : |x.value| < 2 ^ 52)
    (hne : x.value ≠ 1 / 2 - 1 / 2 ^ 54) : ¬ CarriesHalf x := by
  rintro (heq | ⟨n, hn, -, hlow, -⟩)
  · exact hne heq
  · rw [hn] at h
    exact absurd hlow (not_lt.mpr (by exact_mod_cast h.le))

private theorem carriesHalf_of_whole {n : ℤ} (h : x.value = n) (hlarge : 2 ^ 52 ≤ |n|) :
    CarriesHalf x ↔ n % 2 = 1 ∧ 2 ^ 52 < |n| ∧ |n| < 2 ^ 53 := by
  constructor
  · rintro (heq | ⟨m, hm, hodd⟩)
    · have hbelow : ((|n| : ℤ) : ℚ) < 1 := by
        rw [Int.cast_abs, ← h, heq]
        norm_num [abs_of_pos]
      have hlt : |n| < 1 := by exact_mod_cast hbelow
      omega
    · rw [h] at hm
      rw [Int.cast_injective hm]
      exact hodd
  · exact fun hodd ↦ Or.inr ⟨n, h, hodd⟩

/-- At the only integer left, `-2 ^ 52`, the sum is a double. -/
private theorem add_half_of_last {n : ℤ} (hx : x.isFinite = true) (h : x.value = n)
    (hn : n = -2 ^ 52) : ⌊(x + 0.5).value⌋ = n := by
  have hround := add_half_rounds hx
  obtain ⟨r, hr, hvalue⟩ := exists_value_eq (m := -2 ^ 53 + 1) (e := -1) (by norm_num) (by decide)
    (by decide)
  have hsum : x.value + 1 / 2 = r.value := by
    rw [h, hn, hvalue]
    norm_num
  rw [hsum] at hround
  rw [(hround.eq_value hr).2, ← hsum, h, floor_whole_add_half]

private theorem floor_add_half_of_whole {n : ℤ} (hx : x.isFinite = true) (hb : |x.value| < 2 ^ 62)
    (h : x.value = n) (hlarge : 2 ^ 52 ≤ |n|) :
    ⌊(x + 0.5).value⌋ = if 2 ^ 52 < |n| ∧ |n| < 2 ^ 53 then n + n % 2 else n := by
  have habs : 0 ≤ n ∧ |n| = n ∨ n < 0 ∧ |n| = -n :=
    (le_or_gt 0 n).imp (fun hn ↦ ⟨hn, abs_of_nonneg hn⟩) fun hn ↦ ⟨hn, abs_of_neg hn⟩
  by_cases htie : 2 ^ 52 ≤ n ∧ n < 2 ^ 53 ∨ -2 ^ 53 ≤ n ∧ n < -2 ^ 52
  · rw [add_half_of_tie hx h htie, Int.floor_intCast]
    split <;> omega
  · rw [if_neg (by omega)]
    by_cases hlast : n = -2 ^ 52
    · exact add_half_of_last hx h hlast
    · rw [add_half_of_even hx hb h (by omega), Int.floor_intCast]

/-- The floor of the rounded sum, from the floor of the exact one. -/
private theorem floor_add_half (hx : x.isFinite = true) (hb : |x.value| < 2 ^ 62) :
    (CarriesHalf x → ⌊(x + 0.5).value⌋ = ⌊x.value + 1 / 2⌋ + 1) ∧
      (¬ CarriesHalf x → ⌊(x + 0.5).value⌋ = ⌊x.value + 1 / 2⌋) := by
  rcases lt_or_ge |x.value| (2 ^ 52) with hsmall | hlarge
  · by_cases hcarry : x.value = 1 / 2 - 1 / 2 ^ 54
    · have hexact : ⌊x.value + 1 / 2⌋ = 0 := by
        rw [hcarry]
        norm_num
      rw [add_half_below_one hx hcarry, hexact, Int.floor_one]
      exact ⟨fun _ ↦ rfl, fun hnot ↦ absurd (Or.inl hcarry) hnot⟩
    · have hnot := not_carriesHalf_of_lt hsmall hcarry
      refine ⟨fun hyes ↦ absurd hyes hnot, fun _ ↦ ?_⟩
      rw [Int.floor_eq_iff]
      exact ⟨floor_le_add_half hx hsmall, add_half_lt_floor hx hsmall hcarry⟩
  · obtain ⟨n, hn⟩ := exists_whole hx hlarge
    have hn' : 2 ^ 52 ≤ |n| := by
      rw [hn] at hlarge
      exact_mod_cast hlarge
    rw [carriesHalf_of_whole hn hn', floor_add_half_of_whole hx hb hn hn', hn, floor_whole_add_half]
    split <;> omega

/-- A finite number below `2 ^ 62` is rounded half up, except that a carried half makes the result
one more. -/
theorem roundHalfUp_eq_floor_iff (hx : x.isFinite = true) (hb : |x.value| < 2 ^ 62) :
    (roundHalfUp x = ⌊x.value + 1 / 2⌋ ↔ ¬ CarriesHalf x) ∧
      (roundHalfUp x = ⌊x.value + 1 / 2⌋ + 1 ↔ CarriesHalf x) := by
  obtain ⟨hcarry, hexact⟩ := floor_add_half hx hb
  rw [roundHalfUp_eq_floor_add_half hx hb]
  by_cases h : CarriesHalf x
  · rw [hcarry h]
    exact ⟨⟨fun heq ↦ absurd heq (by omega), fun hnot ↦ absurd h hnot⟩, fun _ ↦ h, fun _ ↦ rfl⟩
  · rw [hexact h]
    exact ⟨⟨fun _ ↦ h, fun _ ↦ rfl⟩, fun heq ↦ absurd heq (by omega), fun hyes ↦ absurd hyes h⟩

theorem roundHalfUp_eq_floor_iff_vast :
    (4503599627370497 : Binary64).isFinite = true ∧
      |(4503599627370497 : Binary64).value| < 2 ^ 62 ∧
        (roundHalfUp 4503599627370497 = ⌊(4503599627370497 : Binary64).value + 1 / 2⌋ ↔
            ¬ CarriesHalf 4503599627370497) ∧
          (roundHalfUp 4503599627370497 = ⌊(4503599627370497 : Binary64).value + 1 / 2⌋ + 1 ↔
            CarriesHalf 4503599627370497) := by
  have hx : (4503599627370497 : Binary64).isFinite = true := by decide +kernel
  have hvalue : (4503599627370497 : Binary64).value = (4503599627370497 : ℤ) / (1 : ℕ) :=
    value_eq_div Nat.one_pos (by decide +kernel)
  have hb : |(4503599627370497 : Binary64).value| < 2 ^ 62 := by
    rw [hvalue]
    norm_num
  exact ⟨hx, hb, roundHalfUp_eq_floor_iff hx hb⟩

/-- The double just below one half is rounded to one. -/
theorem roundHalfUp_belowHalf :
    (0.49999999999999994 : Binary64).isFinite = true ∧
      |(0.49999999999999994 : Binary64).value| < 2 ^ 62 ∧
        ⌊(0.49999999999999994 : Binary64).value + 1 / 2⌋ = 0 ∧
          roundHalfUp 0.49999999999999994 = 1 := by
  have hvalue : (0.49999999999999994 : Binary64).value = (2 ^ 53 - 1 : ℤ) / (2 ^ 54 : ℕ) :=
    value_eq_div (by decide) (by decide +kernel)
  refine ⟨by decide +kernel, ?_, ?_, by decide +kernel⟩ <;> rw [hvalue] <;> norm_num [abs_of_pos]

/-! ### What rounding keeps -/

theorem roundHalfUp_mono {x y : Binary64} (h : x ≤ y) : roundHalfUp x ≤ roundHalfUp y :=
  Binary64.toIntWithin_le_toIntWithin (by decide +kernel)
    (Binary64.floor_le_floor (Binary64.add_le_add_right (by decide +kernel) h))

/-- Rounding gives a word. -/
theorem isWord_roundHalfUp (x : Binary64) : IsWord (roundHalfUp x) := by
  have hpos : (0 : ℤ) < Numeric.twoTo 63 := by exact_mod_cast Numeric.twoTo_pos 63
  unfold roundHalfUp Binary64.toIntWithin IsWord
  split
  · omega
  · split
    · split <;> omega
    · omega

/-- A greater length is not drawn smaller in the frame of a tier. -/
theorem scaleToWidth_mono (quality : Quality) {x y : Binary64} (h : x ≤ y) :
    scaleToWidth x quality.encoding.width ≤ scaleToWidth y quality.encoding.width := by
  have hwidth : 0 < Binary64.ofNat quality.encoding.width ∧
      (Binary64.ofNat quality.encoding.width).isFinite = true := by
    cases quality <;> decide +kernel
  exact roundHalfUp_mono (Binary64.div_le_div_right (by decide +kernel) (by decide +kernel)
    (Binary64.mul_le_mul_right hwidth.1 hwidth.2 h))

end Montage.Geometry
