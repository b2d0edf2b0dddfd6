import Mathlib.Algebra.Order.Field.Basic
import Mathlib.Tactic.Linarith
import Mathlib.Tactic.NormNum
import Montage.Proofs.Numeric.Order

/-!
# The accuracy of sums

A finite sum or difference of doubles is the exact one up to one part in `2 ^ 53`. Sums of lengths
only grow, so a running sum is off by at most one such part of its result for each term.
-/

namespace Montage.Numeric.Binary64

variable {x y start : Binary64} {exact : ℚ}

/-- The double is this number up to one part in `2 ^ 53`. -/
def Near (x : Binary64) (exact : ℚ) : Prop := 2 ^ 53 * |x.value - exact| ≤ |x.value|

/-! ### One sum -/

theorem unitsPerOne_cast_pos : (0 : ℚ) < unitsPerOne := Nat.cast_pos.mpr unitsPerOne_pos

private theorem near_of_units {units : Int}
    (h : (twoTo 53 : Int) * |x.units - units| ≤ |x.units|) : x.Near (units / unitsPerOne) := by
  have hcast : (2 : ℚ) ^ 53 * |(x.units : ℚ) - units| ≤ |(x.units : ℚ)| := by
    have htwo : ((twoTo 53 : Nat) : ℚ) = 2 ^ 53 := by
      norm_num [twoTo]
    rw [← htwo]
    exact_mod_cast h
  rw [Near, value, ← sub_div, abs_div, abs_div, ← mul_div_assoc]
  exact div_le_div_of_nonneg_right hcast (abs_nonneg _)

private theorem mul_abs_sub_le {parts rounded n : Nat} (hup : parts * rounded ≤ parts * n + rounded)
    (hdown : parts * n ≤ parts * rounded + rounded) :
    (parts : Int) * |(rounded : Int) - n| ≤ rounded := by
  rw [← Nat.abs_cast parts, ← abs_mul, mul_sub, abs_le]
  constructor <;> omega

/-- Rounding keeps the sign and moves the absolute value by at most one part. -/
private theorem ofUnits_near {units : Int} (h : (ofUnits units).isFinite = true) :
    (twoTo 53 : Int) * |(ofUnits units).units - units| ≤ |(ofUnits units).units| := by
  have hfinite : (nearestPlace units.natAbs 1).val < infinitePlace := of_decide_eq_true h
  obtain ⟨hup, hdown⟩ := nearestPlace_near hfinite
  have hnear := mul_abs_sub_le hup hdown
  by_cases hn : units < 0
  · have hround : (ofUnits units).units = -(unitsAt (nearestPlace units.natAbs 1).val : Int) := by
      rw [ofUnits, decide_eq_true hn, units_negative]
    have hexact : (units.natAbs : Int) = -units := by
      omega
    rw [hexact, sub_neg_eq_add] at hnear
    rwa [hround, abs_neg, Nat.abs_cast, ← neg_add', abs_neg]
  · have hround : (ofUnits units).units = (unitsAt (nearestPlace units.natAbs 1).val : Int) := by
      rw [ofUnits, decide_eq_false hn, units_positive]
    have hexact : (units.natAbs : Int) = units := by
      omega
    rwa [hround, Nat.abs_cast, ← hexact]

/-- The sum of finite doubles is zero or rounded from the sum of their units. -/
theorem add_cases (hx : x.isFinite = true) (hy : y.isFinite = true) :
    (x.units + y.units = 0 ∧ ∃ negative, x + y = signed negative 0) ∨
      (x.units + y.units ≠ 0 ∧ x + y = ofUnits (x.units + y.units)) := by
  obtain ⟨s, p, rfl, hp⟩ := exists_signed_of_isFinite hx
  obtain ⟨t, q, rfl, hq⟩ := exists_signed_of_isFinite hy
  by_cases hz : (signed s p).units + (signed t q).units = 0
  · refine Or.inl ⟨hz, s && t, ?_⟩
    show add (signed s p) (signed t q) = _
    simp only [add, if_neg hp, if_neg hq, if_pos hz]
  · refine Or.inr ⟨hz, ?_⟩
    show add (signed s p) (signed t q) = _
    simp only [add, if_neg hp, if_neg hq, if_neg hz]

/-- A finite sum is the exact one up to rounding. -/
theorem add_near (hx : x.isFinite = true) (hy : y.isFinite = true) (h : (x + y).isFinite = true) :
    (x + y).Near (x.value + y.value) := by
  have hvalue : x.value + y.value = ((x.units + y.units : Int) : ℚ) / unitsPerOne := by
    rw [value, value, Int.cast_add, add_div]
  rw [hvalue]
  apply near_of_units
  rcases add_cases hx hy with ⟨hz, negative, hsum⟩ | ⟨-, hsum⟩
  · simp [hsum, hz, units_signed_zero]
  · rw [hsum] at h ⊢
    exact ofUnits_near h

/-- Rounding does not make a length negative. -/
theorem Near.nonneg (h : x.Near exact) (he : 0 ≤ exact) : 0 ≤ x.value := by
  by_contra hx
  rw [not_le] at hx
  have hapart : |x.value| ≤ |x.value - exact| := by
    rw [abs_of_neg hx, abs_of_neg (by linarith)]
    linarith
  rw [Near] at h
  linarith [abs_pos.mpr hx.ne]

theorem value_neg (x : Binary64) : x.neg.value = -x.value := by
  rw [value, value, units_neg, Int.cast_neg, neg_div]

/-- A finite difference is the exact one up to rounding. -/
theorem sub_near (hx : x.isFinite = true) (hy : y.isFinite = true) (h : (x - y).isFinite = true) :
    (x - y).Near (x.value - y.value) := by
  have hadd := add_near hx ((isFinite_neg y).trans hy) h
  rwa [value_neg, ← sub_eq_add_neg] at hadd

/-! ### Lengths -/

theorem value_zero : (0 : Binary64).value = 0 := by rw [value, units_zero, Int.cast_zero, zero_div]

theorem value_nonneg_iff : 0 ≤ x.value ↔ 0 ≤ x.units := by
  rw [value, le_div_iff₀ unitsPerOne_cast_pos, zero_mul, Int.cast_nonneg_iff]

theorem value_le_value_iff : x.value ≤ y.value ↔ x.units ≤ y.units := by
  rw [value, value, div_le_div_iff_of_pos_right unitsPerOne_cast_pos, Int.cast_le]

theorem exists_units_eq (hx : x.isFinite = true) (h : 0 ≤ x.units) :
    ∃ place < infinitePlace, x.units = unitsAt place := by
  cases x with
  | nan => cases hx
  | signed negative place =>
    refine ⟨place.val, of_decide_eq_true hx, ?_⟩
    cases negative with
    | false => rfl
    | true =>
      rw [units_negative] at h ⊢
      omega

private theorem units_ofUnits {units : Int} (h : 0 ≤ units) :
    (ofUnits units).units = unitsAt (nearestPlace units.natAbs 1).val := by
  have hsign : decide (units < 0) = false := by
    rw [decide_eq_false_iff_not]
    omega
  rw [ofUnits, hsign, units_positive]

theorem unitsAt_le_unitsAt {a b : Nat} (hb : b ≤ infinitePlace) (h : a ≤ b) :
    unitsAt a ≤ unitsAt b := by
  rcases Nat.lt_or_eq_of_le h with hlt | rfl
  · exact Nat.le_of_lt (unitsAt_lt_unitsAt hb hlt)
  · exact Nat.le_refl _

/-- A length is not above its sum with another. -/
theorem value_le_value_add (hx : x.isFinite = true) (hy : y.isFinite = true) (hx0 : 0 ≤ x.value)
    (hy0 : 0 ≤ y.value) : x.value ≤ (x + y).value := by
  rw [value_nonneg_iff] at hx0 hy0
  rw [value_le_value_iff]
  rcases add_cases hx hy with ⟨hz, negative, hsum⟩ | ⟨-, hsum⟩
  · rw [hsum, units_signed_zero]
    omega
  · obtain ⟨place, hplace, hunits⟩ := exists_units_eq hx hx0
    rw [hsum, units_ofUnits (by omega), hunits, Int.ofNat_le]
    have hround : place ≤ (nearestPlace ((unitsAt place : Int) + y.units).natAbs 1).val :=
      le_nearestPlace Nat.one_pos (Nat.le_of_lt hplace) (by omega)
    exact unitsAt_le_unitsAt (Nat.le_of_lt_succ (Fin.isLt _)) hround

/-- A length less another that is not above it is finite and not above it either. -/
theorem sub_of_units_le (hx : x.isFinite = true) (hy : y.isFinite = true) (hy0 : 0 ≤ y.units)
    (hle : y.units ≤ x.units) : (x - y).isFinite = true ∧ (x - y).value ≤ x.value := by
  have hneg := units_neg y
  rw [value_le_value_iff]
  rcases add_cases hx ((isFinite_neg y).trans hy) with ⟨hz, negative, hsum⟩ | ⟨-, hsum⟩
  · change x - y = _ at hsum
    rw [hsum, units_signed_zero]
    exact ⟨isFinite_signed_zero negative, hy0.trans hle⟩
  · change x - y = _ at hsum
    obtain ⟨place, hplace, hunits⟩ := exists_units_eq hx (hy0.trans hle)
    have hround : (nearestPlace (x.units + y.neg.units).natAbs 1).val ≤ place :=
      nearestPlace_le Nat.one_pos (Nat.le_of_lt hplace) (by omega)
    rw [hsum, units_ofUnits (by omega)]
    refine ⟨decide_eq_true (Nat.lt_of_le_of_lt hround hplace), ?_⟩
    rw [hunits] at hround ⊢
    exact Int.ofNat_le.mpr (unitsAt_le_unitsAt (Nat.le_of_lt hplace) hround)

/-- Nothing is lost when a zero is added to a length. -/
private theorem add_zero_of_pos (hx : x.isFinite = true) (h : 0 < x) (negative : Bool) :
    x + signed negative 0 = x := by
  obtain ⟨place, rfl, hlt⟩ := exists_positive h
  have hpos : 0 < unitsAt place.val := unitsAt_lt_unitsAt (Nat.le_of_lt_succ place.isLt) hlt
  rcases add_cases hx (isFinite_signed_zero negative) with ⟨hz, -⟩ | ⟨-, hsum⟩
  · rw [units_signed_zero, units_positive] at hz
    omega
  · have hplace : nearestPlace (unitsAt place.val) 1 = place := by
      have hround := nearestPlace_unitsAt Nat.one_pos (Nat.le_of_lt_succ place.isLt)
      rw [Nat.mul_one] at hround
      exact Fin.ext hround
    have hsign : decide ((unitsAt place.val : Int) < 0) = false := by
      rw [decide_eq_false_iff_not]
      omega
    rw [hsum, units_signed_zero, units_positive, Int.add_zero, ofUnits, hsign, Int.natAbs_natCast,
      hplace]

theorem zero_add_of_pos (hx : x.isFinite = true) (h : 0 < x) : 0 + x = x := by
  show add 0 x = x
  rw [add_comm, zero_eq]
  exact add_zero_of_pos hx h false

theorem negativeZero_add_of_pos (hx : x.isFinite = true) (h : 0 < x) : negativeZero + x = x := by
  show add (signed true 0) x = x
  rw [add_comm]
  exact add_zero_of_pos hx h true

theorem sub_zero_of_pos (hx : x.isFinite = true) (h : 0 < x) : x - 0 = x := by
  rw [zero_eq]
  exact add_zero_of_pos hx h true

/-! ### Running sums -/

/-- A running sum that is finite in the end has been finite before. -/
theorem isFinite_of_isFinite_foldl {xs : List Binary64} (hs : start.isNaN = false)
    (hx : ∀ x ∈ xs, x.isFinite = true) (h : (xs.foldl (· + ·) start).isFinite = true) :
    start.isFinite = true := by
  induction xs with
  | nil => exact h
  | cons x xs ih =>
    obtain ⟨hfirst, hrest⟩ := List.forall_mem_cons.mp hx
    by_contra hinf
    rw [Bool.not_eq_true] at hinf
    rw [List.foldl_cons, add_eq_self_of_infinite hs hinf hfirst] at h
    exact absurd (ih hrest h) (by rw [hinf]; exact Bool.false_ne_true)

/-- A running sum of lengths is not below where it starts. -/
theorem value_le_value_foldl {xs : List Binary64} (hs : start.isFinite = true)
    (hs0 : 0 ≤ start.value) (hx : ∀ x ∈ xs, x.isFinite = true ∧ 0 ≤ x.value)
    (h : (xs.foldl (· + ·) start).isFinite = true) :
    start.value ≤ (xs.foldl (· + ·) start).value := by
  induction xs generalizing start with
  | nil => exact le_refl _
  | cons x xs ih =>
    obtain ⟨⟨hfinite, hx0⟩, hrest⟩ := List.forall_mem_cons.mp hx
    rw [List.foldl_cons] at h ⊢
    have hsum := isFinite_of_isFinite_foldl (isNaN_add_of_isFinite (isNaN_of_isFinite hs) hfinite)
      (fun x hm ↦ (hrest x hm).1) h
    have hle := value_le_value_add hs hfinite hs0 hx0
    exact hle.trans (ih hsum (hs0.trans hle) hrest h)

/-- A running sum of lengths is the exact one up to one rounding of the result for each term. -/
theorem foldl_near {xs : List Binary64} (hs : start.isFinite = true) (hs0 : 0 ≤ start.value)
    (hx : ∀ x ∈ xs, x.isFinite = true ∧ 0 ≤ x.value)
    (h : (xs.foldl (· + ·) start).isFinite = true) :
    2 ^ 53 * |(xs.foldl (· + ·) start).value - (start.value + (xs.map value).sum)| ≤
      xs.length * (xs.foldl (· + ·) start).value := by
  induction xs generalizing start with
  | nil => simp
  | cons x xs ih =>
    obtain ⟨⟨hfinite, hx0⟩, hrest⟩ := List.forall_mem_cons.mp hx
    rw [List.foldl_cons] at h ⊢
    have hsum := isFinite_of_isFinite_foldl (isNaN_add_of_isFinite (isNaN_of_isFinite hs) hfinite)
      (fun x hm ↦ (hrest x hm).1) h
    have hsum0 := hs0.trans (value_le_value_add hs hfinite hs0 hx0)
    have hothers := ih hsum hsum0 hrest h
    have hfirst := add_near hs hfinite hsum
    have hgrows := value_le_value_foldl hsum hsum0 hrest h
    rw [Near, abs_of_nonneg hsum0] at hfirst
    have htriangle := abs_sub_le (xs.foldl (· + ·) (start + x)).value
      ((start + x).value + (xs.map value).sum) (start.value + x.value + (xs.map value).sum)
    rw [add_sub_add_right_eq_sub] at htriangle
    rw [List.map_cons, List.sum_cons, List.length_cons, ← add_assoc, Nat.cast_add, Nat.cast_one]
    linarith

end Montage.Numeric.Binary64
