import Mathlib.Data.Rat.Cast.Order
import Montage.Proofs.Numeric.Nearest

/-!
# The order of doubles

Comparing doubles compares signed places, so the order of the numbers is the order of integers, and
that of their values.
-/

namespace Montage.Numeric.Binary64

variable {x y : Binary64}

/-- Doubles in order are numbers whose places are in order. -/
theorem lt_iff : x < y ↔ ∃ a b, x.signedPlace? = some a ∧ y.signedPlace? = some b ∧ a < b := by
  show x.lt y = true ↔ _
  unfold lt
  cases x.signedPlace? with
  | none => simp
  | some a =>
    cases y.signedPlace? with
    | none => simp
    | some b => simp

theorem le_iff : x ≤ y ↔ ∃ a b, x.signedPlace? = some a ∧ y.signedPlace? = some b ∧ a ≤ b := by
  show x.le y = true ↔ _
  unfold le
  cases x.signedPlace? with
  | none => simp
  | some a =>
    cases y.signedPlace? with
    | none => simp
    | some b => simp

theorem le_of_lt (h : x < y) : x ≤ y := by
  obtain ⟨a, b, ha, hb, hab⟩ := lt_iff.mp h
  exact le_iff.mpr ⟨a, b, ha, hb, Int.le_of_lt hab⟩

theorem signedPlace?_positive (place : Fin (infinitePlace + 1)) :
    (signed false place).signedPlace? = some (place.val : Int) := rfl

theorem signedPlace?_negative (place : Fin (infinitePlace + 1)) :
    (signed true place).signedPlace? = some (-(place.val : Int)) := rfl

/-! ### Zero -/

theorem zero_eq : (0 : Binary64) = signed false 0 := by
  decide +kernel

theorem infinitePlace_pos : 0 < infinitePlace := Nat.mul_pos (by decide) (twoTo_pos 52)

theorem signedPlace?_signed_zero (negative : Bool) : (signed negative 0).signedPlace? = some 0 := by
  cases negative <;> rfl

theorem units_signed_zero (negative : Bool) : (signed negative 0).units = 0 := by
  cases negative <;> rfl

theorem isFinite_signed_zero (negative : Bool) : (signed negative 0).isFinite = true :=
  decide_eq_true infinitePlace_pos

theorem signedPlace?_zero : (0 : Binary64).signedPlace? = some 0 := by
  rw [zero_eq]
  exact signedPlace?_signed_zero false

theorem units_zero : (0 : Binary64).units = 0 := by
  rw [zero_eq]
  exact units_signed_zero false

theorem isFinite_zero : (0 : Binary64).isFinite = true := by
  rw [zero_eq]
  exact isFinite_signed_zero false

theorem isNaN_zero : (0 : Binary64).isNaN = false := by
  rw [zero_eq]
  rfl

/-- A decimal without a sign is not negative. -/
theorem not_ofDecimal_lt_zero (digits : Nat) (exponent : Int) :
    ¬ ofDecimal false digits exponent < 0 := by
  obtain ⟨place, hplace⟩ : ∃ place, ofDecimal false digits exponent = signed false place := by
    unfold ofDecimal ofRatio
    split
    · exact ⟨_, rfl⟩
    · split
      · exact ⟨_, rfl⟩
      · split
        · exact ⟨_, rfl⟩
        · split <;> exact ⟨_, rfl⟩
  rw [hplace, lt_iff]
  rintro ⟨a, b, ha, hb, hlt⟩
  obtain rfl := Option.some.inj ((signedPlace?_positive place).symm.trans ha)
  obtain rfl := Option.some.inj (signedPlace?_zero.symm.trans hb)
  omega

/-! ### Positive doubles -/

/-- A positive double has no sign and a place above that of zero. -/
theorem exists_positive (h : 0 < x) :
    ∃ place : Fin (infinitePlace + 1), x = signed false place ∧ 0 < place.val := by
  obtain ⟨zero, a, hzero, ha, hpos⟩ := lt_iff.mp h
  obtain rfl := Option.some.inj (signedPlace?_zero.symm.trans hzero)
  cases x with
  | nan => cases ha
  | signed negative place =>
    cases negative with
    | false =>
      obtain rfl := Option.some.inj ((signedPlace?_positive place).symm.trans ha)
      exact ⟨place, rfl, by omega⟩
    | true =>
      obtain rfl := Option.some.inj ((signedPlace?_negative place).symm.trans ha)
      omega

/-- A double is a number if it has a place. -/
theorem isNaN_eq_false_iff : x.isNaN = false ↔ ∃ a, x.signedPlace? = some a := by
  cases x with
  | nan => simp [isNaN, signedPlace?]
  | signed negative place => simp [isNaN, signedPlace?]

private theorem isNaN_of_signedPlace? {a : Int} (h : x.signedPlace? = some a) : x.isNaN = false :=
  isNaN_eq_false_iff.mpr ⟨a, h⟩

theorem isNaN_of_isFinite (h : x.isFinite = true) : x.isNaN = false := by
  cases x with
  | nan => cases h
  | signed => rfl

/-- A finite double has a sign and a place that is not that of infinity. -/
theorem exists_signed_of_isFinite (h : x.isFinite = true) :
    ∃ (negative : Bool) (place : Fin (infinitePlace + 1)),
      x = signed negative place ∧ place.val ≠ infinitePlace := by
  cases x with
  | nan => cases h
  | signed negative place => exact ⟨negative, place, rfl, Nat.ne_of_lt (of_decide_eq_true h)⟩

theorem exists_signedPlace?_of_isFinite (h : x.isFinite = true) :
    ∃ a, x.signedPlace? = some a ∧ a < infinitePlace := by
  obtain ⟨negative, place, rfl, hp⟩ := exists_signed_of_isFinite h
  have hle : place.val ≤ infinitePlace := Nat.le_of_lt_succ place.isLt
  cases negative with
  | false => exact ⟨_, signedPlace?_positive place, by omega⟩
  | true => exact ⟨_, signedPlace?_negative place, by omega⟩

/-- Of two numbers that are not in order, the other one is less. -/
theorem lt_of_not_le (hx : x.isNaN = false) (hy : y.isNaN = false) (h : ¬ y ≤ x) : x < y := by
  obtain ⟨a, ha⟩ := isNaN_eq_false_iff.mp hx
  obtain ⟨b, hb⟩ := isNaN_eq_false_iff.mp hy
  exact lt_iff.mpr ⟨a, b, ha, hb, Int.not_le.mp fun hle ↦ h (le_iff.mpr ⟨b, a, hb, ha, hle⟩)⟩

/-- A finite double that is not at most zero is positive. -/
theorem pos_of_not_le_zero (hx : x.isFinite = true) (h : ¬ x ≤ 0) : 0 < x :=
  lt_of_not_le (isNaN_of_signedPlace? signedPlace?_zero) (isNaN_of_isFinite hx) h

/-- An integer that is not above a finite double has a finite double nearest to it. -/
theorem isFinite_ofInt {n : Int} {place : Nat} (hp : place < infinitePlace)
    (h : n.natAbs * unitsPerOne ≤ unitsAt place) : (ofInt n).isFinite = true := by
  rw [← Nat.mul_one (unitsAt place)] at h
  have hplace := nearestPlace_le Nat.one_pos (Nat.le_of_lt hp) h
  rw [ofInt, ofRatio, isFinite, decide_eq_true_eq]
  exact Nat.lt_of_le_of_lt hplace hp

/-- The place of two to the power of 64. -/
private theorem unitsAt_word : unitsAt (1087 * twoTo 52) = twoTo 64 * unitsPerOne := by
  decide +kernel

/-- Integers of 64 bits are far from the overflow threshold. -/
theorem isFinite_ofInt_word {n : Int} (h : n.natAbs ≤ twoTo 64) : (ofInt n).isFinite = true := by
  have hlt : 1087 * twoTo 52 < infinitePlace :=
    Nat.mul_lt_mul_of_pos_right (by decide) (twoTo_pos 52)
  refine isFinite_ofInt hlt ?_
  rw [unitsAt_word]
  exact Nat.mul_le_mul_right _ h

theorem isFinite_of_signedPlace? {a : Int} (hx : x.signedPlace? = some a) (hpos : 0 < a)
    (ha : a < infinitePlace) : x.isFinite = true := by
  cases x with
  | nan => cases hx
  | signed negative place =>
    apply decide_eq_true
    cases negative with
    | false =>
      obtain rfl := Option.some.inj ((signedPlace?_positive place).symm.trans hx)
      omega
    | true =>
      obtain rfl := Option.some.inj ((signedPlace?_negative place).symm.trans hx)
      omega

/-! ### The lesser and the greater double -/

theorem signedPlace?_min {a b : Int} (hx : x.signedPlace? = some a) (hy : y.signedPlace? = some b) :
    (x.min y).signedPlace? = some (min a b) := by
  have hlt : x < y ↔ a < b := by
    rw [lt_iff, hx, hy]
    simp
  unfold Binary64.min
  rw [isNaN_of_signedPlace? hx, isNaN_of_signedPlace? hy]
  by_cases h : a < b
  · simp [hlt.mpr h, hx, Int.min_eq_left (Int.le_of_lt h)]
  · simp [mt hlt.mp h, hy, Int.min_eq_right (Int.not_lt.mp h)]

theorem signedPlace?_max {a b : Int} (hx : x.signedPlace? = some a) (hy : y.signedPlace? = some b) :
    (x.max y).signedPlace? = some (max a b) := by
  have hlt : y < x ↔ b < a := by
    rw [lt_iff, hx, hy]
    simp
  unfold Binary64.max
  rw [isNaN_of_signedPlace? hx, isNaN_of_signedPlace? hy]
  by_cases h : b < a
  · simp [hlt.mpr h, hx, Int.max_eq_left (Int.le_of_lt h)]
  · simp [mt hlt.mp h, hy, Int.max_eq_right (Int.not_lt.mp h)]

/-- What is not negative is its own maximum with zero. -/
theorem max_zero_lt (hx : 0 ≤ x) (h : x < y) : x.max 0 < y := by
  obtain ⟨zero, a, hzero, ha, hle⟩ := le_iff.mp hx
  obtain rfl := Option.some.inj (signedPlace?_zero.symm.trans hzero)
  obtain ⟨a', b, ha', hb, hlt⟩ := lt_iff.mp h
  obtain rfl := Option.some.inj (ha.symm.trans ha')
  refine lt_iff.mpr ⟨a, b, ?_, hb, hlt⟩
  rw [signedPlace?_max ha signedPlace?_zero, Int.max_eq_left hle]

/-- The lesser of a number and any double is a number that is not above it. -/
theorem exists_signedPlace?_min {a : Int} (hx : x.signedPlace? = some a) (y : Binary64) :
    ∃ b, (x.min y).signedPlace? = some b ∧ b ≤ a := by
  cases hy : y.signedPlace? with
  | none =>
    have hn : y.isNaN = true := by
      cases y with
      | nan => rfl
      | signed => cases hy
    refine ⟨a, ?_, Int.le_refl a⟩
    simp [Binary64.min, isNaN_of_signedPlace? hx, hn, hx]
  | some b => exact ⟨min a b, signedPlace?_min hx hy, Int.min_le_left a b⟩

/-! ### Halves -/

private theorem two_le_infinitePlace : 1024 * twoTo 52 ≤ infinitePlace :=
  Nat.mul_le_mul_right _ (by decide)

private theorem val_two : (nearestPlace (2 * unitsPerOne) 1).val = 1024 * twoTo 52 := by
  rw [← unitsAt_two]
  have h := nearestPlace_unitsAt Nat.one_pos two_le_infinitePlace
  rwa [Nat.mul_one] at h

theorem ofNat_eq (n : Nat) : ofNat n = signed false (nearestPlace (n * unitsPerOne) 1) := rfl

private theorem div_eq_ofRatio {s t : Bool} {a b : Fin (infinitePlace + 1)}
    (ha : a.val ≠ infinitePlace) (hb : b.val ≠ infinitePlace) (hz : b.val ≠ 0) :
    signed s a / signed t b = ofRatio (s != t) (unitsAt a.val) (unitsAt b.val) := by
  show div (signed s a) (signed t b) = _
  simp only [div, if_neg ha, if_neg hb, if_neg hz]

private theorem div_eq_infinity {s t : Bool} {a b : Fin (infinitePlace + 1)}
    (ha : a.val = infinitePlace) (hb : b.val ≠ infinitePlace) :
    signed s a / signed t b = infinity (s != t) := by
  show div (signed s a) (signed t b) = _
  simp only [div, if_pos ha, if_neg hb]

private theorem val_two_ne : (nearestPlace (2 * unitsPerOne) 1).val ≠ infinitePlace ∧
    (nearestPlace (2 * unitsPerOne) 1).val ≠ 0 := by
  have hpos := twoTo_pos 52
  rw [val_two]
  constructor
  · exact Nat.ne_of_lt (Nat.mul_lt_mul_of_pos_right (by decide) hpos)
  · omega

/-- Half of a finite double is nearer to zero, unless it is zero. -/
private theorem exists_half_eq {negative : Bool} {place : Fin (infinitePlace + 1)}
    (h : place.val ≠ infinitePlace) :
    ∃ half, signed negative place / 2 = signed negative half ∧
      (0 < half.val → half.val < place.val) := by
  refine ⟨nearestPlace (unitsAt place.val * unitsPerOne) (2 * unitsPerOne), ?_, ?_⟩
  · show signed negative place / ofNat 2 = _
    rw [ofNat_eq, div_eq_ofRatio h val_two_ne.1 val_two_ne.2, val_two, unitsAt_two, ofRatio,
      Bool.bne_false]
  · exact nearestPlace_half_lt unitsPerOne_pos (Nat.le_of_lt_succ place.isLt)

private theorem half_infinite {negative : Bool} {place : Fin (infinitePlace + 1)}
    (h : place.val = infinitePlace) : signed negative place / 2 = signed negative place := by
  have hplace : Fin.last infinitePlace = place := Fin.ext h.symm
  show signed negative place / ofNat 2 = _
  rw [ofNat_eq, div_eq_infinity h val_two_ne.1, Bool.bne_false, infinity, hplace]

/-- A positive half is below the whole, unless that is infinite. -/
theorem exists_signedPlace?_half {a : Int} (hx : x.signedPlace? = some a) :
    ∃ b, (x / 2).signedPlace? = some b ∧ (0 < b → b < a ∨ a = infinitePlace) := by
  cases x with
  | nan => cases hx
  | signed negative place =>
    by_cases hp : place.val = infinitePlace
    · rw [half_infinite hp]
      refine ⟨a, hx, fun hpos ↦ Or.inr ?_⟩
      cases negative with
      | false =>
        obtain rfl := Option.some.inj ((signedPlace?_positive place).symm.trans hx)
        rw [hp]
      | true =>
        obtain rfl := Option.some.inj ((signedPlace?_negative place).symm.trans hx)
        omega
    · obtain ⟨half, hhalf, hlt⟩ := exists_half_eq hp
      rw [hhalf]
      cases negative with
      | false =>
        obtain rfl := Option.some.inj ((signedPlace?_positive place).symm.trans hx)
        exact ⟨_, signedPlace?_positive half, fun hpos ↦ Or.inl (by omega)⟩
      | true => exact ⟨_, signedPlace?_negative half, fun hpos ↦ by omega⟩

/-! ### Values -/

/-- The exact value of a finite double. -/
def value (x : Binary64) : ℚ := x.units / unitsPerOne

/-- A double with this share of the units of one has this value. -/
theorem value_eq_div {units : ℤ} {parts : Nat} (hp : 0 < parts)
    (h : x.units * parts = units * unitsPerOne) : x.value = units / parts := by
  have hone : (unitsPerOne : ℚ) ≠ 0 := Nat.cast_ne_zero.mpr (Nat.ne_of_gt unitsPerOne_pos)
  have hparts : (parts : ℚ) ≠ 0 := Nat.cast_ne_zero.mpr (Nat.ne_of_gt hp)
  rw [value, div_eq_div_iff hone hparts]
  exact_mod_cast h

theorem units_positive (place : Fin (infinitePlace + 1)) :
    (signed false place).units = unitsAt place.val := rfl

theorem units_negative (place : Fin (infinitePlace + 1)) :
    (signed true place).units = -(unitsAt place.val : Int) := rfl

private theorem unitsAt_pos {place : Fin (infinitePlace + 1)} (h : 0 < place.val) :
    0 < unitsAt place.val :=
  unitsAt_lt_unitsAt (Nat.le_of_lt_succ place.isLt) h

/-- Greater doubles have more units. -/
theorem units_lt_units (h : x < y) : x.units < y.units := by
  obtain ⟨a, b, ha, hb, hab⟩ := lt_iff.mp h
  cases x with
  | nan => cases ha
  | signed s p =>
    cases y with
    | nan => cases hb
    | signed t q =>
      have hp : p.val ≤ infinitePlace := Nat.le_of_lt_succ p.isLt
      have hq : q.val ≤ infinitePlace := Nat.le_of_lt_succ q.isLt
      cases s with
      | false =>
        obtain rfl := Option.some.inj ((signedPlace?_positive p).symm.trans ha)
        cases t with
        | false =>
          obtain rfl := Option.some.inj ((signedPlace?_positive q).symm.trans hb)
          exact Int.ofNat_lt.mpr (unitsAt_lt_unitsAt hq (Int.ofNat_lt.mp hab))
        | true =>
          obtain rfl := Option.some.inj ((signedPlace?_negative q).symm.trans hb)
          omega
      | true =>
        obtain rfl := Option.some.inj ((signedPlace?_negative p).symm.trans ha)
        rw [units_negative]
        cases t with
        | false =>
          obtain rfl := Option.some.inj ((signedPlace?_positive q).symm.trans hb)
          rw [units_positive]
          have hpos : 0 < p.val ∨ 0 < q.val := by
            omega
          rcases hpos with hpos | hpos <;> have := unitsAt_pos hpos <;> omega
        | true =>
          obtain rfl := Option.some.inj ((signedPlace?_negative q).symm.trans hb)
          rw [units_negative]
          have := unitsAt_lt_unitsAt hp (by omega : q.val < p.val)
          omega

theorem value_pos_of_units_pos (h : 0 < x.units) : 0 < x.value := by
  have hone : (0 : ℚ) < unitsPerOne := Nat.cast_pos.mpr unitsPerOne_pos
  exact div_pos (Int.cast_pos.mpr h) hone

theorem units_pos_of_pos (h : 0 < x) : 0 < x.units := by
  have hunits := units_lt_units h
  rwa [units_zero] at hunits

private theorem units_ofUnits_pos {units : Int} (h : 0 < units) : 0 < (ofUnits units).units := by
  have hone : unitsAt 1 * 1 ≤ units.natAbs := by
    have hu : unitsAt 1 = 1 := by decide
    omega
  have hplace : 0 < (nearestPlace units.natAbs 1).val :=
    le_nearestPlace Nat.one_pos (by decide) hone
  have hsign : decide (units < 0) = false := by
    rw [decide_eq_false_iff_not]
    omega
  rw [ofUnits, hsign, units_positive]
  exact Int.natCast_pos.mpr (unitsAt_pos hplace)

theorem units_neg (x : Binary64) : x.neg.units = -x.units := by
  cases x with
  | nan => rfl
  | signed negative place =>
    cases negative with
    | false => rfl
    | true => exact (Int.neg_neg _).symm

/-- The difference of finite doubles is rounded from the difference of their units. -/
private theorem units_sub_of_finite {s t : Bool} {p q : Fin (infinitePlace + 1)}
    (hp : p.val ≠ infinitePlace) (hq : q.val ≠ infinitePlace)
    (h : 0 < (signed t q).units - (signed s p).units) : 0 < (signed t q - signed s p).units := by
  show 0 < (add (signed t q) (signed (!s) p)).units
  have hsum : (signed t q).units + (signed (!s) p).units =
      (signed t q).units - (signed s p).units := by
    rw [Int.sub_eq_add_neg, ← units_neg]
    rfl
  simp only [add, if_neg hp, if_neg hq, hsum, if_neg (Int.ne_of_gt h)]
  exact units_ofUnits_pos h

/-- The greater double less a finite one is positive; rounding does not lose the difference. -/
theorem units_sub_pos (h : x < y) (hx : x.isFinite = true) : 0 < (y - x).units := by
  have hunits := units_lt_units h
  obtain ⟨a, b, ha, hb, hab⟩ := lt_iff.mp h
  cases x with
  | nan => cases ha
  | signed s p =>
    have hp : p.val < infinitePlace := of_decide_eq_true hx
    cases y with
    | nan => cases hb
    | signed t q =>
      by_cases hq : q.val = infinitePlace
      · have hdiff : signed t q - signed s p = signed t q := by
          show add (signed t q) (signed (!s) p) = _
          simp only [add, if_pos hq, Nat.ne_of_lt hp, false_and, if_false]
        rw [hdiff]
        cases t with
        | false => exact Int.natCast_pos.mpr (unitsAt_pos (by omega))
        | true =>
          obtain rfl := Option.some.inj ((signedPlace?_negative q).symm.trans hb)
          cases s with
          | false =>
            obtain rfl := Option.some.inj ((signedPlace?_positive p).symm.trans ha)
            omega
          | true =>
            obtain rfl := Option.some.inj ((signedPlace?_negative p).symm.trans ha)
            omega
      · exact units_sub_of_finite (Nat.ne_of_lt hp) hq (by omega)

/-! ### Not-a-number in sums -/

/-- A number stays a number when a finite double is added. -/
theorem isNaN_add_of_isFinite (hx : x.isNaN = false) (hy : y.isFinite = true) :
    (x + y).isNaN = false := by
  obtain ⟨t, q, rfl, hq⟩ := exists_signed_of_isFinite hy
  cases x with
  | nan => cases hx
  | signed s p =>
    show (add (signed s p) (signed t q)).isNaN = false
    by_cases hp : p.val = infinitePlace
    · simp only [add, if_pos hp, hq, false_and, if_false, isNaN]
    · simp only [add, if_neg hp, if_neg hq]
      split <;> rfl

/-- A running sum of finite doubles from a number is a number. -/
theorem isNaN_foldl_of_isFinite {xs : List Binary64} (hx : x.isNaN = false)
    (hxs : ∀ y ∈ xs, y.isFinite = true) : (xs.foldl (· + ·) x).isNaN = false := by
  induction xs generalizing x with
  | nil => exact hx
  | cons y ys ih =>
    obtain ⟨hy, hys⟩ := List.forall_mem_cons.mp hxs
    exact ih (isNaN_add_of_isFinite hx hy) hys

/-- An infinite double stays as it is when a finite one is added. -/
theorem add_eq_self_of_infinite (hx : x.isNaN = false) (hinf : x.isFinite = false)
    (hy : y.isFinite = true) : x + y = x := by
  obtain ⟨t, q, rfl, hq⟩ := exists_signed_of_isFinite hy
  cases x with
  | nan => cases hx
  | signed s p =>
    have hp : p.val = infinitePlace := by
      have := of_decide_eq_false hinf
      omega
    show add (signed s p) (signed t q) = _
    simp only [add, if_pos hp, hq, false_and, if_false]

theorem sub_self_of_infinite (hinf : x.isFinite = false) : (x - x).isNaN = true := by
  cases x with
  | nan => rfl
  | signed s p =>
    have hp : p.val = infinitePlace := by
      have := of_decide_eq_false hinf
      omega
    show (add (signed s p) (signed (!s) p)).isNaN = true
    cases s <;> simp [add, hp, isNaN]

theorem isFinite_neg (x : Binary64) : x.neg.isFinite = x.isFinite := by
  cases x <;> rfl

end Montage.Numeric.Binary64
