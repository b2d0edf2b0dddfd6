import Montage.Proofs.Numeric.Order

/-!
# Arithmetic keeps the order

Every operation rounds its exact result once, and rounding keeps the order. So the product with a
fixed positive double, the quotient by one, the sum with a fixed double and the floor of a greater
double are not less.
-/

namespace Montage.Numeric.Binary64

variable {x y z c : Binary64}

/-! ### Order laws -/

protected theorem le_refl (h : x.isNaN = false) : x ≤ x := by
  obtain ⟨a, ha⟩ := isNaN_eq_false_iff.mp h
  exact le_iff.mpr ⟨a, a, ha, ha, Int.le_refl a⟩

theorem le_trans (hxy : x ≤ y) (hyz : y ≤ z) : x ≤ z := by
  obtain ⟨a, b, ha, hb, hab⟩ := le_iff.mp hxy
  obtain ⟨b', d, hb', hd, hbd⟩ := le_iff.mp hyz
  obtain rfl := Option.some.inj (hb.symm.trans hb')
  exact le_iff.mpr ⟨a, d, ha, hd, hab.trans hbd⟩

theorem lt_of_lt_of_le (hxy : x < y) (hyz : y ≤ z) : x < z := by
  obtain ⟨a, b, ha, hb, hab⟩ := lt_iff.mp hxy
  obtain ⟨b', d, hb', hd, hbd⟩ := le_iff.mp hyz
  obtain rfl := Option.some.inj (hb.symm.trans hb')
  exact lt_iff.mpr ⟨a, d, ha, hd, by omega⟩

theorem not_le_of_lt (h : x < y) : ¬ y ≤ x := by
  obtain ⟨a, b, ha, hb, hab⟩ := lt_iff.mp h
  intro hle
  obtain ⟨b', a', hb', ha', hba⟩ := le_iff.mp hle
  obtain rfl := Option.some.inj (ha.symm.trans ha')
  obtain rfl := Option.some.inj (hb.symm.trans hb')
  omega

theorem le_of_not_lt (hx : x.isNaN = false) (hy : y.isNaN = false) (h : ¬ x < y) : y ≤ x := by
  by_contra hle
  exact h (lt_of_not_le hx hy hle)

theorem same_iff : x.same y = true ↔ x ≤ y ∧ y ≤ x := by
  simp only [same, Bool.and_eq_true, decide_eq_true_eq]

/-- The units of a number belong to its signed place. -/
theorem units_of_signedPlace? {a : ℤ} (h : x.signedPlace? = some a) :
    x.units = if a < 0 then -(unitsAt a.natAbs : ℤ) else (unitsAt a.natAbs : ℤ) := by
  cases x with
  | nan => cases h
  | signed negative place =>
    cases negative with
    | false =>
      obtain rfl := Option.some.inj ((signedPlace?_positive place).symm.trans h)
      rw [units_positive, if_neg (by omega), Int.natAbs_natCast]
    | true =>
      obtain rfl := Option.some.inj ((signedPlace?_negative place).symm.trans h)
      rw [units_negative, Int.natAbs_neg, Int.natAbs_natCast]
      split
      · rfl
      · have hzero : place.val = 0 := by omega
        rw [hzero]
        rfl

/-- Doubles in order have their units in order. -/
theorem units_le_units (h : x ≤ y) : x.units ≤ y.units := by
  obtain ⟨a, b, ha, hb, hab⟩ := le_iff.mp h
  rcases Int.lt_or_eq_of_le hab with hlt | rfl
  · exact Int.le_of_lt (units_lt_units (lt_iff.mpr ⟨a, b, ha, hb, hlt⟩))
  · rw [units_of_signedPlace? ha, units_of_signedPlace? hb]

/-- Numbers are compared by their units. -/
theorem le_iff_units_le (hx : x.isNaN = false) (hy : y.isNaN = false) :
    x ≤ y ↔ x.units ≤ y.units := by
  refine ⟨units_le_units, fun h ↦ ?_⟩
  by_contra hle
  have hlt := units_lt_units (lt_of_not_le hy hx hle)
  omega

theorem lt_iff_units_lt (hx : x.isNaN = false) (hy : y.isNaN = false) :
    x < y ↔ x.units < y.units := by
  refine ⟨units_lt_units, fun h ↦ lt_of_not_le hx hy fun hle ↦ ?_⟩
  have hback := units_le_units hle
  omega

theorem pos_of_units_pos (h : 0 < x.units) : 0 < x := by
  have hnumber : x.isNaN = false := by
    cases x with
    | nan => cases h
    | signed => rfl
  rwa [lt_iff_units_lt isNaN_zero hnumber, units_zero]

/-! ### The lesser and the greater double -/

theorem min_le_left (h : x.isNaN = false) : x.min y ≤ x := by
  obtain ⟨a, ha⟩ := isNaN_eq_false_iff.mp h
  obtain ⟨b, hb, hba⟩ := exists_signedPlace?_min ha y
  exact le_iff.mpr ⟨b, a, hb, ha, hba⟩

theorem min_le_right (h : y.isNaN = false) : x.min y ≤ y := by
  obtain ⟨b, hb⟩ := isNaN_eq_false_iff.mp h
  cases hx : x.isNaN with
  | true =>
    rw [Binary64.min, hx, if_pos rfl]
    exact Binary64.le_refl h
  | false =>
    obtain ⟨a, ha⟩ := isNaN_eq_false_iff.mp hx
    exact le_iff.mpr ⟨_, b, signedPlace?_min ha hb, hb, Int.min_le_right a b⟩

/-- The lesser of two doubles, of which one is a number, is one of them and a number. -/
theorem min_eq_or (h : x.isNaN = false ∨ y.isNaN = false) :
    x.min y = x ∧ x.isNaN = false ∨ x.min y = y ∧ y.isNaN = false := by
  unfold Binary64.min
  cases hx : x.isNaN with
  | true => exact .inr ⟨rfl, h.resolve_left (by simp [hx])⟩
  | false =>
    cases hy : y.isNaN with
    | true => exact .inl ⟨rfl, rfl⟩
    | false =>
      by_cases hlt : x < y
      · exact .inl ⟨if_pos hlt, rfl⟩
      · exact .inr ⟨if_neg hlt, rfl⟩

theorem max_zero_nonneg (x : Binary64) : 0 ≤ x.max 0 := by
  cases hx : x.isNaN with
  | true =>
    rw [Binary64.max, hx, if_pos rfl]
    exact Binary64.le_refl isNaN_zero
  | false =>
    obtain ⟨a, ha⟩ := isNaN_eq_false_iff.mp hx
    exact le_iff.mpr ⟨0, _, signedPlace?_zero, signedPlace?_max ha signedPlace?_zero,
      Int.le_max_right a 0⟩

theorem isNaN_max_zero (x : Binary64) : (x.max 0).isNaN = false := by
  obtain ⟨-, a, -, ha, -⟩ := le_iff.mp (max_zero_nonneg x)
  exact isNaN_eq_false_iff.mpr ⟨a, ha⟩

theorem max_zero_le_max_zero (h : x ≤ y) : x.max 0 ≤ y.max 0 := by
  obtain ⟨a, b, ha, hb, hab⟩ := le_iff.mp h
  exact le_iff.mpr ⟨_, _, signedPlace?_max ha signedPlace?_zero, signedPlace?_max hb
    signedPlace?_zero, by omega⟩

/-- What is positive and not above a maximum with zero is not above the other double. -/
theorem le_of_le_max_zero (hx : 0 < x) (h : x ≤ y.max 0) (hy : y.isNaN = false) : x ≤ y := by
  obtain ⟨b, hb⟩ := isNaN_eq_false_iff.mp hy
  obtain ⟨zero, a, hzero, ha, hpos⟩ := lt_iff.mp hx
  obtain rfl := Option.some.inj (signedPlace?_zero.symm.trans hzero)
  obtain ⟨a', m, ha', hm, hle⟩ := le_iff.mp h
  obtain rfl := Option.some.inj (ha.symm.trans ha')
  obtain rfl := Option.some.inj ((signedPlace?_max hb signedPlace?_zero).symm.trans hm)
  exact le_iff.mpr ⟨a, b, ha, hb, by omega⟩

/-! ### Rounding a signed quotient -/

/-- The signed place of the double nearest to a quotient of units. -/
def nearestSigned (num : ℤ) (den : ℕ) : ℤ :=
  if num < 0 then -((nearestPlace num.natAbs den).val : ℤ)
  else ((nearestPlace num.natAbs den).val : ℤ)

theorem nearestSigned_mono {num num' : ℤ} {den : ℕ} (hd : 0 < den) (h : num ≤ num') :
    nearestSigned num den ≤ nearestSigned num' den := by
  have hmono : ∀ {m n : ℕ}, m ≤ n → (nearestPlace m den).val ≤ (nearestPlace n den).val :=
    fun hmn ↦ nearestPlace_mono hd hd (Nat.mul_le_mul_right den hmn)
  unfold nearestSigned
  by_cases hnum : num < 0
  · rw [if_pos hnum]
    by_cases hnum' : num' < 0
    · rw [if_pos hnum']
      have hplace := hmono (show num'.natAbs ≤ num.natAbs by omega)
      omega
    · rw [if_neg hnum']
      omega
  · have hplace := hmono (show num.natAbs ≤ num'.natAbs by omega)
    rw [if_neg hnum, if_neg (by omega)]
    omega

/-- A rounded absolute value with the sign of a quotient has the place of the rounded quotient. -/
private theorem signedPlace?_nearest {negative : Bool} {num : ℤ} {den : ℕ} (hd : 0 < den)
    (hpos : 0 < num → negative = false) (hneg : num < 0 → negative = true) :
    (signed negative (nearestPlace num.natAbs den)).signedPlace? =
      some (nearestSigned num den) := by
  have hzero : num = 0 → (nearestPlace num.natAbs den).val = 0 := by
    rintro rfl
    exact Nat.le_zero.mp (nearestPlace_le hd (Nat.zero_le _) (Nat.zero_le _))
  unfold nearestSigned
  rcases lt_trichotomy num 0 with hnum | hnum | hnum
  · rw [hneg hnum, signedPlace?_negative, if_pos hnum]
  · rw [if_neg (by omega)]
    cases negative with
    | false => rfl
    | true =>
      rw [signedPlace?_negative, hzero hnum]
      rfl
  · rw [hpos hnum, signedPlace?_positive, if_neg (by omega)]

/-! ### Infinities -/

theorem isFinite_infinity (negative : Bool) : (infinity negative).isFinite = false :=
  decide_eq_false (Nat.lt_irrefl infinitePlace)

theorem eq_infinity (hx : x.isNaN = false) (h : x.isFinite = false) :
    x = infinity true ∨ x = infinity false := by
  cases x with
  | nan => cases hx
  | signed negative place =>
    have hplace : place = Fin.last infinitePlace := by
      have := of_decide_eq_false h
      exact Fin.ext (by simp; omega)
    rw [hplace]
    cases negative
    · exact .inr rfl
    · exact .inl rfl

/-- No number is below negative infinity. -/
theorem infinity_true_le (h : x.isNaN = false) : infinity true ≤ x := by
  cases x with
  | nan => cases h
  | signed negative place =>
    have hle : place.val ≤ infinitePlace := Nat.le_of_lt_succ place.isLt
    cases negative with
    | false =>
      refine le_iff.mpr ⟨_, _, signedPlace?_negative _, signedPlace?_positive place, ?_⟩
      omega
    | true =>
      refine le_iff.mpr ⟨_, _, signedPlace?_negative _, signedPlace?_negative place, ?_⟩
      rw [Fin.val_last]
      omega

/-- No number is above infinity. -/
theorem le_infinity_false (h : x.isNaN = false) : x ≤ infinity false := by
  cases x with
  | nan => cases h
  | signed negative place =>
    have hle : place.val ≤ infinitePlace := Nat.le_of_lt_succ place.isLt
    cases negative with
    | false =>
      refine le_iff.mpr ⟨_, _, signedPlace?_positive place, signedPlace?_positive _, ?_⟩
      rw [Fin.val_last]
      omega
    | true =>
      refine le_iff.mpr ⟨_, _, signedPlace?_negative place, signedPlace?_positive _, ?_⟩
      omega

theorem isNaN_of_le (h : x ≤ y) : x.isNaN = false ∧ y.isNaN = false := by
  obtain ⟨a, b, ha, hb, -⟩ := le_iff.mp h
  exact ⟨isNaN_eq_false_iff.mpr ⟨a, ha⟩, isNaN_eq_false_iff.mpr ⟨b, hb⟩⟩

/-- Only negative infinity is not above negative infinity. -/
theorem eq_infinity_true_of_le (h : x ≤ infinity true) : x = infinity true := by
  obtain ⟨a, b, ha, hb, hab⟩ := le_iff.mp h
  obtain rfl := Option.some.inj ((signedPlace?_negative (Fin.last infinitePlace)).symm.trans hb)
  rw [Fin.val_last] at hab
  cases x with
  | nan => cases ha
  | signed negative place =>
    cases negative with
    | false =>
      obtain rfl := Option.some.inj ((signedPlace?_positive place).symm.trans ha)
      have hpos := infinitePlace_pos
      omega
    | true =>
      obtain rfl := Option.some.inj ((signedPlace?_negative place).symm.trans ha)
      have hlast : place = Fin.last infinitePlace := Fin.ext (by rw [Fin.val_last]; omega)
      rw [hlast, infinity]

/-- Only infinity is not below infinity. -/
theorem eq_infinity_false_of_le (h : infinity false ≤ y) : y = infinity false := by
  obtain ⟨a, b, ha, hb, hab⟩ := le_iff.mp h
  obtain rfl := Option.some.inj ((signedPlace?_positive (Fin.last infinitePlace)).symm.trans ha)
  rw [Fin.val_last] at hab
  cases y with
  | nan => cases hb
  | signed negative place =>
    cases negative with
    | false =>
      obtain rfl := Option.some.inj ((signedPlace?_positive place).symm.trans hb)
      have hlast : place = Fin.last infinitePlace := Fin.ext (by rw [Fin.val_last]; omega)
      rw [hlast, infinity]
    | true =>
      obtain rfl := Option.some.inj ((signedPlace?_negative place).symm.trans hb)
      have hpos := infinitePlace_pos
      omega

/-- Of doubles in order the first is negative infinity, the second is infinity, or both are
finite. -/
theorem infinite_or_finite_of_le (h : x ≤ y) :
    x = infinity true ∨ y = infinity false ∨ x.isFinite = true ∧ y.isFinite = true := by
  obtain ⟨hx, hy⟩ := isNaN_of_le h
  cases hxf : x.isFinite with
  | true =>
    cases hyf : y.isFinite with
    | true => exact .inr (.inr ⟨rfl, rfl⟩)
    | false =>
      rcases eq_infinity hy hyf with rfl | rfl
      · exact .inl (eq_infinity_true_of_le h)
      · exact .inr (.inl rfl)
  | false =>
    rcases eq_infinity hx hxf with rfl | rfl
    · exact .inl rfl
    · exact .inr (.inl (eq_infinity_false_of_le h))

/-! ### Operations -/

/-- An operation that rounds an exact result in the order of the units, and leaves the infinities
as they are, keeps the order. -/
private theorem le_of_rounded (op : Binary64 → Binary64) (exact : ℤ → ℤ) {den : ℕ} (hd : 0 < den)
    (hmono : ∀ {m n : ℤ}, m ≤ n → exact m ≤ exact n)
    (hfinite : ∀ x : Binary64, x.isFinite = true →
      (op x).signedPlace? = some (nearestSigned (exact x.units) den))
    (hinfinite : ∀ negative, op (infinity negative) = infinity negative) (h : x ≤ y) :
    op x ≤ op y := by
  obtain ⟨hx, hy⟩ := isNaN_of_le h
  have hnumber : ∀ {z : Binary64}, z.isNaN = false → (op z).isNaN = false := by
    intro z hz
    cases hf : z.isFinite with
    | true => exact isNaN_eq_false_iff.mpr ⟨_, hfinite z hf⟩
    | false =>
      rcases eq_infinity hz hf with rfl | rfl
      · rwa [hinfinite]
      · rwa [hinfinite]
  rcases infinite_or_finite_of_le h with rfl | rfl | ⟨hxf, hyf⟩
  · rw [hinfinite]
    exact infinity_true_le (hnumber hy)
  · rw [hinfinite]
    exact le_infinity_false (hnumber hx)
  · exact le_iff.mpr ⟨_, _, hfinite x hxf, hfinite y hyf,
      nearestSigned_mono hd (hmono (units_le_units h))⟩

/-- The sign of a finite double is that of its units, unless these are zero. -/
private theorem sign_of_units (negative : Bool) (place : Fin (infinitePlace + 1)) :
    (0 < (signed negative place).units → negative = false) ∧
      ((signed negative place).units < 0 → negative = true) := by
  cases negative with
  | false =>
    refine ⟨fun _ ↦ rfl, fun h ↦ ?_⟩
    rw [units_positive] at h
    omega
  | true =>
    refine ⟨fun h ↦ ?_, fun _ ↦ rfl⟩
    rw [units_negative] at h
    omega

private theorem natAbs_units (negative : Bool) (place : Fin (infinitePlace + 1)) :
    (signed negative place).units.natAbs = unitsAt place.val := by
  cases negative with
  | false => exact Int.natAbs_natCast _
  | true => rw [units_negative, Int.natAbs_neg, Int.natAbs_natCast]

/-- A double scaled by a positive number of units keeps its sign. -/
private theorem signedPlace?_scaled {negative : Bool} {place : Fin (infinitePlace + 1)}
    {scale den : ℕ} (hs : 0 < scale) (hd : 0 < den) :
    (signed negative (nearestPlace (unitsAt place.val * scale) den)).signedPlace? =
      some (nearestSigned ((signed negative place).units * scale) den) := by
  have hpos : (0 : ℤ) < scale := Int.natCast_pos.mpr hs
  obtain ⟨hplus, hminus⟩ := sign_of_units negative place
  have habs : ((signed negative place).units * scale).natAbs = unitsAt place.val * scale := by
    rw [Int.natAbs_mul, natAbs_units, Int.natAbs_natCast]
  rw [← habs]
  exact signedPlace?_nearest hd (fun hnum ↦ hplus ((mul_pos_iff_of_pos_right hpos).mp hnum))
    (fun hnum ↦ hminus (neg_of_mul_neg_left hnum hpos.le))

/-- The product with a fixed positive double keeps the order. -/
theorem mul_le_mul_right (hc : 0 < c) (hf : c.isFinite = true) (h : x ≤ y) : x * c ≤ y * c := by
  obtain ⟨scale, rfl, hscale⟩ := exists_positive hc
  have hne : scale.val ≠ infinitePlace := Nat.ne_of_lt (of_decide_eq_true hf)
  have hpos : 0 < unitsAt scale.val :=
    unitsAt_lt_unitsAt (Nat.le_of_lt_succ scale.isLt) hscale
  refine le_of_rounded (· * signed false scale)
    (fun units ↦ units * unitsAt scale.val) unitsPerOne_pos
    (fun hmn ↦ Int.mul_le_mul_of_nonneg_right hmn (Int.natCast_nonneg _)) ?_ ?_ h
  · intro x hx
    obtain ⟨negative, place, rfl, hp⟩ := exists_signed_of_isFinite hx
    have hprod : signed negative place * signed false scale = signed negative
        (nearestPlace (unitsAt place.val * unitsAt scale.val) unitsPerOne) := by
      show mul (signed negative place) (signed false scale) = _
      simp only [mul, hp, hne, or_self, if_false, Bool.bne_false]
    show (signed negative place * signed false scale).signedPlace? = _
    rw [hprod]
    exact signedPlace?_scaled hpos unitsPerOne_pos
  · intro negative
    show mul (signed negative (Fin.last infinitePlace)) (signed false scale) = _
    simp only [mul, Fin.val_last, true_or, if_true, infinitePlace_pos.ne', Nat.ne_of_gt hscale,
      or_self, if_false, Bool.bne_false]

/-- The quotient by a fixed positive double keeps the order. -/
theorem div_le_div_right (hc : 0 < c) (hf : c.isFinite = true) (h : x ≤ y) : x / c ≤ y / c := by
  obtain ⟨scale, rfl, hscale⟩ := exists_positive hc
  have hne : scale.val ≠ infinitePlace := Nat.ne_of_lt (of_decide_eq_true hf)
  have hz : scale.val ≠ 0 := Nat.ne_of_gt hscale
  have hpos : 0 < unitsAt scale.val :=
    unitsAt_lt_unitsAt (Nat.le_of_lt_succ scale.isLt) hscale
  refine le_of_rounded (· / signed false scale) (fun units ↦ units * unitsPerOne) hpos
    (fun hmn ↦ Int.mul_le_mul_of_nonneg_right hmn (Int.natCast_nonneg _)) ?_ ?_ h
  · intro x hx
    obtain ⟨negative, place, rfl, hp⟩ := exists_signed_of_isFinite hx
    have hquot : signed negative place / signed false scale = signed negative
        (nearestPlace (unitsAt place.val * unitsPerOne) (unitsAt scale.val)) := by
      show div (signed negative place) (signed false scale) = _
      simp only [div, hp, hne, hz, if_false, Bool.bne_false, ofRatio]
    show (signed negative place / signed false scale).signedPlace? = _
    rw [hquot]
    exact signedPlace?_scaled unitsPerOne_pos hpos
  · intro negative
    show div (signed negative (Fin.last infinitePlace)) (signed false scale) = _
    simp only [div, Fin.val_last, if_true, hne, if_false, Bool.bne_false]

theorem half_le_half (h : x ≤ y) : x / 2 ≤ y / 2 :=
  div_le_div_right (by decide +kernel) (by decide +kernel) h

/-- The sum with a fixed finite double keeps the order. -/
theorem add_le_add_right (hf : c.isFinite = true) (h : x ≤ y) : x + c ≤ y + c := by
  obtain ⟨t, q, rfl, hq⟩ := exists_signed_of_isFinite hf
  refine le_of_rounded (· + signed t q) (· + (signed t q).units) Nat.one_pos
    (fun hmn ↦ Int.add_le_add_right hmn _) ?_ ?_ h
  · intro x hx
    obtain ⟨s, p, rfl, hp⟩ := exists_signed_of_isFinite hx
    show (add (signed s p) (signed t q)).signedPlace? = _
    simp only [add, hp, hq, if_false]
    generalize (signed s p).units + (signed t q).units = sum
    by_cases hsum : sum = 0
    · rw [if_pos hsum, hsum]
      exact signedPlace?_signed_zero _
    · rw [if_neg hsum]
      exact signedPlace?_nearest Nat.one_pos (by simp; omega) (by simp)
  · intro negative
    exact add_eq_self_of_infinite rfl (isFinite_infinity negative) hf

/-- The floor of a number of units has the sign of the units, unless it is zero. -/
private theorem sign_of_floor {units : ℤ} :
    (0 < units / unitsPerOne * unitsPerOne → 0 < units) ∧
      (units / unitsPerOne * unitsPerOne < 0 → units < 0) := by
  have hone : (0 : ℤ) < unitsPerOne := Int.natCast_pos.mpr unitsPerOne_pos
  have hle : units / unitsPerOne * unitsPerOne ≤ units := Int.ediv_mul_le _ hone.ne'
  refine ⟨fun h ↦ h.trans_le hle, fun h ↦ ?_⟩
  have hneg := neg_of_mul_neg_left h hone.le
  exact Int.not_le.mp fun hnonneg ↦ Int.not_lt.mpr (Int.ediv_nonneg hnonneg hone.le) hneg

/-- The floor keeps the order. -/
theorem floor_le_floor (h : x ≤ y) : x.floor ≤ y.floor := by
  have hone : (0 : ℤ) < unitsPerOne := Int.natCast_pos.mpr unitsPerOne_pos
  refine le_of_rounded floor (fun units ↦ units / unitsPerOne * unitsPerOne) Nat.one_pos
    (fun hmn ↦ Int.mul_le_mul_of_nonneg_right (Int.ediv_le_ediv hone hmn) hone.le) ?_ ?_ h
  · intro x hx
    obtain ⟨negative, place, rfl, hp⟩ := exists_signed_of_isFinite hx
    by_cases hz : place.val = 0
    · obtain rfl : place = 0 := Fin.ext hz
      have hfloor : (signed negative 0).floor = signed negative 0 := by
        simp only [floor, hz, or_true, if_true]
      rw [hfloor, units_signed_zero, Int.zero_ediv, Int.zero_mul]
      exact signedPlace?_signed_zero negative
    · obtain ⟨hplus, hminus⟩ := sign_of_units negative place
      have hfloor : (signed negative place).floorInt =
          (signed negative place).units / unitsPerOne :=
        Int.fdiv_eq_ediv_of_nonneg _ hone.le
      have habs : ((signed negative place).units / unitsPerOne * unitsPerOne).natAbs =
          (signed negative place).floorInt.natAbs * unitsPerOne := by
        rw [Int.natAbs_mul, Int.natAbs_natCast, hfloor]
      have hround : (signed negative place).floor = signed negative (nearestPlace
          ((signed negative place).units / unitsPerOne * unitsPerOne).natAbs 1) := by
        rw [habs]
        simp only [floor, hp, hz, or_self, if_false, ofRatio]
      rw [hround]
      exact signedPlace?_nearest Nat.one_pos (fun hnum ↦ hplus (sign_of_floor.1 hnum))
        (fun hnum ↦ hminus (sign_of_floor.2 hnum))
  · intro negative
    simp only [floor, infinity, Fin.val_last, true_or, if_true]

/-- The integer part within bounds keeps the order. -/
theorem toIntWithin_le_toIntWithin {low high : ℤ} (hb : low ≤ high) (h : x ≤ y) :
    x.toIntWithin low high ≤ y.toIntWithin low high := by
  have hone : (0 : ℤ) < unitsPerOne := Int.natCast_pos.mpr unitsPerOne_pos
  have hfinite : ∀ {z : Binary64}, z.isFinite = true →
      z.toIntWithin low high = max low (min high (z.units.tdiv unitsPerOne)) := by
    intro z hz
    obtain ⟨negative, place, rfl, hp⟩ := exists_signed_of_isFinite hz
    exact if_neg hp
  have hlow : (infinity true).toIntWithin low high = low := by
    simp [infinity, toIntWithin]
  have hhigh : (infinity false).toIntWithin low high = high := by
    simp [infinity, toIntWithin]
  have hbounds : ∀ {z : Binary64}, z.isNaN = false →
      low ≤ z.toIntWithin low high ∧ z.toIntWithin low high ≤ high := by
    intro z hz
    cases hf : z.isFinite with
    | true =>
      rw [hfinite hf]
      omega
    | false =>
      rcases eq_infinity hz hf with rfl | rfl
      · omega
      · omega
  obtain ⟨hx, hy⟩ := isNaN_of_le h
  rcases infinite_or_finite_of_le h with rfl | rfl | ⟨hxf, hyf⟩
  · rw [hlow]
    exact (hbounds hy).1
  · rw [hhigh]
    exact (hbounds hx).2
  · have hdiv := Int.tdiv_le_tdiv hone (units_le_units h)
    rw [hfinite hxf, hfinite hyf]
    omega

/-- The double nearest to an integer keeps the order. -/
theorem ofInt_le_ofInt {m n : ℤ} (h : m ≤ n) : ofInt m ≤ ofInt n := by
  have hone : (0 : ℤ) < unitsPerOne := Int.natCast_pos.mpr unitsPerOne_pos
  have hplace : ∀ k : ℤ, (ofInt k).signedPlace? = some (nearestSigned (k * unitsPerOne) 1) := by
    intro k
    have habs : (k * unitsPerOne).natAbs = k.natAbs * unitsPerOne := by
      rw [Int.natAbs_mul, Int.natAbs_natCast]
    rw [ofInt, ofRatio, ← habs]
    refine signedPlace?_nearest Nat.one_pos (fun hk ↦ ?_) fun hk ↦ ?_
    · exact decide_eq_false (Int.not_lt.mpr (pos_of_mul_pos_left hk hone.le).le)
    · exact decide_eq_true (neg_of_mul_neg_left hk hone.le)
  exact le_iff.mpr ⟨_, _, hplace m, hplace n,
    nearestSigned_mono Nat.one_pos (Int.mul_le_mul_of_nonneg_right h hone.le)⟩

/-! ### Thresholds -/

variable {below least : Binary64}

/-- Whether a double is the one that follows a number. -/
def Follows (least below : Binary64) : Prop :=
  below.isNaN = false ∧ least.signedPlace? = below.signedPlace?.map (· + 1)

instance (least below : Binary64) : Decidable (least.Follows below) :=
  inferInstanceAs
    (Decidable (below.isNaN = false ∧ least.signedPlace? = below.signedPlace?.map (· + 1)))

/-- There is nothing between a double and the one that follows it. -/
theorem Follows.le_of_not_le (h : least.Follows below) (hx : x.isNaN = false)
    (hle : ¬ least ≤ x) : x ≤ below := by
  obtain ⟨a, ha⟩ := isNaN_eq_false_iff.mp hx
  obtain ⟨b, hb⟩ := isNaN_eq_false_iff.mp h.1
  have hleast : least.signedPlace? = some (b + 1) := by
    rw [h.2, hb, Option.map_some]
  have hlt : ¬ b + 1 ≤ a := fun hab ↦ hle (le_iff.mpr ⟨_, _, hleast, ha, hab⟩)
  exact le_iff.mpr ⟨a, b, ha, hb, by omega⟩

/-- Where a function in the order of the doubles first reaches one, it does so ever after. -/
theorem Follows.one_le_iff {f : Binary64 → ℤ} (hf : ∀ x y, x ≤ y → f x ≤ f y)
    (h : least.Follows below) (hbelow : f below < 1) (hleast : 1 ≤ f least)
    (hx : x.isNaN = false) : 1 ≤ f x ↔ least ≤ x := by
  constructor
  · intro hone
    by_contra hle
    have hback := hf x below (h.le_of_not_le hx hle)
    omega
  · exact fun hle ↦ hleast.trans (hf least x hle)

end Montage.Numeric.Binary64
