import Montage.Numeric.Binary64

/-!
# The nearest double

Rounding keeps the order of quotients and keeps the doubles themselves, so a quotient that is not
above a double is not rounded above it. Places are in the order of their values.
-/

namespace Montage.Numeric

/-! ### Rounding a quotient -/

private theorem div_le_div_of_mul_le {num den num' den' : Nat} (hd : 0 < den) (hd' : 0 < den')
    (h : num * den' ≤ num' * den) : num / den ≤ num' / den' := by
  rw [Nat.le_div_iff_mul_le hd']
  apply Nat.le_of_mul_le_mul_right _ hd
  calc num / den * den' * den = num / den * den * den' := Nat.mul_right_comm _ _ _
    _ ≤ num * den' := Nat.mul_le_mul_right _ (Nat.div_mul_le_self num den)
    _ ≤ num' * den := h

/-- Between quotients with the same floor the order is that of the remainders. -/
private theorem mod_mul_le_of_div_eq {num den num' den' : Nat} (h : num * den' ≤ num' * den)
    (hq : num / den = num' / den') : num % den * den' ≤ num' % den' * den := by
  have hnum : num * den' = num / den * den * den' + num % den * den' := by
    rw [← Nat.add_mul, Nat.div_add_mod']
  have hnum' : num' * den = num / den * den * den' + num' % den' * den := by
    rw [hq, Nat.mul_right_comm, ← Nat.add_mul, Nat.div_add_mod']
  omega

/-- A greater share of the divisor is past the half if the smaller one is. -/
private theorem half_lt_of_mul_le {m den m' den' : Nat} (h : m * den' ≤ m' * den)
    (hd' : 0 < den') (hm : den < 2 * m) : den' < 2 * m' := by
  apply Nat.lt_of_mul_lt_mul_right (a := den)
  calc den' * den = den * den' := Nat.mul_comm _ _
    _ < 2 * m * den' := Nat.mul_lt_mul_of_pos_right hm hd'
    _ ≤ 2 * m' * den := by
      rw [Nat.mul_assoc, Nat.mul_assoc]
      exact Nat.mul_le_mul_left 2 h

private theorem half_le_of_mul_le {m den m' den' : Nat} (hd : 0 < den)
    (h : m * den' ≤ m' * den) (hm : den ≤ 2 * m) : den' ≤ 2 * m' := by
  apply Nat.le_of_mul_le_mul_right _ hd
  calc den' * den = den * den' := Nat.mul_comm _ _
    _ ≤ 2 * m * den' := Nat.mul_le_mul_right _ hm
    _ ≤ 2 * m' * den := by
      rw [Nat.mul_assoc, Nat.mul_assoc]
      exact Nat.mul_le_mul_left 2 h

/-- The greater quotient is not rounded below the smaller one. -/
theorem roundHalfEven_mono {num den num' den' : Nat} (hd : 0 < den) (hd' : 0 < den')
    (h : num * den' ≤ num' * den) : roundHalfEven num den ≤ roundHalfEven num' den' := by
  have hle := div_le_div_of_mul_le hd hd' h
  rcases Nat.lt_or_eq_of_le hle with hlt | heq
  · have hup : roundHalfEven num den ≤ num / den + 1 := by
      rcases roundHalfEven_eq_or num den with hr | hr <;> omega
    have hdown : num' / den' ≤ roundHalfEven num' den' := by
      rcases roundHalfEven_eq_or num' den' with hr | hr <;> omega
    omega
  · have hm := mod_mul_le_of_div_eq h heq
    simp only [roundHalfEven, ← heq]
    split
    · next hup =>
      have hup' : den' < 2 * (num' % den') ∨
          den' = 2 * (num' % den') ∧ num / den % 2 = 1 := by
        rcases hup with hlt | ⟨htie, hodd⟩
        · exact Or.inl (half_lt_of_mul_le hm hd' hlt)
        · have hhalf := half_le_of_mul_le hd hm (Nat.le_of_eq htie)
          omega
      exact Nat.le_of_eq (if_pos hup').symm
    · split <;> omega

/-- What is more than half a unit is not rounded to zero. -/
theorem roundHalfEven_pos_iff {num den : Nat} (h : 0 < den) :
    0 < roundHalfEven num den ↔ den < 2 * num := by
  obtain ⟨hlow, hhigh⟩ := roundHalfEven_near num den h
  constructor
  · intro hpos
    refine Nat.lt_of_not_le fun hle ↦ ?_
    have hsmall : num / den = 0 := Nat.div_eq_of_lt (by omega)
    have hrest : num % den = num := Nat.mod_eq_of_lt (by omega)
    simp only [roundHalfEven, hsmall, hrest] at hpos
    split at hpos <;> omega
  · intro hlt
    refine Nat.pos_of_ne_zero fun hzero ↦ ?_
    rw [hzero, Nat.zero_mul] at hhigh
    omega

/-! ### Places -/

/-- How far the units of a quotient are shifted to have 53 binary digits. -/
private def shiftOf (num den : Nat) : Nat := (num / den).log2 - 52

/-- The binary digits of the double nearest to a quotient. -/
private def digitsOf (num den : Nat) : Nat := roundHalfEven num (den * twoTo (shiftOf num den))

private theorem val_nearestPlace (num den : Nat) : (Binary64.nearestPlace num den).val =
    min (shiftOf num den * twoTo 52 + digitsOf num den) infinitePlace := rfl

theorem twoTo_add (m n : Nat) : twoTo (m + n) = twoTo m * twoTo n := Nat.pow_add 2 m n

theorem twoTo_le {m n : Nat} (h : m ≤ n) : twoTo m ≤ twoTo n :=
  Nat.pow_le_pow_right (by decide) h

/-- There are at most 53 digits, or one unit more. -/
private theorem digitsOf_le {den : Nat} (num : Nat) (hd : 0 < den) :
    digitsOf num den ≤ twoTo 53 := by
  have hscale : 0 < den * twoTo (shiftOf num den) := Nat.mul_pos hd (twoTo_pos _)
  have hlog : num / den < twoTo (53 + shiftOf num den) := by
    refine Nat.lt_of_lt_of_le Nat.lt_log2_self (twoTo_le ?_)
    unfold shiftOf
    omega
  have hnum : num ≤ twoTo 53 * (den * twoTo (shiftOf num den)) := by
    have hlt := (Nat.div_lt_iff_lt_mul hd).mp hlog
    rw [twoTo_add, Nat.mul_assoc, Nat.mul_comm (twoTo _) den] at hlt
    exact Nat.le_of_lt hlt
  have hmono := roundHalfEven_mono hscale hscale (Nat.mul_le_mul_right _ hnum)
  rwa [roundHalfEven_mul _ _ hscale] at hmono

/-- Quotients are shifted only if they have more than 53 digits. -/
private theorem le_of_shiftOf_pos {num den : Nat} (hd : 0 < den) (hs : 0 < shiftOf num den) :
    twoTo 52 * (den * twoTo (shiftOf num den)) ≤ num := by
  have hlog : twoTo (52 + shiftOf num den) ≤ num / den := by
    unfold shiftOf at hs ⊢
    have hexp : 52 + ((num / den).log2 - 52) = (num / den).log2 := by
      omega
    rw [hexp]
    refine Nat.log2_self_le fun hz ↦ ?_
    rw [hz] at hs
    exact absurd hs (by decide)
  have hle := (Nat.le_div_iff_mul_le hd).mp hlog
  rwa [twoTo_add, Nat.mul_assoc, Nat.mul_comm (twoTo _) den] at hle

/-- Shifted quotients have 53 digits. -/
private theorem le_digitsOf {num den : Nat} (hd : 0 < den) (hs : 0 < shiftOf num den) :
    twoTo 52 ≤ digitsOf num den := by
  have hscale : 0 < den * twoTo (shiftOf num den) := Nat.mul_pos hd (twoTo_pos _)
  have hmono := roundHalfEven_mono hscale hscale
    (Nat.mul_le_mul_right _ (le_of_shiftOf_pos hd hs))
  rwa [roundHalfEven_mul _ _ hscale] at hmono

private theorem shiftOf_mono {num den num' den' : Nat} (hd : 0 < den) (hd' : 0 < den')
    (h : num * den' ≤ num' * den) : shiftOf num den ≤ shiftOf num' den' := by
  have hq := div_le_div_of_mul_le hd hd' h
  have hlog : (num / den).log2 ≤ (num' / den').log2 := by
    by_cases hz : num / den = 0
    · rw [hz, Nat.log2_zero]
      exact Nat.zero_le _
    · apply (Nat.le_log2 (Nat.ne_of_gt (Nat.lt_of_lt_of_le (Nat.pos_of_ne_zero hz) hq))).mpr
      exact Nat.le_trans (Nat.log2_self_le hz) hq
  unfold shiftOf
  omega

/-- The value of a shift and digits of full length. -/
private theorem unitsAt_of_digits {shift digits : Nat} (hl : twoTo 52 ≤ digits)
    (hu : digits < twoTo 53) :
    Binary64.unitsAt (shift * twoTo 52 + digits) = digits * twoTo shift := by
  have h53 : twoTo 53 = twoTo 52 * 2 := twoTo_succ 52
  unfold Binary64.unitsAt
  cases shift with
  | zero => rw [Nat.zero_mul, Nat.zero_add, if_pos hu, twoTo_zero, Nat.mul_one]
  | succ shift =>
    obtain ⟨low, rfl⟩ := Nat.exists_eq_add_of_le hl
    have hlow : low < twoTo 52 := by
      omega
    have hplace : (shift + 1) * twoTo 52 + (twoTo 52 + low) = twoTo 52 * (shift + 2) + low := by
      rw [Nat.mul_comm (twoTo 52), Nat.add_mul, Nat.add_mul]
      omega
    have hlarge : ¬ twoTo 52 * (shift + 2) + low < twoTo 53 := by
      have := Nat.mul_le_mul_left (twoTo 52) (Nat.le_add_left 2 shift)
      omega
    rw [hplace, if_neg hlarge, Nat.mul_add_mod, Nat.mul_add_div (twoTo_pos 52),
      Nat.mod_eq_of_lt hlow, Nat.div_eq_of_lt hlow]
    rfl

/-- The value of a shift and digits of full length or one unit more. -/
private theorem unitsAt_of_digits_le {shift digits : Nat} (hl : twoTo 52 ≤ digits)
    (hu : digits ≤ twoTo 53) :
    Binary64.unitsAt (shift * twoTo 52 + digits) = digits * twoTo shift := by
  have h53 : twoTo 53 = twoTo 52 * 2 := twoTo_succ 52
  rcases Nat.lt_or_eq_of_le hu with hlt | rfl
  · exact unitsAt_of_digits hl hlt
  · have hnext : shift * twoTo 52 + twoTo 53 = (shift + 1) * twoTo 52 + twoTo 52 := by
      rw [h53, Nat.add_mul]
      omega
    have hfull : twoTo 52 < twoTo 53 := by
      have := twoTo_pos 52
      omega
    rw [hnext, unitsAt_of_digits (Nat.le_refl _) hfull, h53, twoTo_succ shift,
      Nat.mul_comm (twoTo shift), ← Nat.mul_assoc]

/-- The first places are their own values. -/
private theorem unitsAt_of_le {place : Nat} (h : place ≤ twoTo 53) :
    Binary64.unitsAt place = place := by
  rcases Nat.lt_or_eq_of_le h with hlt | rfl
  · exact if_pos hlt
  · have hstep := @unitsAt_of_digits_le 0 _ (twoTo_le (by decide)) (Nat.le_refl (twoTo 53))
    rwa [Nat.zero_mul, Nat.zero_add, twoTo_zero, Nat.mul_one] at hstep

/-- A place from the second binade on is a shift and digits of full length. -/
private theorem exists_digits_of_place {place : Nat} (h : twoTo 53 ≤ place) :
    ∃ shift digits, twoTo 52 ≤ digits ∧ digits < twoTo 53 ∧
      place = (shift + 1) * twoTo 52 + digits := by
  have h53 : twoTo 53 = twoTo 52 * 2 := twoTo_succ 52
  have hmod := Nat.mod_lt place (twoTo_pos 52)
  have hdiv : 2 ≤ place / twoTo 52 := by
    rw [Nat.le_div_iff_mul_le (twoTo_pos 52), Nat.mul_comm, ← h53]
    exact h
  obtain ⟨shift, hshift⟩ := Nat.exists_eq_add_of_le hdiv
  have hplace := Nat.div_add_mod' place (twoTo 52)
  rw [hshift, Nat.add_comm 2, Nat.add_mul] at hplace
  refine ⟨shift, twoTo 52 + place % twoTo 52, Nat.le_add_right _ _, ?_, ?_⟩
  · omega
  · rw [Nat.add_mul]
    omega

/-- Digits of full length are as long as their units, less the shift. -/
private theorem log2_digits_mul {shift digits : Nat} (hl : twoTo 52 ≤ digits)
    (hu : digits < twoTo 53) : (digits * twoTo shift).log2 = 52 + shift := by
  have hpos : 0 < digits * twoTo shift :=
    Nat.mul_pos (Nat.lt_of_lt_of_le (twoTo_pos 52) hl) (twoTo_pos shift)
  apply (Nat.log2_eq_iff (Nat.ne_of_gt hpos)).mpr
  constructor
  · show twoTo (52 + shift) ≤ _
    rw [twoTo_add]
    exact Nat.mul_le_mul_right _ hl
  · show _ < twoTo (52 + shift + 1)
    rw [Nat.add_right_comm, twoTo_add]
    exact Nat.mul_lt_mul_of_pos_right hu (twoTo_pos shift)

namespace Binary64

/-- The greater quotient is not rounded to a lower place. -/
theorem nearestPlace_mono {num den num' den' : Nat} (hd : 0 < den) (hd' : 0 < den')
    (h : num * den' ≤ num' * den) : (nearestPlace num den).val ≤ (nearestPlace num' den').val := by
  have hshift := shiftOf_mono hd hd' h
  rw [val_nearestPlace, val_nearestPlace]
  have hplace : shiftOf num den * twoTo 52 + digitsOf num den ≤
      shiftOf num' den' * twoTo 52 + digitsOf num' den' := by
    rcases Nat.lt_or_eq_of_le hshift with hlt | heq
    · have hdigits := digitsOf_le num hd
      have hdigits' := le_digitsOf hd' (Nat.lt_of_le_of_lt (Nat.zero_le _) hlt)
      have h53 : twoTo 53 = twoTo 52 * 2 := twoTo_succ 52
      have hstep : (shiftOf num den + 1) * twoTo 52 ≤ shiftOf num' den' * twoTo 52 :=
        Nat.mul_le_mul_right _ hlt
      rw [Nat.add_mul, Nat.one_mul] at hstep
      omega
    · have hdigits : digitsOf num den ≤ digitsOf num' den' := by
        unfold digitsOf
        rw [← heq]
        apply roundHalfEven_mono (Nat.mul_pos hd (twoTo_pos _)) (Nat.mul_pos hd' (twoTo_pos _))
        rw [← Nat.mul_assoc, ← Nat.mul_assoc]
        exact Nat.mul_le_mul_right _ h
      rw [heq]
      omega
  exact Nat.le_min.mpr ⟨Nat.le_trans (Nat.min_le_left _ _) hplace, Nat.min_le_right _ _⟩

/-- The double of a place is its own nearest double. -/
theorem nearestPlace_unitsAt {place den : Nat} (hd : 0 < den) (hp : place ≤ infinitePlace) :
    (nearestPlace (unitsAt place * den) den).val = place := by
  have hdiv : unitsAt place * den / den = unitsAt place := Nat.mul_div_cancel _ hd
  suffices hplace : shiftOf (unitsAt place * den) den * twoTo 52 +
      digitsOf (unitsAt place * den) den = place by
    rw [val_nearestPlace, hplace]
    exact Nat.min_eq_left hp
  by_cases hsmall : place < twoTo 53
  · have hu : unitsAt place = place := if_pos hsmall
    have hlog : place.log2 < 53 := by
      by_cases hz : place = 0
      · rw [hz]
        decide
      · exact (Nat.log2_lt hz).mpr hsmall
    have hshift : shiftOf (unitsAt place * den) den = 0 := by
      unfold shiftOf
      rw [hdiv, hu]
      omega
    unfold digitsOf
    rw [hshift, twoTo_zero, Nat.mul_one, roundHalfEven_mul _ _ hd, hu]
    omega
  · obtain ⟨shift, digits, hl, hu, rfl⟩ := exists_digits_of_place (Nat.le_of_not_lt hsmall)
    have hunits : unitsAt ((shift + 1) * twoTo 52 + digits) = digits * twoTo (shift + 1) :=
      unitsAt_of_digits hl hu
    have hshift : shiftOf (unitsAt ((shift + 1) * twoTo 52 + digits) * den) den = shift + 1 := by
      unfold shiftOf
      rw [hdiv, hunits, log2_digits_mul hl hu]
      omega
    unfold digitsOf
    rw [hshift, hunits, Nat.mul_assoc, Nat.mul_comm (twoTo _) den,
      roundHalfEven_mul _ _ (Nat.mul_pos hd (twoTo_pos _))]

/-- A quotient that is not above a double is not rounded above it. -/
theorem nearestPlace_le {num den place : Nat} (hd : 0 < den) (hp : place ≤ infinitePlace)
    (h : num ≤ unitsAt place * den) : (nearestPlace num den).val ≤ place := by
  have hmono := nearestPlace_mono hd hd (Nat.mul_le_mul_right den h)
  rwa [nearestPlace_unitsAt hd hp] at hmono

/-- A quotient that is not below a double is not rounded below it. -/
theorem le_nearestPlace {num den place : Nat} (hd : 0 < den) (hp : place ≤ infinitePlace)
    (h : unitsAt place * den ≤ num) : place ≤ (nearestPlace num den).val := by
  have hmono := nearestPlace_mono hd hd (Nat.mul_le_mul_right den h)
  rwa [nearestPlace_unitsAt hd hp] at hmono

/-- The value of a quotient rounded to 53 digits. -/
private theorem unitsAt_nearestPlace {num den : Nat} (hd : 0 < den)
    (h : (nearestPlace num den).val < infinitePlace) :
    unitsAt (nearestPlace num den).val = digitsOf num den * twoTo (shiftOf num den) := by
  have hval : (nearestPlace num den).val = shiftOf num den * twoTo 52 + digitsOf num den := by
    rw [val_nearestPlace] at h ⊢
    omega
  rw [hval]
  by_cases hs : shiftOf num den = 0
  · rw [hs, Nat.zero_mul, Nat.zero_add, twoTo_zero, Nat.mul_one]
    exact unitsAt_of_le (digitsOf_le num hd)
  · exact unitsAt_of_digits_le (le_digitsOf hd (Nat.pos_of_ne_zero hs)) (digitsOf_le num hd)

/-- Rounding moves a quotient by at most half a step. A step is a power of two; longer steps than a
unit are short against the quotient. -/
theorem exists_step {num den : Nat} (hd : 0 < den)
    (h : (nearestPlace num den).val < infinitePlace) :
    ∃ shift, twoTo shift ∣ unitsAt (nearestPlace num den).val ∧
      2 * (unitsAt (nearestPlace num den).val * den) ≤ 2 * num + twoTo shift * den ∧
      2 * num ≤ 2 * (unitsAt (nearestPlace num den).val * den) + twoTo shift * den ∧
      (shift = 0 ∨ twoTo 52 * twoTo shift * den ≤ num) := by
  have hnear := roundHalfEven_near num (twoTo (shiftOf num den) * den)
    (Nat.mul_pos (twoTo_pos _) hd)
  have hvalue : ∀ step, digitsOf num den * (twoTo (shiftOf num den) * step) =
      unitsAt (nearestPlace num den).val * step := by
    intro step
    rw [unitsAt_nearestPlace hd h, Nat.mul_assoc]
  rw [Nat.mul_comm (twoTo _) den, ← digitsOf, Nat.mul_comm den, hvalue] at hnear
  refine ⟨shiftOf num den, ⟨digitsOf num den, ?_⟩, hnear.1, hnear.2, ?_⟩
  · rw [unitsAt_nearestPlace hd h, Nat.mul_comm]
  · rcases Nat.eq_zero_or_pos (shiftOf num den) with hs | hs
    · exact Or.inl hs
    · have hle := le_of_shiftOf_pos hd hs
      rw [Nat.mul_comm den, ← Nat.mul_assoc] at hle
      exact Or.inr hle

/-- Rounding to 53 digits changes a number of units by at most one part in `2 ^ 53`. -/
theorem nearestPlace_near {n : Nat} (h : (nearestPlace n 1).val < infinitePlace) :
    twoTo 53 * unitsAt (nearestPlace n 1).val ≤ twoTo 53 * n + unitsAt (nearestPlace n 1).val ∧
      twoTo 53 * n ≤
        twoTo 53 * unitsAt (nearestPlace n 1).val + unitsAt (nearestPlace n 1).val := by
  rw [unitsAt_nearestPlace Nat.one_pos h]
  have hnear := roundHalfEven_near n (1 * twoTo (shiftOf n 1))
    (Nat.mul_pos Nat.one_pos (twoTo_pos _))
  change 2 * (digitsOf n 1 * (1 * twoTo (shiftOf n 1))) ≤ 2 * n + 1 * twoTo (shiftOf n 1) ∧
    2 * n ≤ 2 * (digitsOf n 1 * (1 * twoTo (shiftOf n 1))) + 1 * twoTo (shiftOf n 1) at hnear
  rw [Nat.one_mul] at hnear
  by_cases hs : shiftOf n 1 = 0
  · rw [hs, twoTo_zero, Nat.mul_one] at hnear ⊢
    have hexact : digitsOf n 1 = n := by
      omega
    rw [hexact]
    exact ⟨Nat.le_add_right _ _, Nat.le_add_right _ _⟩
  · have hfull : twoTo 52 * twoTo (shiftOf n 1) ≤ digitsOf n 1 * twoTo (shiftOf n 1) :=
      Nat.mul_le_mul_right _ (le_digitsOf Nat.one_pos (Nat.pos_of_ne_zero hs))
    generalize digitsOf n 1 * twoTo (shiftOf n 1) = rounded at hnear hfull ⊢
    have hup := Nat.mul_le_mul_left (twoTo 52) hnear.1
    have hdown := Nat.mul_le_mul_left (twoTo 52) hnear.2
    have hhalf : ∀ m : Nat, twoTo 52 * (2 * m) = twoTo 53 * m := by
      intro m
      rw [← Nat.mul_assoc, ← twoTo_succ]
    rw [Nat.mul_add, hhalf, hhalf] at hup hdown
    omega

/-! ### What doubles there are -/

/-- The units of a double are 53 digits at a shift, all of them used if there is a shift. -/
theorem exists_digits (place : Nat) :
    ∃ digits shift, unitsAt place = digits * twoTo shift ∧ digits < twoTo 53 ∧
      (shift = 0 ∨ twoTo 52 ≤ digits) ∧ (place < infinitePlace → shift < 2046) := by
  by_cases hsmall : place < twoTo 53
  · refine ⟨place, 0, ?_, hsmall, Or.inl rfl, fun _ ↦ by decide⟩
    rw [unitsAt_of_le (Nat.le_of_lt hsmall), twoTo_zero, Nat.mul_one]
  · obtain ⟨shift, digits, hl, hu, rfl⟩ := exists_digits_of_place (Nat.le_of_not_lt hsmall)
    refine ⟨digits, shift + 1, unitsAt_of_digits hl hu, hu, Or.inr hl, fun hfinite ↦ ?_⟩
    have hnext : (shift + 1 + 1) * twoTo 52 < 2047 * twoTo 52 := by
      rw [Nat.add_mul _ 1, Nat.one_mul]
      exact Nat.lt_of_le_of_lt (Nat.add_le_add_left hl _) hfinite
    have := Nat.lt_of_mul_lt_mul_right hnext
    omega

/-- A double that is great enough is a multiple of a power of two. -/
theorem dvd_unitsAt {place shift : Nat} (h : twoTo 52 * twoTo shift ≤ unitsAt place) :
    twoTo shift ∣ unitsAt place := by
  obtain ⟨digits, shift', heq, hu, -, -⟩ := exists_digits place
  rw [heq] at h ⊢
  by_cases hle : shift ≤ shift'
  · exact Nat.dvd_mul_left_of_dvd (Nat.pow_dvd_pow 2 hle) digits
  · exfalso
    have hshift : twoTo (shift' + 1) ≤ twoTo shift := twoTo_le (by omega)
    have hlong : twoTo 53 * twoTo shift' ≤ twoTo 52 * twoTo shift := by
      rw [twoTo_succ 52, Nat.mul_assoc, Nat.mul_comm 2, ← twoTo_succ]
      exact Nat.mul_le_mul_left _ hshift
    have hshort := Nat.mul_lt_mul_of_pos_right hu (twoTo_pos shift')
    omega

private theorem lt_infinitePlace {shift digits : Nat}
    (h : shift < 2045 ∧ digits ≤ twoTo 53 ∨ shift < 2046 ∧ digits < twoTo 53) :
    shift * twoTo 52 + digits < infinitePlace := by
  have h53 : twoTo 53 = twoTo 52 * 2 := twoTo_succ 52
  have hpos := twoTo_pos 52
  rw [infinitePlace]
  rcases h with ⟨hs, hu⟩ | ⟨hs, hu⟩
  · have hlow : shift * twoTo 52 ≤ 2044 * twoTo 52 :=
      Nat.mul_le_mul_right _ (Nat.le_of_lt_succ hs)
    omega
  · have hlow : shift * twoTo 52 ≤ 2045 * twoTo 52 :=
      Nat.mul_le_mul_right _ (Nat.le_of_lt_succ hs)
    omega

/-- 53 digits are a double at every shift that is not too high. -/
theorem exists_unitsAt_eq {digits shift : Nat} (hu : digits < twoTo 53) (hs : shift < 2046) :
    ∃ place < infinitePlace, unitsAt place = digits * twoTo shift := by
  have hlog : shiftOf (digits * twoTo shift) 1 ≤ shift := by
    unfold shiftOf
    rw [Nat.div_one]
    by_cases hz : digits * twoTo shift = 0
    · rw [hz, Nat.log2_zero]
      omega
    · have hlt : (digits * twoTo shift).log2 < 53 + shift := by
        apply (Nat.log2_lt hz).mpr
        show _ < twoTo (53 + shift)
        rw [twoTo_add]
        exact Nat.mul_lt_mul_of_pos_right hu (twoTo_pos shift)
      omega
  have hvalue : digitsOf (digits * twoTo shift) 1 * twoTo (shiftOf (digits * twoTo shift) 1) =
      digits * twoTo shift := by
    unfold digitsOf
    generalize shiftOf (digits * twoTo shift) 1 = low at hlog ⊢
    obtain ⟨rest, rfl⟩ := Nat.exists_eq_add_of_le' hlog
    rw [twoTo_add, ← Nat.mul_assoc, Nat.one_mul, roundHalfEven_mul _ _ (twoTo_pos low)]
  have hfinite : (nearestPlace (digits * twoTo shift) 1).val < infinitePlace := by
    refine Nat.lt_of_le_of_lt (Nat.min_le_left _ _) (lt_infinitePlace ?_)
    change shiftOf (digits * twoTo shift) 1 < _ ∧ digitsOf (digits * twoTo shift) 1 ≤ _ ∨
      shiftOf (digits * twoTo shift) 1 < _ ∧ digitsOf (digits * twoTo shift) 1 < _
    rcases Nat.lt_or_eq_of_le hlog with hlt | heq
    · exact Or.inl ⟨by omega, digitsOf_le _ Nat.one_pos⟩
    · rw [heq] at hvalue ⊢
      exact Or.inr ⟨hs, by rwa [Nat.eq_of_mul_eq_mul_right (twoTo_pos shift) hvalue]⟩
  exact ⟨_, hfinite, (unitsAt_nearestPlace Nat.one_pos hfinite).trans hvalue⟩

/-- The remainder of two doubles is a double. -/
theorem exists_unitsAt_eq_mod {a b : Nat} (ha : a < infinitePlace) (hb : b < infinitePlace) :
    ∃ place < infinitePlace, unitsAt place = unitsAt a % unitsAt b := by
  obtain ⟨digits, shift, hunits, hu, -, hs⟩ := exists_digits a
  obtain ⟨digits', shift', hunits', hu', -, hs'⟩ := exists_digits b
  rcases Nat.le_total shift shift' with hle | hle
  · -- What the digits of both share is the lower shift.
    obtain ⟨rest, rfl⟩ := Nat.exists_eq_add_of_le' hle
    have hmod : unitsAt a % unitsAt b = digits % (digits' * twoTo rest) * twoTo shift := by
      rw [hunits, hunits', twoTo_add, ← Nat.mul_assoc, Nat.mul_mod_mul_right]
    rw [hmod]
    exact exists_unitsAt_eq (Nat.lt_of_le_of_lt (Nat.mod_le _ _) hu) (hs ha)
  · obtain ⟨rest, rfl⟩ := Nat.exists_eq_add_of_le' hle
    have hmod : unitsAt a % unitsAt b = digits * twoTo rest % digits' * twoTo shift' := by
      rw [hunits, hunits', twoTo_add, ← Nat.mul_assoc, Nat.mul_mod_mul_right]
    rcases Nat.eq_zero_or_pos digits' with rfl | hpos
    · rw [hunits', Nat.zero_mul, Nat.mod_zero]
      exact ⟨a, ha, rfl⟩
    · rw [hmod]
      exact exists_unitsAt_eq (Nat.lt_trans (Nat.mod_lt _ hpos) hu') (hs' hb)

/-- Between two steps the even one is taken. -/
private theorem roundHalfEven_tie {digits step : Nat} (hs : 0 < step) :
    roundHalfEven (digits * (2 * step) + step) (2 * step) = digits + digits % 2 := by
  have hdiv : (digits * (2 * step) + step) / (2 * step) = digits := by
    rw [Nat.mul_comm, Nat.mul_add_div (by omega), Nat.div_eq_of_lt (by omega), Nat.add_zero]
  have hmod : (digits * (2 * step) + step) % (2 * step) = step := by
    rw [Nat.mul_comm, Nat.mul_add_mod, Nat.mod_eq_of_lt (by omega)]
  rw [roundHalfEven, hdiv, hmod]
  by_cases hodd : digits % 2 = 1
  · rw [if_pos (Or.inr ⟨rfl, hodd⟩), hodd]
  · rw [if_neg (by omega)]
    omega

/-- Digits of full length and a half have one bit too many. -/
private theorem shiftOf_tie {digits shift : Nat} (hl : twoTo 52 ≤ digits) (hu : digits < twoTo 53) :
    shiftOf ((2 * digits + 1) * twoTo shift) 1 = shift + 1 := by
  have hlog : ((2 * digits + 1) * twoTo shift).log2 = 53 + shift := by
    have hpos := twoTo_pos shift
    have h53 : twoTo 53 = twoTo 52 * 2 := twoTo_succ 52
    have h54 : twoTo (53 + 1) = twoTo 53 * 2 := twoTo_succ 53
    apply (Nat.log2_eq_iff (Nat.ne_of_gt (Nat.mul_pos (Nat.succ_pos _) hpos))).mpr
    constructor
    · show twoTo (53 + shift) ≤ _
      rw [twoTo_add]
      exact Nat.mul_le_mul_right _ (by omega)
    · show _ < twoTo (53 + shift + 1)
      rw [Nat.add_right_comm, twoTo_add]
      exact Nat.mul_lt_mul_of_pos_right (by omega) hpos
  unfold shiftOf
  rw [Nat.div_one, hlog]
  omega

/-- A half above 53 digits is rounded to the even neighbour. -/
theorem unitsAt_nearestPlace_tie {digits shift : Nat} (hl : twoTo 52 ≤ digits)
    (hu : digits < twoTo 53) (hs : shift < 2044) :
    unitsAt (nearestPlace ((2 * digits + 1) * twoTo shift) 1).val =
      (digits + digits % 2) * twoTo (shift + 1) := by
  have hstep : twoTo (shift + 1) = 2 * twoTo shift := by
    rw [twoTo_succ, Nat.mul_comm]
  have hhalf : (2 * digits + 1) * twoTo shift = digits * (2 * twoTo shift) + twoTo shift := by
    rw [Nat.add_mul, Nat.one_mul, Nat.mul_comm 2, Nat.mul_assoc]
  have hshift := @shiftOf_tie _ shift hl hu
  have hdigits : digitsOf ((2 * digits + 1) * twoTo shift) 1 = digits + digits % 2 := by
    unfold digitsOf
    rw [hshift, Nat.one_mul, hhalf, hstep, roundHalfEven_tie (twoTo_pos shift)]
  have hfinite : (nearestPlace ((2 * digits + 1) * twoTo shift) 1).val < infinitePlace := by
    rw [val_nearestPlace, hshift, hdigits]
    exact Nat.lt_of_le_of_lt (Nat.min_le_left _ _) (lt_infinitePlace (Or.inl ⟨by omega, by omega⟩))
  rw [unitsAt_nearestPlace Nat.one_pos hfinite, hshift, hdigits]

/-- Equal quotients are rounded to the same double. -/
theorem nearestPlace_congr {num den num' den' : Nat} (hd : 0 < den) (hd' : 0 < den')
    (h : num * den' = num' * den) : nearestPlace num den = nearestPlace num' den' :=
  Fin.ext (Nat.le_antisymm (nearestPlace_mono hd hd' (Nat.le_of_eq h))
    (nearestPlace_mono hd' hd (Nat.le_of_eq h.symm)))

/-- Places are in the order of their values. -/
theorem unitsAt_lt_unitsAt {a b : Nat} (hb : b ≤ infinitePlace) (h : a < b) :
    unitsAt a < unitsAt b := by
  apply Nat.lt_of_not_le
  intro hle
  have hplace := nearestPlace_le Nat.one_pos (Nat.le_trans (Nat.le_of_lt h) hb)
    (Nat.mul_le_mul_right 1 hle)
  rw [nearestPlace_unitsAt Nat.one_pos hb] at hplace
  exact Nat.not_le_of_lt h hplace

/-- Above the least double another double is at least half as great. -/
private theorem exists_lt_unitsAt_le {place : Nat} (h : 1 < place) :
    ∃ low < place, unitsAt place ≤ unitsAt low * 2 := by
  by_cases hsmall : place < twoTo 53
  · refine ⟨place - 1, by omega, ?_⟩
    have hu : unitsAt place = place := if_pos hsmall
    have hu' : unitsAt (place - 1) = place - 1 := if_pos (by omega)
    omega
  · obtain ⟨shift, digits, hl, hu, rfl⟩ := exists_digits_of_place (Nat.le_of_not_lt hsmall)
    refine ⟨shift * twoTo 52 + digits, ?_, ?_⟩
    · have := twoTo_pos 52
      rw [Nat.add_mul]
      omega
    · apply Nat.le_of_eq
      rw [unitsAt_of_digits hl hu, unitsAt_of_digits hl hu, twoTo_succ, Nat.mul_assoc]

theorem nearestPlace_zero {den : Nat} (hd : 0 < den) : (nearestPlace 0 den).val = 0 :=
  Nat.le_zero.mp (nearestPlace_le hd (Nat.zero_le _) (Nat.zero_le _))

/-- A quotient is rounded to zero up to half a unit. -/
theorem nearestPlace_pos_iff {num den : Nat} (hd : 0 < den) :
    0 < (nearestPlace num den).val ↔ den < 2 * num := by
  by_cases hsmall : num < den
  · have hfinite : 0 < infinitePlace := Nat.mul_pos (by decide) (twoTo_pos 52)
    have hround := @roundHalfEven_pos_iff num den hd
    rw [val_nearestPlace]
    simp only [shiftOf, digitsOf, Nat.div_eq_of_lt hsmall, Nat.log2_zero, Nat.zero_sub,
      Nat.zero_mul, Nat.zero_add, twoTo_zero, Nat.mul_one]
    omega
  · have hone : unitsAt 1 * den ≤ num := by
      have hu : unitsAt 1 = 1 := by decide
      rw [hu]
      omega
    have hpos := le_nearestPlace hd (by decide) hone
    omega

/-- Half of a double is rounded to a lower place, unless it is rounded to zero. -/
theorem nearestPlace_half_lt {place den : Nat} (hd : 0 < den) (hp : place ≤ infinitePlace)
    (h : 0 < (nearestPlace (unitsAt place * den) (2 * den)).val) :
    (nearestPlace (unitsAt place * den) (2 * den)).val < place := by
  have hpos : place ≠ 0 := by
    rintro rfl
    have hu : unitsAt 0 = 0 := rfl
    rw [hu, Nat.zero_mul, nearestPlace_zero (by omega)] at h
    exact absurd h (by decide)
  by_cases hone : place = 1
  · have hu : unitsAt 1 = 1 := by decide
    have hzero : den / (2 * den) = 0 := Nat.div_eq_of_lt (by omega)
    have hmod : den % (2 * den) = den := Nat.mod_eq_of_lt (by omega)
    have hround : roundHalfEven den (2 * den) = 0 := by
      simp [roundHalfEven, hzero, hmod]
    rw [hone, hu, Nat.one_mul, val_nearestPlace]
    simp [shiftOf, digitsOf, hzero, twoTo_zero, hround]
  · obtain ⟨low, hlow, hle⟩ := exists_lt_unitsAt_le (by omega : 1 < place)
    refine Nat.lt_of_le_of_lt (nearestPlace_le (by omega) (by omega) ?_) hlow
    rw [← Nat.mul_assoc]
    exact Nat.mul_le_mul_right den hle

/-- Two is the double with this place. -/
theorem unitsAt_two : unitsAt (1024 * twoTo 52) = 2 * unitsPerOne := by
  have hplace : 1024 * twoTo 52 = 1023 * twoTo 52 + twoTo 52 := Nat.succ_mul 1023 (twoTo 52)
  have hdigits : twoTo 52 < twoTo 53 := by
    have hpos := twoTo_pos 52
    have h53 : twoTo 53 = twoTo 52 * 2 := twoTo_succ 52
    omega
  have hexp : 52 + 1023 = 1074 + 1 := rfl
  rw [unitsPerOne, hplace, unitsAt_of_digits (Nat.le_refl _) hdigits, ← twoTo_add, hexp,
    twoTo_succ, Nat.mul_comm]

/-- Infinity stands where `2 ^ 1024` would be. -/
theorem unitsAt_infinitePlace : unitsAt infinitePlace = twoTo 1024 * unitsPerOne := by
  have hplace : infinitePlace = 2046 * twoTo 52 + twoTo 52 := Nat.succ_mul 2046 (twoTo 52)
  have hdigits : twoTo 52 < twoTo 53 := Nat.pow_lt_pow_right (by decide) (by decide)
  rw [hplace, unitsAt_of_digits Nat.le.refl hdigits, unitsPerOne, ← twoTo_add, ← twoTo_add]

theorem unitsPerOne_pos : 0 < unitsPerOne := twoTo_pos 1074

end Binary64

end Montage.Numeric
