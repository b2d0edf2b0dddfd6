import Montage.Numeric.Numeral
import Montage.Proofs.Numeric.Grid
import Montage.Proofs.Numeric.Numerals

/-!
# What numerals read as

A decimal numeral is read as the double that is rounded from the number it stands for. Numerals far
outside the range of doubles, which are settled by their exponents, are no exception.
-/

namespace Montage.Numeric

namespace Binary64

/-! ### Decimals -/

private theorem cast_tenTo (n : ℕ) : ((tenTo n : ℕ) : ℚ) = 10 ^ n := by
  show ((10 ^ n : ℕ) : ℚ) = 10 ^ n
  rw [Nat.cast_pow, Nat.cast_ofNat]

private theorem tenTo_le {m n : ℕ} (h : m ≤ n) : tenTo m ≤ tenTo n :=
  Nat.pow_le_pow_right (by decide) h

/-- Three digits hold nine bits. -/
private theorem twoTo_le_tenTo (n : ℕ) : twoTo (9 * n) ≤ tenTo (3 * n) := by
  show 2 ^ (9 * n) ≤ 10 ^ (3 * n)
  rw [Nat.pow_mul, Nat.pow_mul]
  exact Nat.pow_le_pow_left (by decide) n

/-- A decimal with a large exponent is rounded to infinity. -/
private theorem nearestPlace_large {digits exponent : ℕ} (hd : 0 < digits) (he : 400 < exponent) :
    nearestPlace (digits * tenTo exponent * unitsPerOne) 1 = Fin.last infinitePlace := by
  have hpower : twoTo 1024 ≤ tenTo exponent :=
    (twoTo_le (by decide)).trans ((twoTo_le_tenTo 133).trans (tenTo_le (by omega)))
  apply Fin.ext
  refine Nat.le_antisymm (Nat.le_of_lt_succ (Fin.isLt _)) (le_nearestPlace Nat.one_pos le_rfl ?_)
  rw [Fin.val_last, unitsAt_infinitePlace, Nat.mul_one]
  exact Nat.mul_le_mul_right _ (hpower.trans (Nat.le_mul_of_pos_left _ hd))

/-- A decimal with a small exponent is rounded to zero. -/
private theorem nearestPlace_small {digits exponent : ℕ} (he : 400 + digits.log2 < exponent) :
    nearestPlace (digits * unitsPerOne) (tenTo exponent) = 0 := by
  have hdigits : digits ≤ twoTo (digits.log2 + 1) := Nat.lt_log2_self.le
  have hpower : 2 * (digits * unitsPerOne) ≤ tenTo exponent := by
    calc 2 * (digits * unitsPerOne)
        ≤ 2 * (twoTo (digits.log2 + 1) * unitsPerOne) := by
          exact Nat.mul_le_mul_left 2 (Nat.mul_le_mul_right _ hdigits)
      _ = twoTo (digits.log2 + 1 + 1074 + 1) := by
          rw [unitsPerOne, ← twoTo_add, Nat.mul_comm, ← twoTo_succ]
      _ ≤ twoTo (9 * (120 + digits.log2 / 3)) := twoTo_le (by omega)
      _ ≤ tenTo (3 * (120 + digits.log2 / 3)) := twoTo_le_tenTo _
      _ ≤ tenTo exponent := tenTo_le (by omega)
  have hzero : ¬ 0 < (nearestPlace (digits * unitsPerOne) (tenTo exponent)).val := by
    rw [nearestPlace_pos_iff (tenTo_pos exponent)]
    exact Nat.not_lt.mpr hpower
  exact Fin.ext (Nat.eq_zero_of_not_pos hzero)

/-- A decimal is rounded from the number it stands for. -/
theorem ofDecimal_rounds (negative : Bool) (digits : ℕ) (exponent : ℤ) :
    (ofDecimal negative digits exponent).Rounds (withSign negative (digits * 10 ^ exponent)) := by
  have hten : (10 : ℚ) ≠ 0 := by norm_num
  have hhigh : ∀ e : ℕ, exponent = e → (digits : ℚ) * 10 ^ exponent =
      ((digits * tenTo e : ℕ) : ℚ) / (1 : ℕ) := by
    intro e he
    rw [he, zpow_natCast, Nat.cast_mul, cast_tenTo, Nat.cast_one, div_one]
  have hlow : ∀ e : ℕ, exponent = -(e : ℤ) → (digits : ℚ) * 10 ^ exponent =
      (digits : ℚ) / (tenTo e : ℕ) := by
    intro e he
    rw [he, zpow_neg, zpow_natCast, cast_tenTo, div_eq_mul_inv]
  unfold ofDecimal
  split_ifs with hzero hlarge hsmall hsign
  · rw [hzero, Nat.cast_zero, zero_mul, withSign_zero]
    exact signed_zero_rounds negative
  · obtain ⟨e, rfl⟩ := Int.eq_ofNat_of_zero_le (by omega : 0 ≤ exponent)
    rw [hhigh e rfl, ← nearestPlace_large (Nat.pos_of_ne_zero hzero) (by omega : 400 < e)]
    exact ofRatio_rounds negative _ Nat.one_pos
  · obtain ⟨e, he⟩ := Int.eq_ofNat_of_zero_le (by omega : 0 ≤ -exponent)
    rw [hlow e (by omega), ← nearestPlace_small (by omega : 400 + digits.log2 < e)]
    exact ofRatio_rounds negative digits (tenTo_pos e)
  · obtain ⟨e, rfl⟩ := Int.eq_ofNat_of_zero_le hsign
    rw [hhigh e rfl, Int.toNat_natCast]
    exact ofRatio_rounds negative _ Nat.one_pos
  · obtain ⟨e, he⟩ := Int.eq_ofNat_of_zero_le (by omega : 0 ≤ -exponent)
    rw [hlow e (by omega), he, Int.toNat_natCast]
    exact ofRatio_rounds negative digits (tenTo_pos e)

end Binary64

/-! ### Numerals without signs, exponents and words -/

/-- The double that a run of digits is read as. -/
theorem numeral?_digits {digits : List Char} (hd : IsDigits digits) :
    ∃ x, numeral? digits = some x ∧ x.Rounds (Nat.ofDigitChars 10 digits 0 : ℕ) := by
  have hround := Binary64.ofDecimal_rounds false (Nat.ofDigitChars 10 digits 0) 0
  have hnumeral : IsMagnitude false (digits ++ []) _ := .whole hd .absent
  rw [zpow_zero, mul_one] at hround
  rw [List.append_nil] at hnumeral
  exact ⟨_, numeral?_eq_some_iff.mpr (.unsigned hnumeral), hround⟩

/-- The double that digits with a point and more digits are read as. -/
theorem numeral?_pointed {whole fraction : List Char} (hd : IsDigits (whole ++ fraction)) :
    ∃ x, numeral? (whole ++ '.' :: fraction) = some x ∧
      x.Rounds (Nat.ofDigitChars 10 whole 0 +
        Nat.ofDigitChars 10 fraction 0 / 10 ^ fraction.length) := by
  have hround := Binary64.ofDecimal_rounds false (Nat.ofDigitChars 10 (whole ++ fraction) 0)
    (0 - fraction.length)
  have hnumeral : IsMagnitude false (whole ++ '.' :: (fraction ++ [])) _ := .pointed hd .absent
  have hvalue : ((Nat.ofDigitChars 10 (whole ++ fraction) 0 : ℕ) : ℚ) *
        10 ^ (0 - fraction.length : ℤ) =
      Nat.ofDigitChars 10 whole 0 + Nat.ofDigitChars 10 fraction 0 / 10 ^ fraction.length := by
    have hpower : (10 : ℚ) ^ fraction.length ≠ 0 := pow_ne_zero _ (by norm_num)
    rw [Nat.ofDigitChars_append, Nat.ofDigitChars_eq_ofDigitChars_zero, zero_sub, zpow_neg,
      zpow_natCast, Nat.cast_add, Nat.cast_mul, Nat.cast_pow, Nat.cast_ofNat]
    field_simp
  rw [List.append_nil] at hnumeral
  rw [Binary64.withSign, if_neg Bool.false_ne_true, hvalue] at hround
  exact ⟨_, numeral?_eq_some_iff.mpr (.unsigned hnumeral), hround⟩

theorem unsignedValue?_nonneg {text : List Char} {number : ℚ}
    (h : unsignedValue? text = some number) : 0 ≤ number := by
  unfold unsignedValue? at h
  dsimp only at h
  split_ifs at h
  split at h
  · obtain rfl := Option.some.inj h
    exact Nat.cast_nonneg _
  · split_ifs at h
    obtain rfl := Option.some.inj h
    positivity
  · contradiction

/-- What stands for a number without a sign is read as the double rounded from it. -/
theorem numeral?_of_unsignedValue? {text : List Char} {number : ℚ}
    (h : unsignedValue? text = some number) :
    ∃ x, numeral? text = some x ∧ x.Rounds number := by
  have htext := List.takeWhile_append_dropWhile (p := Char.isDigit) (l := text)
  have hwhole : ∀ c ∈ text.takeWhile Char.isDigit, c.isDigit = true :=
    List.all_eq_true.mp List.all_takeWhile
  unfold unsignedValue? at h
  dsimp only at h
  generalize text.takeWhile Char.isDigit = whole at h htext hwhole
  split_ifs at h with hne
  split at h
  · next hrest =>
    obtain rfl := Option.some.inj h
    rw [← htext, hrest, List.append_nil]
    exact numeral?_digits ⟨hne, hwhole⟩
  · next fraction hrest =>
    split_ifs at h with hfraction
    obtain rfl := Option.some.inj h
    rw [← htext, hrest]
    have hdigits := List.all_eq_true.mp hfraction.2
    exact numeral?_pointed ⟨by simp [hne], List.forall_mem_append.mpr ⟨hwhole, hdigits⟩⟩
  · contradiction

end Montage.Numeric
