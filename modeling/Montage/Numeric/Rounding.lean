/-!
# Rounding a quotient

The nearest natural number to a quotient, a half going to the even neighbour. Every decimal
and every double of this library is rounded by this one function.
-/

namespace Montage.Numeric

/-- The integer nearest to `num / den`; of two that are equally near, the even one. -/
def roundHalfEven (num den : Nat) : Nat :=
  let quotient := num / den
  let twice := 2 * (num % den)
  if den < twice ∨ (den = twice ∧ quotient % 2 = 1) then quotient + 1 else quotient

/-- Exact quotients are kept. -/
theorem roundHalfEven_mul (n den : Nat) (h : 0 < den) : roundHalfEven (n * den) den = n := by
  unfold roundHalfEven
  rw [Nat.mul_div_cancel n h, Nat.mul_mod_left]
  have : ¬ (den < 2 * 0 ∨ (den = 2 * 0 ∧ n % 2 = 1)) := by omega
  simp only [this, if_false]

/-- The rounded quotient is the floor or its successor. -/
theorem roundHalfEven_eq_or (num den : Nat) :
    roundHalfEven num den = num / den ∨ roundHalfEven num den = num / den + 1 := by
  simp only [roundHalfEven]
  split
  · exact Or.inr rfl
  · exact Or.inl rfl

/-- The rounded quotient is at most half a unit away. -/
theorem roundHalfEven_near (num den : Nat) (h : 0 < den) :
    2 * (roundHalfEven num den * den) ≤ 2 * num + den ∧
      2 * num ≤ 2 * (roundHalfEven num den * den) + den := by
  have hm := Nat.mod_lt num h
  have hd := Nat.div_add_mod num den
  rw [Nat.mul_comm] at hd
  simp only [roundHalfEven]
  split
  · rename_i hr
    rw [Nat.add_mul, Nat.one_mul]
    omega
  · rename_i hr
    omega

end Montage.Numeric
