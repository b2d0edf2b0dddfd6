import Montage.Proofs.Numeric.Reading
import Montage.Proofs.Numeric.Whole
import Montage.Timestamp

/-!
# Reading timestamps

A timestamp is documented as `SS`, `MM:SS` or `HH:MM:SS` with a fraction behind the seconds. Such
texts are read as the number of seconds, up to rounding. But the parts go through the reader of
numerals, so what is read is more: in each part a sign, a point, an exponent or a word may stand as
long as the part is not below zero.
-/

namespace Montage.Timestamp

open Montage.Numeric
open Binary64

/-! ### Texts that are read -/

private theorem parts_eq_splitOn (text : List Char) : parts text = text.splitOn ':' := by
  fun_induction parts text with
  | case1 => rfl
  | case2 rest ih =>
    rw [ih, List.splitOn, List.splitOn, List.splitOnP_cons_eq_if_modifyHead]
    rfl
  | case3 c rest hc part others hparts ih =>
    have hother : ¬ (c == ':') = true := fun heq ↦ hc (beq_iff_eq.mp heq)
    rw [hparts, List.splitOn] at ih
    rw [List.splitOn, List.splitOnP_cons_eq_if_modifyHead, if_neg hother, ← ih]
    rfl
  | case4 c rest hc hparts ih =>
    rw [hparts] at ih
    exact absurd ih.symm (List.splitOnP_ne_nil _ _)

/-- The texts that are read, and the numbers in them: one to three numerals joined by colons, none
of them below zero. -/
def Reads (text : List Char) (values : List Binary64) : Prop :=
  values.length ∈ [1, 2, 3] ∧ (∀ value ∈ values, ¬ value < 0) ∧
    ∃ pieces, text = [':'].intercalate pieces ∧ List.Forall₂ IsNumeral pieces values

private theorem map_numeral?_iff {pieces : List (List Char)} {values : List Binary64} :
    pieces.map numeral? = values.map some ↔ List.Forall₂ IsNumeral pieces values := by
  rw [← List.forall₂_eq_eq_eq, List.forall₂_map_left_iff, List.forall₂_map_right_iff]
  simp only [numeral?_eq_some_iff]

theorem parse_eq_ok_iff_reads {text : String} {seconds : Binary64} :
    parse text = .ok seconds ↔
      ∃ values, Reads (Text.trim text).toList values ∧ seconds = inSeconds values := by
  rw [parse_eq_ok_iff, parts_eq_splitOn]
  constructor
  · rintro ⟨hlength, values, hmap, hnonneg, rfl⟩
    refine ⟨values, ⟨?_, hnonneg, _, (List.intercalate_splitOn ':').symm, ?_⟩, rfl⟩
    · have hsame := congrArg List.length hmap
      rw [List.length_map, List.length_map] at hsame
      rwa [← hsame]
    · exact map_numeral?_iff.mp hmap
  · rintro ⟨values, ⟨hlength, hnonneg, pieces, htext, hpieces⟩, rfl⟩
    have hmap := map_numeral?_iff.mpr hpieces
    have hsame := hpieces.length_eq
    have hne : pieces ≠ [] := by
      rintro rfl
      rw [← hsame] at hlength
      exact absurd hlength (by decide)
    have hcolon : ∀ piece ∈ pieces, ':' ∉ piece := by
      intro piece hpiece hmem
      have hread := List.mem_map_of_mem (f := numeral?) hpiece
      rw [hmap] at hread
      obtain ⟨x, -, hx⟩ := List.mem_map.mp hread
      exact absurd ((numeral?_eq_some_iff.mp hx.symm).letters _ hmem) (by decide)
    rw [htext, List.splitOn_intercalate ':' hcolon hne]
    exact ⟨by rwa [hsame], values, hmap, hnonneg, rfl⟩

/-! ### Sums of parts -/

theorem value_sixty : (60 : Binary64).isFinite = true ∧ (60 : Binary64).value = 60 := by
  have hsixty := value_ofNat (n := 60) (by norm_num)
  rwa [Nat.cast_ofNat] at hsixty

private theorem eq_infinity_of_nonneg {x : Binary64} (h : 0 ≤ x) (hf : x.isFinite = false) :
    x = infinity false := by
  refine (eq_infinity (isNaN_of_le h).2 hf).resolve_left ?_
  rintro rfl
  exact absurd h (by decide +kernel)

private theorem mul_sixty_cases {x : Binary64} (h : 0 ≤ x) :
    x.isFinite = true ∧ (x * 60).Rounds (x.value * 60) ∨
      x.isFinite = false ∧ x * 60 = infinity false := by
  cases hf : x.isFinite with
  | true =>
    have hround := mul_rounds hf value_sixty.1
    rw [value_sixty.2] at hround
    exact .inl ⟨rfl, hround⟩
  | false =>
    rw [eq_infinity_of_nonneg h hf]
    exact .inr ⟨rfl, by decide +kernel⟩

private theorem add_cases_of_nonneg {x y : Binary64} (hx : 0 ≤ x) (hy : 0 ≤ y) :
    x.isFinite = true ∧ y.isFinite = true ∧ (x + y).Rounds (x.value + y.value) ∨
      (x.isFinite = false ∨ y.isFinite = false) ∧ x + y = infinity false := by
  cases hxf : x.isFinite with
  | true =>
    cases hyf : y.isFinite with
    | true => exact .inl ⟨rfl, rfl, add_rounds hxf hyf⟩
    | false =>
      have hsum := add_eq_self_of_infinite (isNaN_of_le hy).2 hyf hxf
      rw [eq_infinity_of_nonneg hy hyf] at hsum ⊢
      exact .inr ⟨.inr rfl, (add_comm _ _).trans hsum⟩
  | false =>
    refine .inr ⟨.inl rfl, ?_⟩
    rw [eq_infinity_of_nonneg hx hxf]
    cases hyf : y.isFinite with
    | true => exact add_eq_self_of_infinite rfl (isFinite_infinity false) hyf
    | false =>
      rw [eq_infinity_of_nonneg hy hyf]
      decide +kernel

private theorem infinity_nonneg : 0 ≤ infinity false := by decide +kernel

/-- Numbers that are not negative add up to one. -/
private theorem addPart_nonneg {total value : Binary64} (ht : 0 ≤ total) (hv : 0 ≤ value) :
    0 ≤ total * 60 + value := by
  have hproduct : 0 ≤ total * 60 := by
    rcases mul_sixty_cases ht with ⟨-, hround⟩ | ⟨-, heq⟩
    · exact hround.nonneg (mul_nonneg (nonneg_iff.mp ht).2 (by norm_num))
    · rw [heq]
      exact infinity_nonneg
  rcases add_cases_of_nonneg hproduct hv with ⟨-, -, hround⟩ | ⟨-, heq⟩
  · exact hround.nonneg (add_nonneg (nonneg_iff.mp hproduct).2 (nonneg_iff.mp hv).2)
  · rw [heq]
    exact infinity_nonneg

/-! ### Rounding errors -/

/-- The double stands for a number that is not negative. It is not negative either, infinite for
large numbers only, and otherwise off by at most `k` parts in `2 ^ 52` and a slack. -/
structure Near (k : ℕ) (slack : ℚ) (x : Binary64) (exact : ℚ) : Prop where
  exact_nonneg : 0 ≤ exact
  nonneg : 0 ≤ x
  large : x.isFinite = false → 2 ^ 1022 ≤ exact
  near : x.isFinite = true → |x.value - exact| ≤ k * (exact / 2 ^ 52) + slack

private theorem half_unit_nonneg : (0 : ℚ) ≤ 1 / 2 / unitsPerOne :=
  div_nonneg (by norm_num) (Nat.cast_nonneg _)

/-- Rounding next to an exact number costs one part, and half a unit unless the number is zero or at
least one. -/
private theorem abs_value_sub_le {exact inter extra : ℚ} {x : Binary64} (h : x.Rounds inter)
    (hx : x.isFinite = true) (he : 0 ≤ exact) (hi : 0 ≤ inter)
    (hnear : |inter - exact| ≤ 8 * (exact / 2 ^ 52) + extra)
    (hextra : extra = 0 ∧ (exact = 0 ∨ 1 ≤ exact) ∨ extra = 1 / 2 / unitsPerOne) :
    |x.value - inter| ≤ exact / 2 ^ 52 + extra := by
  obtain ⟨hlow, hhigh⟩ := abs_le.mp hnear
  rcases hextra with ⟨rfl, rfl | hone⟩ | rfl
  · have hzero : inter = 0 := le_antisymm (by linarith) hi
    rw [hzero, ← value_zero] at h
    rw [hzero, (h.eq_value isFinite_zero).2, value_zero]
    norm_num
  · have hnormal : 1 / 2 ^ 1022 ≤ |inter| := by
      have hleast : (1 : ℚ) / 2 ^ 1022 ≤ 1 / 2 :=
        one_div_le_one_div_of_le two_pos (le_self_pow₀ one_le_two (by decide))
      rw [abs_of_nonneg hi]
      generalize (1 : ℚ) / 2 ^ 1022 = least at hleast
      linarith
    have hrelative := h.near_of_large hx hnormal
    rw [abs_of_nonneg hi] at hrelative
    linarith
  · have hunit := half_unit_nonneg
    rcases h.near hx with hrelative | hle
    · rw [abs_of_nonneg hi] at hrelative
      linarith
    · have hpart : 0 ≤ exact / 2 ^ 52 := div_nonneg he (by norm_num)
      linarith

/-- What is next to a number below `2 ^ 1022` is rounded to a finite double. -/
private theorem isFinite_of_near {exact inter : ℚ} {x : Binary64} (h : x.Rounds inter)
    (hi : 0 ≤ inter) (hnear : |inter - exact| ≤ 8 * (exact / 2 ^ 52) + 1)
    (hlt : exact < 2 ^ 1022) : x.isFinite = true := by
  have hpower : (2 : ℚ) ^ 1023 = 2 ^ 1022 * 2 := pow_succ 2 1022
  have htwo : (2 : ℚ) ^ 2 ≤ 2 ^ 1022 := pow_le_pow_right₀ one_le_two (by decide)
  have hhigh := (abs_le.mp hnear).2
  refine h.isFinite_of_le ?_
  rw [abs_of_nonneg hi, hpower]
  generalize (2 : ℚ) ^ 1022 = big at hlt htwo
  linarith

/-- One more rounding costs one more part, and half a unit unless the number is zero or at least
one. -/
theorem Near.of_rounds {k : ℕ} {slack extra exact inter : ℚ} {x : Binary64} (h : x.Rounds inter)
    (hk : k ≤ 8) (he : 0 ≤ exact) (hi : 0 ≤ inter)
    (hnear : |inter - exact| ≤ k * (exact / 2 ^ 52) + slack) (hle : slack ≤ extra)
    (hextra : extra = 0 ∧ (exact = 0 ∨ 1 ≤ exact) ∨ extra = 1 / 2 / unitsPerOne) :
    Near (k + 1) (slack + extra) x exact := by
  have hparts : k * (exact / 2 ^ 52) ≤ 8 * (exact / 2 ^ 52) :=
    mul_le_mul_of_nonneg_right (by exact_mod_cast hk) (div_nonneg he (by norm_num))
  have hsmall : extra ≤ 1 := by
    rcases hextra with ⟨rfl, -⟩ | rfl
    · exact zero_le_one
    · have hone : (1 : ℚ) ≤ unitsPerOne := Nat.one_le_cast.mpr unitsPerOne_pos
      exact div_le_one_of_le₀ (by linarith) (by linarith)
  refine ⟨he, h.nonneg hi, fun hinfinite ↦ ?_, fun hfinite ↦ ?_⟩
  · by_contra hlt
    rw [isFinite_of_near h hi (by linarith) (not_le.mp hlt)] at hinfinite
    contradiction
  · have hround := abs_value_sub_le h hfinite he hi (by linarith) hextra
    have htriangle := abs_sub_le x.value inter exact
    push_cast
    linarith

private theorem Near.of_infinite {k : ℕ} {slack exact : ℚ} (h : 2 ^ 1022 ≤ exact) :
    Near k slack (infinity false) exact where
  exact_nonneg := (pow_nonneg zero_le_two 1022).trans h
  nonneg := infinity_nonneg
  large := fun _ ↦ h
  near := fun hfinite ↦ by rw [isFinite_infinity] at hfinite; contradiction

private theorem Near.mul_sixty {k : ℕ} {exact : ℚ} {total : Binary64} (h : Near k 0 total exact)
    (hk : k ≤ 8) (hwhole : exact = 0 ∨ 1 ≤ exact) : Near (k + 1) 0 (total * 60) (exact * 60) := by
  have he := h.exact_nonneg
  rcases mul_sixty_cases h.nonneg with ⟨hfinite, hround⟩ | ⟨hinfinite, heq⟩
  · have hscaled : |total.value * 60 - exact * 60| ≤ k * (exact * 60 / 2 ^ 52) + 0 := by
      have hnear := h.near hfinite
      rw [← sub_mul, abs_mul, abs_of_pos (by norm_num : (0 : ℚ) < 60)]
      linarith
    have hnonneg := mul_nonneg (nonneg_iff.mp h.nonneg).2 (by norm_num : (0 : ℚ) ≤ 60)
    have hproduct := Near.of_rounds hround hk (by linarith) hnonneg hscaled le_rfl
      (.inl ⟨rfl, hwhole.imp (fun hzero ↦ by rw [hzero, zero_mul]) fun hone ↦ by linarith⟩)
    rwa [add_zero] at hproduct
  · rw [heq]
    exact .of_infinite ((h.large hinfinite).trans (le_mul_of_one_le_right he (by norm_num)))

/-- A part costs two more roundings. -/
private theorem Near.add_part {k : ℕ} {slack extra exact part : ℚ} {total value : Binary64}
    (ht : Near k 0 total exact) (hk : k ≤ 6) (hwhole : exact = 0 ∨ 1 ≤ exact)
    (hv : Near 1 slack value part) (hle : slack ≤ extra)
    (hextra : extra = 0 ∧ (part = 0 ∨ 1 ≤ part) ∨ extra = 1 / 2 / unitsPerOne) :
    Near (k + 2) (slack + extra) (total * 60 + value) (exact * 60 + part) := by
  have hproduct := ht.mul_sixty (by omega) hwhole
  have he := hproduct.exact_nonneg
  have hp := hv.exact_nonneg
  rcases add_cases_of_nonneg hproduct.nonneg hv.nonneg with ⟨hpf, hvf, hround⟩ | ⟨hinfinite, heq⟩
  · have hsum : |(total * 60).value + value.value - (exact * 60 + part)| ≤
        (k + 1 : ℕ) * ((exact * 60 + part) / 2 ^ 52) + slack := by
      have hmore : (1 : ℚ) * (part / 2 ^ 52) ≤ (k + 1 : ℕ) * (part / 2 ^ 52) :=
        mul_le_mul_of_nonneg_right (by exact_mod_cast Nat.le_add_left 1 k)
          (div_nonneg hp (by norm_num))
      have hproductNear := hproduct.near hpf
      have hvalueNear := hv.near hvf
      rw [Nat.cast_one] at hvalueNear
      rw [add_sub_add_comm]
      refine (abs_add_le _ _).trans ?_
      rw [add_div, mul_add]
      linarith
    refine .of_rounds hround (by omega) (by linarith) ?_ hsum hle (hextra.imp_left ?_)
    · exact add_nonneg (nonneg_iff.mp hproduct.nonneg).2 (nonneg_iff.mp hv.nonneg).2
    · rintro ⟨hzero, hpart⟩
      refine ⟨hzero, ?_⟩
      rcases hwhole with rfl | hone
      · rwa [zero_mul, zero_add]
      · exact .inr (by linarith)
  · rw [heq]
    refine .of_infinite (hinfinite.elim (fun h ↦ ?_) fun h ↦ ?_)
    · exact (hproduct.large h).trans (by linarith)
    · exact (hv.large h).trans (by linarith)

/-! ### The documented notation -/

/-- A timestamp as documented, and the number of seconds: seconds that may have a fraction, and in
front of them minutes, or hours and minutes. -/
inductive Spells : List Char → ℚ → Prop where
  | seconds {s : List Char} {number : ℚ} (hs : unsignedValue? s = some number) : Spells s number
  | minutes {m s : List Char} {number : ℚ} (hm : IsDigits m) (hs : unsignedValue? s = some number) :
      Spells (m ++ ':' :: s) (Nat.ofDigitChars 10 m 0 * 60 + number)
  | hours {h m s : List Char} {number : ℚ} (hh : IsDigits h) (hm : IsDigits m)
      (hs : unsignedValue? s = some number) :
      Spells (h ++ ':' :: (m ++ ':' :: s))
        (Nat.ofDigitChars 10 h 0 * 3600 + Nat.ofDigitChars 10 m 0 * 60 + number)

/-- The double is a number of seconds up to rounding: not negative, finite unless the number is out
of range, and off by at most eight parts in `2 ^ 52`, or one unit. -/
structure Approximates (seconds : Binary64) (exact : ℚ) : Prop where
  nonneg : 0 ≤ seconds
  finite : exact < 2 ^ 1022 → seconds.isFinite = true
  near : seconds.isFinite = true → |seconds.value - exact| ≤ exact / 2 ^ 49 + 1 / unitsPerOne

/-- Digits are read as a number that is zero or at least one. -/
private theorem exists_near_digits {digits : List Char} (hd : IsDigits digits) :
    ∃ x, IsNumeral digits x ∧ Near 1 0 x (Nat.ofDigitChars 10 digits 0 : ℕ) ∧
      ((Nat.ofDigitChars 10 digits 0 : ℚ) = 0 ∨ (1 : ℚ) ≤ Nat.ofDigitChars 10 digits 0) := by
  obtain ⟨x, hx, hround⟩ := numeral?_digits hd
  generalize Nat.ofDigitChars 10 digits 0 = number at hround
  have hwhole : (number : ℚ) = 0 ∨ (1 : ℚ) ≤ number := by
    rcases Nat.eq_zero_or_pos number with rfl | hpos
    · exact .inl Nat.cast_zero
    · exact .inr (Nat.one_le_cast.mpr hpos)
  have hnear : Near (0 + 1) (0 + 0) x number := .of_rounds hround (by decide) number.cast_nonneg
    number.cast_nonneg (by norm_num) le_rfl (.inl ⟨rfl, hwhole⟩)
  rw [add_zero] at hnear
  exact ⟨x, numeral?_eq_some_iff.mp hx, hnear, hwhole⟩

private theorem exists_near_unsigned {text : List Char} {number : ℚ}
    (h : unsignedValue? text = some number) :
    ∃ x, IsNumeral text x ∧ Near 1 (1 / 2 / unitsPerOne) x number := by
  obtain ⟨x, hx, hround⟩ := numeral?_of_unsignedValue? h
  have hnonneg := unsignedValue?_nonneg h
  have hnear : Near (0 + 1) (0 + 1 / 2 / unitsPerOne) x number :=
    .of_rounds hround (by decide) hnonneg hnonneg (by norm_num) half_unit_nonneg (.inr rfl)
  rw [zero_add, zero_add] at hnear
  exact ⟨x, numeral?_eq_some_iff.mp hx, hnear⟩

private theorem Near.not_lt {k : ℕ} {slack exact : ℚ} {x : Binary64} (h : Near k slack x exact) :
    ¬ x < 0 :=
  fun hlt ↦ not_le_of_lt hlt h.nonneg

private theorem Near.approximates {k : ℕ} {exact : ℚ} {x : Binary64}
    (h : Near k (1 / 2 / unitsPerOne + 1 / 2 / unitsPerOne) x exact) (hk : k ≤ 8) :
    Approximates x exact where
  nonneg := h.nonneg
  finite := by
    intro hlt
    by_contra hinfinite
    exact absurd (h.large (Bool.eq_false_iff.mpr hinfinite)) (not_le.mpr hlt)
  near := by
    intro hfinite
    have hparts : (k : ℚ) * (exact / 2 ^ 52) ≤ 8 * (exact / 2 ^ 52) :=
      mul_le_mul_of_nonneg_right (by exact_mod_cast hk) (div_nonneg h.exact_nonneg (by norm_num))
    have hhalves : (1 / 2 / unitsPerOne + 1 / 2 / unitsPerOne : ℚ) = 1 / unitsPerOne := by ring
    have hnear := h.near hfinite
    rw [hhalves] at hnear
    linarith

private theorem near_zero : Near 0 0 0 0 where
  exact_nonneg := le_rfl
  nonneg := Binary64.le_refl isNaN_zero
  large := fun h ↦ by rw [isFinite_zero] at h; contradiction
  near := fun _ ↦ by rw [value_zero]; norm_num

/-- Seconds behind a number of minutes. -/
private theorem Near.add_seconds {k : ℕ} {exact : ℚ} {total : Binary64} {s : List Char} {number : ℚ}
    (ht : Near k 0 total exact) (hk : k ≤ 6) (hwhole : exact = 0 ∨ 1 ≤ exact)
    (hs : unsignedValue? s = some number) :
    ∃ value, IsNumeral s value ∧ ¬ value < 0 ∧
      Approximates (total * 60 + value) (exact * 60 + number) := by
  obtain ⟨value, hvalue, hnear⟩ := exists_near_unsigned hs
  have hsum := ht.add_part hk hwhole hnear le_rfl (.inr rfl)
  exact ⟨value, hvalue, hnear.not_lt, hsum.approximates (by omega)⟩

/-- A part of digits behind a number of larger units. -/
private theorem Near.add_digits {k : ℕ} {exact : ℚ} {total : Binary64} {digits : List Char}
    (ht : Near k 0 total exact) (hk : k ≤ 6) (hwhole : exact = 0 ∨ 1 ≤ exact)
    (hd : IsDigits digits) :
    ∃ value, IsNumeral digits value ∧ ¬ value < 0 ∧
      Near (k + 2) 0 (total * 60 + value) (exact * 60 + Nat.ofDigitChars 10 digits 0) ∧
        (exact * 60 + Nat.ofDigitChars 10 digits 0 = 0 ∨
          1 ≤ exact * 60 + Nat.ofDigitChars 10 digits 0) := by
  obtain ⟨value, hvalue, hnear, hpart⟩ := exists_near_digits hd
  have hsum := ht.add_part hk hwhole hnear le_rfl (.inl ⟨rfl, hpart⟩)
  rw [add_zero] at hsum
  refine ⟨value, hvalue, hnear.not_lt, hsum, ?_⟩
  rcases hwhole with rfl | hone
  · rwa [zero_mul, zero_add]
  · exact .inr (by linarith [hnear.exact_nonneg])

/-- What is documented is read, as the number of seconds up to rounding. -/
private theorem Spells.reads {text : List Char} {exact : ℚ} (h : Spells text exact) :
    ∃ values, Reads text values ∧ Approximates (inSeconds values) exact := by
  cases h with
  | seconds hs =>
    obtain ⟨z, hz, hznonneg, hsum⟩ := near_zero.add_seconds (by decide) (.inl rfl) hs
    rw [zero_mul, zero_add] at hsum
    exact ⟨[z], ⟨by simp, by simpa using hznonneg, [text], by simp [List.intercalate],
      .cons hz .nil⟩, hsum⟩
  | @minutes m s number hm hs =>
    obtain ⟨y, hy, hynonneg, hminutes, hwhole⟩ := near_zero.add_digits (by decide) (.inl rfl) hm
    obtain ⟨z, hz, hznonneg, hsum⟩ := hminutes.add_seconds (by decide) hwhole hs
    rw [zero_mul, zero_add] at hsum
    exact ⟨[y, z], ⟨by simp, by simp [hynonneg, hznonneg], [m, s], by simp [List.intercalate],
      .cons hy (.cons hz .nil)⟩, hsum⟩
  | @hours h m s number hh hm hs =>
    obtain ⟨x, hx, hxnonneg, hhours, hwhole⟩ := near_zero.add_digits (by decide) (.inl rfl) hh
    obtain ⟨y, hy, hynonneg, hminutes, hwhole⟩ := hhours.add_digits (by decide) hwhole hm
    obtain ⟨z, hz, hznonneg, hsum⟩ := hminutes.add_seconds (by decide) hwhole hs
    have hexact : ((0 * 60 + (Nat.ofDigitChars 10 h 0 : ℚ)) * 60 + Nat.ofDigitChars 10 m 0) * 60 +
        number = Nat.ofDigitChars 10 h 0 * 3600 + Nat.ofDigitChars 10 m 0 * 60 + number := by ring
    rw [hexact] at hsum
    exact ⟨[x, y, z], ⟨by simp, by simp [hxnonneg, hynonneg, hznonneg], [h, m, s],
      by simp [List.intercalate], .cons hx (.cons hy (.cons hz .nil))⟩, hsum⟩

/-- Seconds are a number unless a part is none. -/
private theorem inSeconds_nonneg_iff {values : List Binary64} (h : ∀ value ∈ values, ¬ value < 0) :
    0 ≤ inSeconds values ↔ nan ∉ values := by
  have hnan : ∀ values : List Binary64,
      values.foldl (fun total value ↦ total * 60 + value) nan = nan := by
    intro values
    induction values with
    | nil => rfl
    | cons value values ih => exact ih
  suffices hfold : ∀ total : Binary64, 0 ≤ total →
      (0 ≤ values.foldl (fun total value ↦ total * 60 + value) total ↔ nan ∉ values) from
    hfold 0 near_zero.nonneg
  induction values with
  | nil => exact fun total ht ↦ ⟨fun _ ↦ List.not_mem_nil, fun _ ↦ ht⟩
  | cons value values ih =>
    intro total ht
    obtain ⟨hv, hvalues⟩ := List.forall_mem_cons.mp h
    rw [List.foldl_cons, List.mem_cons, not_or]
    cases hnumber : value.isNaN with
    | true =>
      cases value with
      | signed => cases hnumber
      | nan =>
        have hsum : total * 60 + nan = nan := by cases total * 60 <;> rfl
        rw [hsum, hnan]
        exact ⟨fun hle ↦ absurd (isNaN_of_le hle).2 (by decide), fun hne ↦ absurd rfl hne.1⟩
    | false =>
      have hne : nan ≠ value := by rintro rfl; cases hnumber
      have hle := le_of_not_lt hnumber isNaN_zero hv
      rw [ih hvalues _ (addPart_nonneg ht hle)]
      exact ⟨fun hmem ↦ ⟨hne, hmem⟩, And.right⟩

/-- The documentation holds of a text: it is accepted if it is as documented, and then as the number
of seconds up to rounding. -/
structure KeepsGrammar (text : String) : Prop where
  accepts : (∃ seconds, parse text = .ok seconds) ↔
    ∃ exact, Spells (Text.trim text).toList exact
  value : ∀ seconds, parse text = .ok seconds →
    ∃ exact, Spells (Text.trim text).toList exact ∧ Approximates seconds exact

/-- All texts are read whose parts are numerals not below zero, as a number unless a part is none.
The documentation holds of those that are documented and of those that are not read. -/
theorem keepsGrammar_iff (text : String) :
    (∀ seconds, parse text = .ok seconds ↔
      ∃ values, Reads (Text.trim text).toList values ∧ seconds = inSeconds values) ∧
    (∀ values, Reads (Text.trim text).toList values →
      (0 ≤ inSeconds values ↔ nan ∉ values)) ∧
    (KeepsGrammar text ↔
      ((∃ values, Reads (Text.trim text).toList values) →
        ∃ exact, Spells (Text.trim text).toList exact)) := by
  refine ⟨fun _ ↦ parse_eq_ok_iff_reads, fun values h ↦ inSeconds_nonneg_iff h.2.1, ?_⟩
  constructor
  · rintro h ⟨values, hreads⟩
    exact h.accepts.mp ⟨_, parse_eq_ok_iff_reads.mpr ⟨values, hreads, rfl⟩⟩
  · intro h
    have hvalue : ∀ seconds, parse text = .ok seconds →
        ∃ exact, Spells (Text.trim text).toList exact ∧ Approximates seconds exact := by
      intro seconds hparse
      obtain ⟨values, hreads, -⟩ := parse_eq_ok_iff_reads.mp hparse
      obtain ⟨exact, hspells⟩ := h ⟨values, hreads⟩
      obtain ⟨values, hreads, hnear⟩ := hspells.reads
      have hsame := hparse.symm.trans (parse_eq_ok_iff_reads.mpr ⟨values, hreads, rfl⟩)
      rw [← Except.ok.inj hsame] at hnear
      exact ⟨exact, hspells, hnear⟩
    refine ⟨⟨?_, ?_⟩, hvalue⟩
    · rintro ⟨seconds, hparse⟩
      exact (hvalue seconds hparse).imp fun _ ↦ And.left
    · rintro ⟨exact, hspells⟩
      obtain ⟨values, hreads, -⟩ := hspells.reads
      exact ⟨_, parse_eq_ok_iff_reads.mpr ⟨values, hreads, rfl⟩⟩

example : parse "01:30:00" = .ok 5400 ∧ parse "+1.5:.5e1" = .ok 95 := by decide +kernel

/-- The word is not documented, but it is read, and the seconds are no number. -/
theorem not_keepsGrammar_nan : parse "nan" = .ok nan ∧ ¬ KeepsGrammar "nan" := by
  have hparse : parse "nan" = .ok nan := by decide +kernel
  refine ⟨hparse, fun h ↦ ?_⟩
  obtain ⟨exact, -, hvalue⟩ := h.value nan hparse
  exact absurd (isNaN_of_le hvalue.nonneg).2 (by decide)

end Montage.Timestamp
