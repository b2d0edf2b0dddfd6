import Montage.Proofs.Numeric.Monotone
import Montage.Transition

/-!
# Blends at boundaries

The length of a blend is brought into the bounds that the longest blend and the neighboring clips
set, for every wish and all neighbors. A blend is shorter than the clip before its boundary, so it
begins inside that clip.
-/

namespace Montage.Transition

open Montage.Numeric Binary64

private theorem isFinite_longest : longest.isFinite = true := by
  decide +kernel

/-- The wish for a blend, brought into the range from zero to the longest blend. -/
def wanted (requested : Binary64) : Binary64 :=
  if !requested.isFinite then 0
  else if requested < 0 then 0
  else if longest < requested then longest
  else requested

/-- The greatest length that the neighbors of a boundary allow: half of the shorter one. -/
def allowed (left right : Binary64) : Binary64 := (left.min right / 2).max 0

theorem clampDuration_eq (requested left right : Binary64) :
    clampDuration requested left right = (wanted requested).min (allowed left right) := rfl

/-- The wish is brought to a finite length from zero to the longest blend. -/
private theorem wanted_bounds (requested : Binary64) :
    (wanted requested).isFinite = true ∧ 0 ≤ wanted requested ∧ wanted requested ≤ longest := by
  have hlongest : longest.isNaN = false := isNaN_of_isFinite isFinite_longest
  have horder : (0 : Binary64) ≤ longest := by decide +kernel
  unfold wanted
  cases hf : requested.isFinite with
  | false => exact ⟨isFinite_zero, Binary64.le_refl isNaN_zero, horder⟩
  | true =>
    have hnumber := isNaN_of_isFinite hf
    by_cases hn : requested < 0
    · simp only [Bool.not_true, Bool.false_eq_true, if_false, if_pos hn]
      exact ⟨isFinite_zero, Binary64.le_refl isNaN_zero, horder⟩
    · by_cases hl : longest < requested
      · simp only [Bool.not_true, Bool.false_eq_true, if_false, if_neg hn, if_pos hl]
        exact ⟨isFinite_longest, horder, Binary64.le_refl hlongest⟩
      · simp only [Bool.not_true, Bool.false_eq_true, if_false, if_neg hn, if_neg hl]
        exact ⟨hf, le_of_not_lt hnumber isNaN_zero hn, le_of_not_lt hlongest hnumber hl⟩

/-- A finite wish within the range stays as it is. -/
private theorem wanted_eq_self {requested : Binary64} (hf : requested.isFinite = true)
    (hlow : 0 ≤ requested) (hhigh : requested ≤ longest) : wanted requested = requested := by
  have hn : ¬ requested < 0 := fun h ↦ not_le_of_lt h hlow
  have hl : ¬ longest < requested := fun h ↦ not_le_of_lt h hhigh
  simp only [wanted, hf, Bool.not_true, Bool.false_eq_true, if_false, if_neg hn, if_neg hl]

private theorem isNaN_allowed (left right : Binary64) : (allowed left right).isNaN = false :=
  isNaN_max_zero _

/-- What is allowed is the half of a neighbor, and not above that of the other one. -/
private theorem allowed_le {left right : Binary64} :
    (left.isNaN = false → allowed left right ≤ (left / 2).max 0) ∧
      (right.isNaN = false → allowed left right ≤ (right / 2).max 0) :=
  ⟨fun h ↦ max_zero_le_max_zero (half_le_half (min_le_left h)),
    fun h ↦ max_zero_le_max_zero (half_le_half (min_le_right h))⟩

private theorem le_allowed {x left right : Binary64} (h : left.isNaN = false ∨ right.isNaN = false)
    (hl : left.isNaN = false → x ≤ (left / 2).max 0)
    (hr : right.isNaN = false → x ≤ (right / 2).max 0) : x ≤ allowed left right := by
  unfold allowed
  rcases min_eq_or h with ⟨hmin, hn⟩ | ⟨hmin, hn⟩
  · rw [hmin]
    exact hl hn
  · rw [hmin]
    exact hr hn

/-- The bounds of a blend, and that a wish which is within them is granted. -/
structure Clamped (requested left right duration : Binary64) : Prop where
  nonneg : 0 ≤ duration
  le_longest : duration ≤ 2
  le_left : left.isNaN = false → duration ≤ (left / 2).max 0
  le_right : right.isNaN = false → duration ≤ (right / 2).max 0
  /-- Equality is that of numbers: a wish of negative zero may be granted as zero. -/
  granted : left.isNaN = false ∨ right.isNaN = false → requested.isFinite = true →
    0 ≤ requested → requested ≤ 2 → (left.isNaN = false → requested ≤ (left / 2).max 0) →
    (right.isNaN = false → requested ≤ (right / 2).max 0) → duration.same requested = true

/-- A length within its bounds is finite. -/
theorem Clamped.isFinite {requested left right duration : Binary64}
    (h : Clamped requested left right duration) : duration.isFinite = true := by
  rcases infinite_or_finite_of_le h.nonneg with hzero | rfl | ⟨-, hfinite⟩
  · exact absurd hzero (by decide +kernel)
  · exact absurd h.le_longest (by decide +kernel)
  · exact hfinite

/-- Whatever is requested and whatever the lengths of the neighbors, not-a-number and infinities
among them, the length of a blend is within its bounds. -/
theorem clamped_clampDuration (requested left right : Binary64) :
    Clamped requested left right (clampDuration requested left right) := by
  obtain ⟨hfinite, hlow, hhigh⟩ := wanted_bounds requested
  have hwanted := isNaN_of_isFinite hfinite
  have hallowed := isNaN_allowed left right
  rw [clampDuration_eq]
  have hle : (wanted requested).min (allowed left right) ≤ allowed left right :=
    min_le_right hallowed
  constructor
  · rcases min_eq_or (y := allowed left right) (.inl hwanted) with ⟨h, -⟩ | ⟨h, -⟩
    · rwa [h]
    · rw [h]
      exact max_zero_nonneg _
  · exact le_trans (min_le_left hwanted) hhigh
  · exact fun hl ↦ le_trans hle (allowed_le.1 hl)
  · exact fun hr ↦ le_trans hle (allowed_le.2 hr)
  · intro hn hf h0 h2 hl hr
    have hfit : requested ≤ allowed left right := le_allowed hn hl hr
    rw [wanted_eq_self hf h0 h2] at hle ⊢
    have hnumber := isNaN_of_isFinite hf
    rcases min_eq_or (y := allowed left right) (.inl hnumber) with ⟨h, -⟩ | ⟨h, -⟩
    · rw [h]
      exact same_iff.mpr ⟨Binary64.le_refl hnumber, Binary64.le_refl hnumber⟩
    · have hback : allowed left right ≤ requested := by
        rw [← h]
        exact min_le_left hnumber
      rw [h]
      exact same_iff.mpr ⟨hback, hfit⟩

/-- A blend is shorter than the clip before the boundary. -/
theorem clampDuration_lt {requested left right : Binary64} (hl : left.isNaN = false)
    (h : ¬ clampDuration requested left right ≤ 0) :
    clampDuration requested left right < left ∧
      (clampDuration requested left right).isFinite = true := by
  obtain ⟨w, hw, hwinf⟩ := exists_signedPlace?_of_isFinite (wanted_bounds requested).1
  obtain ⟨a, ha⟩ := isNaN_eq_false_iff.mp hl
  obtain ⟨m, hm, hma⟩ := exists_signedPlace?_min ha right
  obtain ⟨b, hb, hhalf⟩ := exists_signedPlace?_half hm
  have hlength : (clampDuration requested left right).signedPlace? = some (min w (max b 0)) := by
    rw [clampDuration_eq]
    exact signedPlace?_min hw (signedPlace?_max hb signedPlace?_zero)
  have hpos : 0 < min w (max b 0) := by
    rw [le_iff] at h
    apply Int.not_le.mp
    intro hle
    exact h ⟨_, _, hlength, signedPlace?_zero, hle⟩
  have hbelow : min w (max b 0) < a := by
    rcases hhalf (by omega) with hlt | hinf <;> omega
  exact ⟨lt_iff.mpr ⟨_, _, hlength, ha, hbelow⟩,
    isFinite_of_signedPlace? hlength hpos (by omega)⟩

/-- Between clips without a length there is no blend. -/
theorem clampDuration_le_zero {requested left right : Binary64} (hl : left.isNaN = true)
    (hr : right.isNaN = true) : clampDuration requested left right ≤ 0 := by
  obtain ⟨w, hw, -⟩ := exists_signedPlace?_of_isFinite (wanted_bounds requested).1
  obtain rfl : left = nan := by
    cases left with
    | nan => rfl
    | signed => cases hl
  obtain rfl : right = nan := by
    cases right with
    | nan => rfl
    | signed => cases hr
  have hlimit : (allowed nan nan).signedPlace? = some 0 := signedPlace?_zero
  rw [clampDuration_eq]
  exact le_iff.mpr ⟨_, _, signedPlace?_min hw hlimit, signedPlace?_zero, Int.min_le_right w 0⟩

/-- A blend begins inside the clip before the boundary. -/
theorem units_offset_pos {requested left right : Binary64}
    (hn : left.isNaN = true → right.isNaN = true)
    (h : ¬ clampDuration requested left right ≤ 0) :
    0 < (left - clampDuration requested left right).units := by
  have hl : left.isNaN = false := by
    rw [Bool.eq_false_iff]
    exact fun hnan ↦ h (clampDuration_le_zero hnan (hn hnan))
  obtain ⟨hlt, hfinite⟩ := clampDuration_lt hl h
  exact units_sub_pos hlt hfinite

end Montage.Transition
