import Montage.Proofs.Compile.SplitLayout
import Montage.Proofs.Numeric.Monotone

/-!
# The shorter source of a split screen

A split screen ends with its shorter source, and only the lesser of both lengths is checked. The
lesser of a number and of what is no number is the number. So a source whose length is no number is
passed over: beside a source with a length it is accepted, and the split screen lasts as long as
the other one.
-/

namespace Montage

open Montage.Graph (Program)
open Montage.Numeric (Binary64)

/-! ### The lesser of two lengths -/

namespace Composition

variable {x y : Binary64}

/-- What is above zero and not above a finite double is a length. -/
private theorem isPositive_of_le (hpos : 0 < x) (hle : x ≤ y) (hy : y.isFinite = true) :
    isPositive x = true := by
  apply isPositive_iff.mpr ⟨?_, hpos⟩
  rcases Binary64.infinite_or_finite_of_le hle with rfl | rfl | ⟨hx, -⟩
  · obtain ⟨place, he, -⟩ := Binary64.exists_positive hpos
    cases he
  · rw [Binary64.isFinite_infinity] at hy
    contradiction
  · exact hx

/-- Two doubles of which the lesser is a length are above zero, as far as they are numbers. -/
private theorem pos_of_isPositive_min (h : isPositive (x.min y) = true) :
    (x.isNaN = false → 0 < x) ∧ (y.isNaN = false → 0 < y) := by
  have hpos := (isPositive_iff.mp h).2
  constructor
  · intro hx
    exact Binary64.lt_of_lt_of_le hpos (Binary64.min_le_left hx)
  · intro hy
    exact Binary64.lt_of_lt_of_le hpos (Binary64.min_le_right hy)

/-- The lesser of two doubles is a number only if one of them is. -/
private theorem isNaN_or_of_min (h : (x.min y).isNaN = false) :
    x.isNaN = false ∨ y.isNaN = false := by
  cases hx : x.isNaN with
  | false => exact Or.inl rfl
  | true =>
    rw [Binary64.min, if_pos hx] at h
    exact Or.inr h

/-- The lesser of two doubles is a length exactly if one of them is a length, and the other one is
above zero or no number. -/
theorem isPositive_min_iff : isPositive (x.min y) = true ↔
    (isPositive x = true ∨ isPositive y = true) ∧ (x.isNaN = false → 0 < x) ∧
      (y.isNaN = false → 0 < y) := by
  constructor
  · intro h
    refine ⟨?_, pos_of_isPositive_min h⟩
    rcases Binary64.min_eq_or (isNaN_or_of_min (isNaN_of_isPositive h)) with ⟨he, -⟩ | ⟨he, -⟩
    · exact Or.inl (he ▸ h)
    · exact Or.inr (he ▸ h)
  · rintro ⟨hone, hx, hy⟩
    have hpos : 0 < x.min y := by
      have hnumber := hone.imp isNaN_of_isPositive isNaN_of_isPositive
      rcases Binary64.min_eq_or hnumber with ⟨he, hn⟩ | ⟨he, hn⟩
      · rw [he]
        exact hx hn
      · rw [he]
        exact hy hn
    rcases hone with h | h
    · have hle := Binary64.min_le_left (y := y) (isNaN_of_isPositive h)
      exact isPositive_of_le hpos hle (isPositive_iff.mp h).1
    · have hle := Binary64.min_le_right (x := x) (isNaN_of_isPositive h)
      exact isPositive_of_le hpos hle (isPositive_iff.mp h).1

end Composition

/-! ### Split screens and their sources -/

namespace SplitScreen

variable {screen : SplitScreen} {primary secondary : SourceInfo} {program : Program}

/-- Both sources have a length, and the program lasts as long as the shorter one. -/
structure EndsWithShorter (primary secondary : SourceInfo) (program : Program) : Prop where
  primary_pos : 0 < primary.duration
  secondary_pos : 0 < secondary.duration
  primary_number : primary.duration.isNaN = false
  secondary_number : secondary.duration.isNaN = false
  le_primary : program.totalDuration ≤ primary.duration
  le_secondary : program.totalDuration ≤ secondary.duration
  eq_or : program.totalDuration = primary.duration ∨ program.totalDuration = secondary.duration

/-- A program lasts as long as the lesser of both lengths, and that is a length. -/
theorem totalDuration_of_compile (h : screen.compile primary secondary = .ok program) :
    program.totalDuration = primary.duration.min secondary.duration ∧
      Composition.isPositive (primary.duration.min secondary.duration) = true := by
  cases hp : Composition.isPositive (primary.duration.min secondary.duration) with
  | true =>
    rcases screen.compile_eq_or primary secondary with ⟨_, -, he⟩ | ⟨-, he | ⟨_, -, he⟩⟩
    · cases h.symm.trans he
    · cases h.symm.trans he
    · cases h.symm.trans he
      exact ⟨rfl, rfl⟩
  | false =>
    rcases screen.compile_eq_or primary secondary with ⟨_, -, he⟩ | ⟨ha, -⟩
    · cases h.symm.trans he
    · cases h.symm.trans (ha.compile_eq_failure hp)

theorem exists_compile_eq_ok_iff : (∃ program, screen.compile primary secondary = .ok program) ↔
    screen.check = .ok () ∧
      Composition.isPositive (primary.duration.min secondary.duration) = true := by
  constructor
  · rintro ⟨program, h⟩
    refine ⟨?_, (totalDuration_of_compile h).2⟩
    rcases screen.compile_eq_or primary secondary with ⟨_, -, he⟩ | ⟨ha, -⟩
    · cases h.symm.trans he
    · exact (check_eq_ok_iff screen).mpr ha
  · rintro ⟨hc, hp⟩
    obtain ⟨background, -, h⟩ := ((check_eq_ok_iff screen).mp hc).compile_eq_ok hp
    exact ⟨_, h⟩

/-- A split screen that passes its check compiles exactly if one of its sources has a length and
the length of the other one is above zero or no number. The program ends with the shorter of two
sources that have a length exactly if both lengths are numbers. -/
theorem compile_endsWithShorter_iff (screen : SplitScreen) (primary secondary : SourceInfo) :
    ((∃ program, screen.compile primary secondary = .ok program) ↔ screen.check = .ok () ∧
      (Composition.isPositive primary.duration = true ∨
        Composition.isPositive secondary.duration = true) ∧
      (primary.duration.isNaN = false → 0 < primary.duration) ∧
      (secondary.duration.isNaN = false → 0 < secondary.duration)) ∧
    ∀ program, screen.compile primary secondary = .ok program →
      (EndsWithShorter primary secondary program ↔
        primary.duration.isNaN = false ∧ secondary.duration.isNaN = false) := by
  constructor
  · rw [exists_compile_eq_ok_iff, Composition.isPositive_min_iff]
  · intro program h
    obtain ⟨htotal, hmin⟩ := totalDuration_of_compile h
    obtain ⟨-, hprimary, hsecondary⟩ := Composition.isPositive_min_iff.mp hmin
    constructor
    · intro hends
      exact ⟨hends.primary_number, hends.secondary_number⟩
    · rintro ⟨hp, hs⟩
      refine ⟨hprimary hp, hsecondary hs, hp, hs, ?_, ?_, ?_⟩
      · rw [htotal]
        exact Binary64.min_le_left hp
      · rw [htotal]
        exact Binary64.min_le_right hs
      · rw [htotal]
        exact (Binary64.min_eq_or (Or.inl hp)).imp And.left And.left

/-- Two sources of which nothing is declared. -/
def plainScreen : SplitScreen := { primary := ⟨"top.mp4"⟩, secondary := ⟨"bottom.mp4"⟩ }

private theorem accepted_plainScreen : plainScreen.Accepted where
  primary := by decide +kernel
  secondary := by decide +kernel
  primaryVolume := by decide +kernel
  secondaryVolume := by decide +kernel
  primaryDuration := by simp [plainScreen]
  secondaryDuration := by simp [plainScreen]
  backgroundColor := by decide +kernel

/-- Twelve seconds above nine. -/
theorem compile_endsWithShorter_plainScreen : ∃ program,
    plainScreen.compile ⟨12, false⟩ ⟨9, false⟩ = .ok program ∧
      EndsWithShorter ⟨12, false⟩ ⟨9, false⟩ program := by
  obtain ⟨hcompiles, hends⟩ := compile_endsWithShorter_iff plainScreen ⟨12, false⟩ ⟨9, false⟩
  obtain ⟨program, h⟩ := hcompiles.mpr
    ⟨(check_eq_ok_iff _).mpr accepted_plainScreen, Or.inl (by decide +kernel),
      fun _ ↦ by decide +kernel, fun _ ↦ by decide +kernel⟩
  exact ⟨program, h, (hends program h).mpr ⟨by decide +kernel, by decide +kernel⟩⟩

/-- A source whose length is no number is accepted above one of nine seconds. -/
theorem not_endsWithShorter_plainScreen : ¬ ∀ (screen : SplitScreen)
    (primary secondary : SourceInfo) (program : Program),
    screen.compile primary secondary = .ok program →
      EndsWithShorter primary secondary program := by
  intro hall
  let upper : SourceInfo := ⟨.nan, false⟩
  let lower : SourceInfo := ⟨9, false⟩
  have htotal : Composition.isPositive (upper.duration.min lower.duration) = true := by
    decide +kernel
  obtain ⟨_, -, h⟩ := accepted_plainScreen.compile_eq_ok htotal
  have hnumber : Binary64.nan.isNaN = false := (hall _ _ _ _ h).primary_number
  cases hnumber

end SplitScreen

end Montage
