import Montage.MediaError
import Montage.Proofs.Compile.SplitLayout

/-!
# What compiling can answer

The check of a request judges all that it can fail for: what the check refuses fails with its own
words, and the programs that the builders make never fail a check of their own. What it passes
compiles, unless a badge is so large that it has no place: then there is no answer at all.
-/

namespace Montage

open Montage.Graph

/-- A composition compiles exactly when its check passes and its badges have a place. If the check
passes and they have none the compilation overflows, and it fails only with the defect that the
check found. A split screen never fails for its graph and never overflows. -/
theorem compile_answers_check (fonts : FontResolver) (composition : Composition)
    (screen : SplitScreen) (primary secondary : SourceInfo) :
    (((∃ program, composition.compile fonts = .ok program) ↔
        composition.check = .ok () ∧ composition.BadgesInRange) ∧
      (composition.compile fonts = .error .overflow ↔
        composition.check = .ok () ∧ ¬ composition.BadgesInRange) ∧
      ∀ failure, (composition.compile fonts).mapError (Halt.map MediaError.ofCompile) =
          .error (.failure failure) ↔
        ∃ defect, composition.check = .error defect ∧
          failure = .invalidComposition defect.message) ∧
    screen.compile primary secondary ≠ .error .overflow ∧
      ∀ reason, (screen.compile primary secondary).mapError (Halt.map MediaError.ofCompile) ≠
        .error (.failure (.invalidGraph reason)) := by
  refine ⟨⟨?_, ?_, fun failure ↦ ?_⟩, screen.compile_ne_overflow primary secondary,
    fun reason hg ↦ ?_⟩
  · constructor
    · rintro ⟨program, hp⟩
      obtain ⟨ha, -⟩ := Composition.exists_parts_of_compile hp
      exact ⟨(Composition.check_eq_ok_iff composition).mpr ha,
        Composition.badgesInRange_of_compile hp⟩
    · rintro ⟨hcheck, hr⟩
      exact Composition.exists_program_of_check hcheck fonts hr
  · rw [Composition.check_eq_ok_iff]
    exact Composition.compile_eq_overflow_iff
  · rw [mapError_map_eq_failure]
    constructor
    · rintro ⟨e, he, rfl⟩
      obtain ⟨defect, hcheck, rfl⟩ := Composition.compile_eq_failure_iff.mp he
      exact ⟨defect, hcheck, rfl⟩
    · rintro ⟨defect, hcheck, rfl⟩
      exact ⟨_, Composition.compile_eq_failure hcheck fonts, rfl⟩
  · obtain ⟨e, he, hreason⟩ := mapError_map_eq_failure.mp hg
    rcases screen.compile_eq_or primary secondary with ⟨defect, -, h⟩ | ⟨-, h | ⟨background, -, h⟩⟩
    · obtain rfl := Halt.failure_inj (he.symm.trans h)
      cases hreason
    · obtain rfl := Halt.failure_inj (he.symm.trans h)
      cases hreason
    · cases he.symm.trans h

/-- The check passes a clip with a badge of this size, but the clip does not compile. -/
theorem compile_overflows_cornerBadge :
    (cornerBadge .topLeft 1e19).check = .ok () ∧
      ∀ fonts, (cornerBadge .topLeft 1e19).compile fonts = .error .overflow ∧
        ¬ ∃ program, (cornerBadge .topLeft 1e19).compile fonts = .ok program := by
  have ha : (cornerBadge .topLeft 1e19).Accepted :=
    Composition.accepted_of_toOption (by decide +kernel)
  refine ⟨(Composition.check_eq_ok_iff _).mpr ha, fun fonts ↦ ?_⟩
  rw [ha.compile_eq_overflow (by decide +kernel) fonts]
  refine ⟨rfl, ?_⟩
  rintro ⟨program, h⟩
  cases h

end Montage
