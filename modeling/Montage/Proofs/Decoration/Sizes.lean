import Montage.Proofs.Decoration.Spelling
import Montage.Proofs.Geometry

/-!
# How small letters and boxes get

Sizes are authored at one frame width, scaled to another and rounded. Every step keeps the order of
doubles, so that for each tier and each way of scaling there is a least authored size that is not
rounded to zero pixels.
-/

namespace Montage

open Montage.Numeric (Binary64)
open Montage.Geometry (roundHalfUp scaleToWidth)

namespace Quality

/-- The least authored size that a tier draws with a pixel. It is half a pixel of its frame. -/
def leastSize : Quality → Binary64
  | p720 => 0.75
  | p1080 => 0.5
  | k4 => 0.25

/-- The least authored size of a title that a tier draws with a pixel. -/
def leastTitleSize : Quality → Binary64
  | p720 => 1.25
  | p1080 => 0.8333333333333333
  | k4 => 0.41666666666666663

/-- The greatest authored size that a tier draws without a pixel. -/
private def lostSize : Quality → Binary64
  | p720 => 0.7499999999999999
  | p1080 => 0.49999999999999994
  | k4 => 0.24999999999999997

/-- The greatest authored size of a title that a tier draws without a pixel. -/
private def lostTitleSize : Quality → Binary64
  | p720 => 1.2499999999999998
  | p1080 => 0.8333333333333331
  | k4 => 0.4166666666666666

variable (quality : Quality) {x : Binary64}

/-- A size is drawn with a pixel from the least one on. -/
theorem one_le_scaleToWidth_iff (hx : x.isNaN = false) :
    1 ≤ scaleToWidth x quality.encoding.width ↔ quality.leastSize ≤ x := by
  have hfollows : quality.leastSize.Follows quality.lostSize := by
    cases quality <;> decide +kernel
  have hlost : scaleToWidth quality.lostSize quality.encoding.width < 1 := by
    cases quality <;> decide +kernel
  have hleast : 1 ≤ scaleToWidth quality.leastSize quality.encoding.width := by
    cases quality <;> decide +kernel
  exact hfollows.one_le_iff (f := (scaleToWidth · quality.encoding.width))
    (fun x y h ↦ Geometry.scaleToWidth_mono quality h) hlost hleast hx

/-- The font size of a title of this authored size, wherever it stands. -/
def titleSize (size : Binary64) : ℤ :=
  roundHalfUp (size * (.ofNat quality.encoding.width / Geometry.referenceWidth) *
    Geometry.previewTextZoom)

/-- A title is drawn with a pixel from its least size on. -/
theorem one_le_titleSize_iff (hx : x.isNaN = false) :
    1 ≤ quality.titleSize x ↔ quality.leastTitleSize ≤ x := by
  have hfollows : quality.leastTitleSize.Follows quality.lostTitleSize := by
    cases quality <;> decide +kernel
  have hlost : quality.titleSize quality.lostTitleSize < 1 := by
    cases quality <;> decide +kernel
  have hleast : 1 ≤ quality.titleSize quality.leastTitleSize := by
    cases quality <;> decide +kernel
  have hscale : 0 < Binary64.ofNat quality.encoding.width / Geometry.referenceWidth ∧
      (Binary64.ofNat quality.encoding.width / Geometry.referenceWidth).isFinite = true := by
    cases quality <;> decide +kernel
  have hzoom : 0 < Geometry.previewTextZoom ∧ Geometry.previewTextZoom.isFinite = true := by
    decide +kernel
  refine hfollows.one_le_iff (fun x y h ↦ ?_) hlost hleast hx
  exact Geometry.roundHalfUp_mono (Binary64.mul_le_mul_right hzoom.1 hzoom.2
    (Binary64.mul_le_mul_right hscale.1 hscale.2 h))

end Quality

namespace Decoration

private theorem ordinalSize_mono {a b : ℤ} (h : a ≤ b) : ordinalSize a ≤ ordinalSize b :=
  Geometry.roundHalfUp_mono (Binary64.mul_le_mul_right (by decide +kernel) (by decide +kernel)
    (Binary64.ofInt_le_ofInt h))

/-- An ordinal has a pixel exactly if its badge has one. -/
theorem one_le_ordinalSize_iff {edge : ℤ} : 1 ≤ ordinalSize edge ↔ 1 ≤ edge := by
  have hzero : ordinalSize 0 < 1 := by decide +kernel
  have hone : 1 ≤ ordinalSize 1 := by decide +kernel
  constructor
  · intro h
    by_contra hedge
    have hback : ordinalSize edge ≤ ordinalSize 0 := ordinalSize_mono (by omega)
    omega
  · exact fun h ↦ hone.trans (ordinalSize_mono h)

theorem one_le_lowerThirdRows (quality : Quality) :
    1 ≤ lowerThirdRows quality.encoding.height := by
  cases quality <;> decide +kernel

end Decoration

end Montage
