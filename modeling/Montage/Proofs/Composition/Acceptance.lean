import Mathlib.Logic.Basic
import Montage.Attempt
import Montage.Composition.Check

/-!
# Accepted compositions

The requirements that the check of a composition stands for, part by part. Defects carry numbers,
so a check depends on where its item stands; whether it passes does not.
-/

namespace Montage

open Montage.Numeric (Binary64)

namespace Composition

theorem isPositive_iff {x : Binary64} : isPositive x = true ↔ x.isFinite = true ∧ 0 < x := by
  rw [isPositive, Bool.and_eq_true, decide_eq_true_eq]

/-- Refusing passes what is not wrong. -/
theorem refuse_eq_ok {defect : Defect} {wrong : Bool} :
    refuse defect wrong = .ok () ↔ wrong = false := by
  cases wrong <;> simp [refuse]

/-- A check of a list passes if each item does, wherever it stands. -/
theorem checkEach_eq_ok {α : Type} {check : Nat → α → Except Defect Unit} {Accepted : α → Prop}
    (h : ∀ index item, check index item = .ok () ↔ Accepted item) (index : Nat)
    (items : List α) :
    checkEach check index items = .ok () ↔ ∀ item ∈ items, Accepted item := by
  induction items generalizing index with
  | nil => simp [checkEach]
  | cons item rest ih => rw [checkEach, bind_eq_ok, h, ih, List.forall_mem_cons]

end Composition

/-- A clip has a source and a length. -/
structure Clip.Accepted (clip : Clip) : Prop where
  source : clip.source.isEmpty = false
  duration : Composition.isPositive clip.duration = true
  trimStart : Composition.isNonNegative clip.trimStart = true

/-- A position lies on the frame. -/
structure RelativePosition.Accepted (position : RelativePosition) : Prop where
  x : Composition.isPercentage position.x = true
  y : Composition.isPercentage position.y = true

/-- A title can be drawn. -/
structure Title.Accepted (title : Title) : Prop where
  position : title.position.Accepted
  fontSize : Composition.isPositive title.style.fontSize = true
  color : Color.isHex title.style.color = true
  strokeColor : ∀ color ∈ title.style.strokeColor, Color.isHex color = true

/-- Badges can be drawn. -/
structure Ranking.Accepted (ranking : Ranking) : Prop where
  size : Composition.isPositive ranking.size = true
  color : Color.isHex ranking.color = true
  textColor : Color.isHex ranking.textColor = true

/-- A caption can be drawn over one of this many clips. -/
structure Caption.Accepted (clipCount : Nat) (caption : Caption) : Prop where
  clipIndex : caption.clipIndex < clipCount
  fontSize : Composition.isPositive caption.fontSize = true
  color : Color.isHex caption.color = true
  backgroundColor : Color.isHex caption.backgroundColor = true

/-- An overlay can be drawn and its window begins before the composition ends. -/
structure Overlay.Accepted (total : Binary64) (overlay : Overlay) : Prop where
  start : Composition.isNonNegative (overlay.start.getD 0) = true
  stop : (overlay.stop.getD total).isFinite = true
  order : ¬ overlay.stop.getD total ≤ overlay.start.getD 0
  late : ¬ total ≤ overlay.start.getD 0
  position : ∀ position ∈ overlay.position, position.Accepted
  fontSize : Composition.isPositive overlay.fontSize = true
  color : Color.isHex overlay.color = true
  backgroundColor : Color.isHex overlay.backgroundColor = true

/-- Music has a source and a volume. -/
structure Music.Accepted (music : Music) : Prop where
  source : music.source.isEmpty = false
  volume : Composition.isNonNegative music.volume = true

/-- Every part of the composition is accepted. -/
structure Composition.Accepted (composition : Composition) : Prop where
  clips_ne_nil : composition.clips ≠ []
  clips : ∀ clip ∈ composition.clips, clip.Accepted
  videoHeightFraction : 0 < composition.videoHeightFraction ∧ composition.videoHeightFraction ≤ 1
  backgroundColor : Color.isHex composition.backgroundColor = true
  title : ∀ title ∈ composition.title, title.Accepted
  ranking : ∀ ranking ∈ composition.ranking, ranking.Accepted
  captions : ∀ caption ∈ composition.captions, caption.Accepted composition.clips.length
  overlays : ∀ overlay ∈ composition.overlays, overlay.Accepted composition.totalDuration
  music : ∀ music ∈ composition.music, music.Accepted

namespace Composition

private theorem checkClip_eq_ok (index : Nat) (clip : Clip) :
    checkClip index clip = .ok () ↔ clip.Accepted := by
  simp only [checkClip, bind_eq_ok, refuse_eq_ok, Bool.not_eq_eq_eq_not, Bool.not_false]
  exact ⟨fun ⟨hs, hd, ht⟩ ↦ ⟨hs, hd, ht⟩, fun ⟨hs, hd, ht⟩ ↦ ⟨hs, hd, ht⟩⟩

private theorem checkPosition_eq_ok (part : Part) (position : RelativePosition) :
    checkPosition part position = .ok () ↔ position.Accepted := by
  simp only [checkPosition, refuse_eq_ok, Bool.not_eq_eq_eq_not, Bool.not_false,
    Bool.and_eq_true]
  exact ⟨fun ⟨hx, hy⟩ ↦ ⟨hx, hy⟩, fun ⟨hx, hy⟩ ↦ ⟨hx, hy⟩⟩

private theorem checkFontSize_eq_ok (part : Part) (size : Binary64) :
    checkFontSize part size = .ok () ↔ isPositive size = true := by
  simp only [checkFontSize, refuse_eq_ok, Bool.not_eq_eq_eq_not, Bool.not_false]

private theorem checkColor_eq_ok (setting : ColorSetting) (value : String) :
    checkColor setting value = .ok () ↔ Color.isHex value = true := by
  simp only [checkColor, refuse_eq_ok, Bool.not_eq_eq_eq_not, Bool.not_false]

private theorem checkTitle_eq_ok (title : Title) :
    checkTitle title = .ok () ↔ title.Accepted := by
  simp only [checkTitle, bind_eq_ok, checkPosition_eq_ok, checkFontSize_eq_ok, checkColor_eq_ok,
    forM_eq_ok]
  exact ⟨fun ⟨hp, hf, hc, hs⟩ ↦ ⟨hp, hf, hc, hs⟩, fun ⟨hp, hf, hc, hs⟩ ↦ ⟨hp, hf, hc, hs⟩⟩

private theorem checkRanking_eq_ok (ranking : Ranking) :
    checkRanking ranking = .ok () ↔ ranking.Accepted := by
  simp only [checkRanking, bind_eq_ok, refuse_eq_ok, checkColor_eq_ok, Bool.not_eq_eq_eq_not,
    Bool.not_false]
  exact ⟨fun ⟨hs, hc, ht⟩ ↦ ⟨hs, hc, ht⟩, fun ⟨hs, hc, ht⟩ ↦ ⟨hs, hc, ht⟩⟩

private theorem checkCaption_eq_ok (clipCount index : Nat) (caption : Caption) :
    checkCaption clipCount index caption = .ok () ↔ caption.Accepted clipCount := by
  simp only [checkCaption, bind_eq_ok, refuse_eq_ok, checkFontSize_eq_ok, checkColor_eq_ok,
    decide_eq_false_iff_not, Nat.not_le]
  exact ⟨fun ⟨hi, hf, hc, hb⟩ ↦ ⟨hi, hf, hc, hb⟩, fun ⟨hi, hf, hc, hb⟩ ↦ ⟨hi, hf, hc, hb⟩⟩

private theorem checkOverlay_eq_ok (total : Binary64) (index : Nat) (overlay : Overlay) :
    checkOverlay total index overlay = .ok () ↔ overlay.Accepted total := by
  simp only [checkOverlay, bind_eq_ok, refuse_eq_ok, checkFontSize_eq_ok, checkColor_eq_ok,
    checkPosition_eq_ok, forM_eq_ok, Bool.not_eq_eq_eq_not, Bool.not_false, Bool.and_eq_true,
    decide_eq_false_iff_not]
  constructor
  · rintro ⟨⟨hs, hf⟩, ho, hl, hp, hz, hc, hb⟩
    exact ⟨hs, hf, ho, hl, hp, hz, hc, hb⟩
  · rintro ⟨hs, hf, ho, hl, hp, hz, hc, hb⟩
    exact ⟨⟨hs, hf⟩, ho, hl, hp, hz, hc, hb⟩

private theorem checkMusic_eq_ok (music : Music) :
    checkMusic music = .ok () ↔ music.Accepted := by
  simp only [checkMusic, bind_eq_ok, refuse_eq_ok, Bool.not_eq_eq_eq_not, Bool.not_false]
  exact ⟨fun ⟨hs, hv⟩ ↦ ⟨hs, hv⟩, fun ⟨hs, hv⟩ ↦ ⟨hs, hv⟩⟩

/-- The check passes exactly the accepted compositions. -/
theorem check_eq_ok_iff (composition : Composition) :
    composition.check = .ok () ↔ composition.Accepted := by
  simp only [check, bind_eq_ok, refuse_eq_ok, forM_eq_ok, checkEach_eq_ok checkClip_eq_ok,
    checkEach_eq_ok (checkCaption_eq_ok _), checkEach_eq_ok (checkOverlay_eq_ok _),
    checkTitle_eq_ok, checkRanking_eq_ok, checkMusic_eq_ok, List.isEmpty_eq_false_iff,
    Bool.not_eq_eq_eq_not, Bool.not_false, Bool.and_eq_true, decide_eq_true_eq]
  constructor
  · rintro ⟨hn, hc, hv, hb, ht, hr, hp, ho, hm⟩
    exact ⟨hn, hc, hv, hb, ht, hr, hp, ho, hm⟩
  · rintro ⟨hn, hc, hv, hb, ht, hr, hp, ho, hm⟩
    exact ⟨hn, hc, hv, hb, ht, hr, hp, ho, hm⟩

/-- A check that computes to success passes. -/
theorem accepted_of_toOption {composition : Composition}
    (h : composition.check.toOption = some ()) : composition.Accepted := by
  rw [← check_eq_ok_iff]
  cases hc : composition.check with
  | ok => rfl
  | error defect =>
    rw [hc] at h
    cases h

end Composition

end Montage
