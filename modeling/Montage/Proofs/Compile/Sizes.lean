import Montage.Proofs.Compile.Spelling
import Montage.Proofs.Decoration.Sizes
import Montage.Proofs.Graph.Quantities

/-!
# Letters and boxes that can be seen

The letters and boxes of a program have at least one pixel exactly if the sizes of its composition
are not below the least ones of its tier.
-/

namespace Montage

open Montage.Numeric (Binary64 decimalValue? decimalValue?_toString)
open Montage.Graph
open Montage.Decoration (Layer)
open Montage.Geometry (scaleToWidth)

/-- Letters and boxes have a pixel; a box may also be as wide as the frame. -/
def Graph.Program.ShowsSizes (program : Program) : Prop :=
  ∀ option ∈ program.options, ∀ key ∈ option.key, key ∈ sizeKeys →
    key = "w" ∧ option.value = "iw" ∨ ∃ pixels ∈ decimalValue? option.value, 1 ≤ pixels

/-- No size of the composition is below the least one of its tier. -/
structure Composition.ReachesPixels (composition : Composition) : Prop where
  captions : ∀ caption ∈ composition.captions, composition.quality.leastSize ≤ caption.fontSize
  overlays : ∀ overlay ∈ composition.overlays, overlay.kind ≠ .progressBar →
    composition.quality.leastSize ≤ overlay.fontSize
  title : ∀ title ∈ composition.title, Text.isBlankText title.text = false →
    composition.quality.leastTitleSize ≤ title.style.fontSize
  ranking : ∀ ranking ∈ composition.ranking, ranking.enabled = true →
    composition.quality.leastSize ≤ ranking.size

namespace Composition

/-- What an overlay draws has a pixel if its letters have one. -/
private theorem one_le_overlaySizes_iff (composition : Composition) (fonts : FontResolver)
    {overlay : Overlay} (hx : overlay.fontSize.isNaN = false) :
    (∀ size ∈ Decoration.overlaySizes (composition.scene fonts) overlay, 1 ≤ size) ↔
      (overlay.kind ≠ .progressBar → composition.quality.leastSize ≤ overlay.fontSize) := by
  have hrows := Decoration.one_le_lowerThirdRows composition.quality
  have hsize := composition.quality.one_le_scaleToWidth_iff hx
  unfold Decoration.overlaySizes
  cases overlay.kind <;> simp [scene, hrows, hsize]

/-- What a badge draws has a pixel if its box has one. -/
private theorem one_le_badgeSizes_iff (composition : Composition) (fonts : FontResolver)
    {ranking : Ranking} (clip : ℕ) (hx : ranking.size.isNaN = false) :
    (∀ size ∈ (Layer.badge clip ranking).sizes (composition.scene fonts), 1 ≤ size) ↔
      composition.quality.leastSize ≤ ranking.size := by
  rw [← composition.quality.one_le_scaleToWidth_iff hx]
  show (∀ size ∈ [scaleToWidth ranking.size composition.quality.encoding.width,
    Decoration.ordinalSize (scaleToWidth ranking.size composition.quality.encoding.width)],
      1 ≤ size) ↔ _
  simp [Decoration.one_le_ordinalSize_iff]

/-- All layers have pixels exactly if all authored sizes are great enough. -/
private theorem Accepted.one_le_sizes_iff {composition : Composition} (h : composition.Accepted)
    (fonts : FontResolver) :
    (∀ layer ∈ composition.layers, ∀ size ∈ layer.sizes (composition.scene fonts), 1 ≤ size) ↔
      composition.ReachesPixels := by
  have hcaption : ∀ caption ∈ composition.captions, _ := fun caption hc ↦
    composition.quality.one_le_scaleToWidth_iff
      (isNaN_of_isPositive (h.captions caption hc).fontSize)
  have hoverlay : ∀ overlay ∈ composition.overlays, _ := fun overlay ho ↦
    composition.one_le_overlaySizes_iff fonts (isNaN_of_isPositive (h.overlays overlay ho).fontSize)
  have htitle : ∀ title ∈ composition.title, _ := fun title ht ↦
    composition.quality.one_le_titleSize_iff (isNaN_of_isPositive (h.title title ht).fontSize)
  have hranking : ∀ ranking ∈ composition.ranking, _ := fun ranking hr clip ↦
    composition.one_le_badgeSizes_iff fonts clip (isNaN_of_isPositive (h.ranking ranking hr).size)
  rw [forall_mem_layers]
  constructor
  · rintro ⟨hc, ho, ht, hr⟩
    constructor
    · intro caption hm
      obtain ⟨index, hi⟩ := List.mem_iff_getElem?.mp hm
      exact (hcaption caption hm).mp (hc index caption hi _ List.mem_cons_self)
    · intro overlay hm
      obtain ⟨index, hi⟩ := List.mem_iff_getElem?.mp hm
      exact (hoverlay overlay hm).mp (ho index overlay hi)
    · exact fun title hm hb ↦ (htitle title hm).mp (ht title hm hb _ List.mem_cons_self)
    · exact fun ranking hm he ↦ (hranking ranking hm 0).mp
        (hr ranking hm he 0 (List.length_pos_iff.mpr h.clips_ne_nil))
  · intro hp
    refine ⟨fun index caption hi ↦ ?_, fun index overlay hi ↦ ?_, fun title hm hb ↦ ?_,
      fun ranking hm he clip _ ↦ ?_⟩
    · have hm := List.mem_of_getElem? hi
      exact List.forall_mem_singleton.mpr ((hcaption caption hm).mpr (hp.captions caption hm))
    · have hm := List.mem_of_getElem? hi
      exact (hoverlay overlay hm).mpr (hp.overlays overlay hm)
    · exact List.forall_mem_singleton.mpr ((htitle title hm).mpr (hp.title title hm hb))
    · exact (hranking ranking hm clip).mpr (hp.ranking ranking hm he)

end Composition

/-- Letters and boxes that all layers have with a pixel can be seen, and the other way round. -/
private theorem Parts.Fit.showsSizes_iff_layers {fonts : FontResolver} {composition : Composition}
    {parts : Parts} (h : parts.Fit fonts composition) (hn : composition.clips ≠ []) :
    (parts.program composition).ShowsSizes ↔
      ∀ layer ∈ composition.layers, ∀ size ∈ layer.sizes (composition.scene fonts), 1 ≤ size := by
  constructor
  · intro hshows layer hl size hsize
    obtain ⟨drawing, hdrawn, hstages⟩ := h.exists_drawing hn hl
    obtain ⟨stage, hs, key, hkey, ho⟩ := hdrawn.size_mem size hsize
    have hvalue := decimalValue?_toString size
    rcases hshows _ (List.mem_flatMap.mpr ⟨stage, hstages stage hs, ho⟩) key rfl hkey with
      ⟨-, hwidth⟩ | ⟨pixels, hpixels, hone⟩
    · have hnone : decimalValue? "iw" = none := rfl
      have hframe : toString size = "iw" := hwidth
      rw [hframe, hnone] at hvalue
      cases hvalue
    · obtain rfl := Option.some.inj (hvalue.symm.trans hpixels)
      exact_mod_cast hone
  · intro hall option hm key hk hkey
    obtain ⟨stage, hs, ho⟩ := List.mem_flatMap.mp hm
    have hspelled := (h.spelled hn (Composition.spelledIn_ofSizes hall) stage hs).options option ho
    refine (hspelled.size_of_key hk hkey).imp_right fun ⟨n, hone, hvalue⟩ ↦ ⟨n, ?_, ?_⟩
    · rw [hvalue]
      exact decimalValue?_toString n
    · exact_mod_cast hone

/-- An accepted composition is compiled unless its badges have no place, and the letters and boxes
of its program have at least one pixel exactly if no authored size is below the least one of the
tier. -/
theorem showsSizes_iff {composition : Composition} (h : composition.check = .ok ())
    (fonts : FontResolver) :
    (composition.BadgesInRange → ∃ program, composition.compile fonts = .ok program) ∧
      ∀ program, composition.compile fonts = .ok program →
        (program.ShowsSizes ↔ composition.ReachesPixels) := by
  refine ⟨Composition.exists_program_of_check h fonts, fun program hp ↦ ?_⟩
  obtain ⟨ha, parts, hfit, rfl⟩ := Composition.exists_parts_of_compile hp
  exact (hfit.showsSizes_iff_layers ha.clips_ne_nil).trans (ha.one_le_sizes_iff fonts)

/-- Everything that decorated clips are drawn with can be seen. -/
theorem showsSizes_decoratedClips :
    decoratedClips.check = .ok () ∧ ∃ program,
      decoratedClips.compile (fun _ _ ↦ none) = .ok program ∧ program.ShowsSizes := by
  have h : decoratedClips.check = .ok () := (Composition.check_eq_ok_iff _).mpr
    (Composition.accepted_of_toOption (by decide +kernel))
  obtain ⟨hcompiles, hshows⟩ := showsSizes_iff h fun _ _ ↦ none
  obtain ⟨program, hp⟩ := hcompiles (by decide +kernel)
  exact ⟨h, program, hp, (hshows program hp).mpr
    ⟨by decide +kernel, by decide +kernel, by decide +kernel, by decide +kernel⟩⟩

/-- A clip with a badge of less than half a pixel. -/
def faintClip : Composition where
  clips := [⟨⟨"a.mp4"⟩, 0, 4⟩]
  ranking := some { size := 0.4 }

/-- The composition is accepted, but its badge has no pixel, which the engine takes for the whole
frame, and neither has its ordinal. -/
theorem not_showsSizes_faintClip :
    faintClip.check = .ok () ∧ ∃ program,
      faintClip.compile (fun _ _ ↦ none) = .ok program ∧ ¬ program.ShowsSizes ∧
      ∀ key ∈ sizeKeys, opt key "0" ∈ program.options := by
  have ha : faintClip.Accepted := Composition.accepted_of_toOption (by decide +kernel)
  have hall : ((faintClip.compile fun _ _ ↦ none).toOption.any fun program ↦
      decide (∀ key ∈ sizeKeys, opt key "0" ∈ program.options)) = true := by
    decide +kernel
  cases hp : faintClip.compile fun _ _ ↦ none with
  | error e =>
    rw [hp] at hall
    cases hall
  | ok program =>
    rw [hp] at hall
    have hoptions : ∀ key ∈ sizeKeys, opt key "0" ∈ program.options := of_decide_eq_true hall
    refine ⟨(Composition.check_eq_ok_iff _).mpr ha, program, rfl, fun hshows ↦ ?_, hoptions⟩
    have hzero : decimalValue? "0" = some 0 := rfl
    rcases hshows _ (hoptions "h" (by decide)) "h" rfl (by decide) with ⟨hw, -⟩ | ⟨pixels, hp, hone⟩
    · exact absurd hw (by decide)
    · obtain rfl := Option.some.inj (hzero.symm.trans hp)
      exact absurd hone (by norm_num)

end Montage
