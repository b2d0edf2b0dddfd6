import Montage.Proofs.Compile.Readability
import Montage.Proofs.Compile.SharedTimeline
import Montage.Proofs.Decoration.Fades

/-!
# Captions that fade

What the engine reads as the opacity of a caption and what it makes of it while the clip of the
caption plays. A caption fades at both edges of a clip that lasts a second; on a shorter clip the
fade in goes on when the end of the clip is already nearer.
-/

namespace Montage

open Montage.Graph
open Montage.Decoration (FadesIn Layer Drawn)
open Montage.Numeric (instant? num)

namespace Composition

/-- The opacity of a caption that fades in and out on a clip, as it is written. -/
def fadeText (composition : Composition) (clip : ℕ) : String :=
  Decoration.fadeText (composition.boundaryText clip) (composition.boundaryText (clip + 1))

/-- What is read of the captions of a program: when each is seen, its opacity if it fades, and what
this opacity comes to. -/
structure FadesCaptions (composition : Composition) (program : Program) : Prop where
  read : Reader.readings program.filterGraph = some (program.stages.map (·.reading))
  gates : (program.stagesFor .caption).map (·.gates) =
    composition.captions.map fun caption ↦ [[composition.gateText caption.clipIndex]]
  opacities : (program.stagesFor .caption).map (·.reading.values "alpha") =
    composition.captions.map fun caption ↦
      [if caption.animation = .fade then [composition.fadeText caption.clipIndex] else []]
  /-- The opacity is a formula that fades between the boundaries of the clip as they are written. -/
  fades : ∀ clip < composition.clips.length, ∃ formula start stop,
    Formula.read? (composition.fadeText clip) = some formula ∧
      instant? (composition.boundaryText clip) = some start ∧
      instant? (composition.boundaryText (clip + 1)) = some stop ∧ FadesIn formula start stop
  captions_lt : ∀ caption ∈ composition.captions, caption.clipIndex < composition.clips.length

variable {composition : Composition}

theorem render_fade {clip : ℕ} {window : TimeWindow}
    (h : composition.timeline.window? clip = some window) :
    (Decoration.fade window).render = composition.fadeText clip := by
  obtain ⟨hstart, hstop⟩ := eq_boundary_of_window? h
  rw [Decoration.render_fade, hstart, hstop]
  rfl

/-- The opacity is read from between its quotes. -/
theorem found_fade {clip : ℕ} {window : TimeWindow}
    (h : composition.timeline.window? clip = some window) :
    (opt "alpha" (Decoration.quotedExpression (Decoration.fade window))).found =
      [(some "alpha", composition.fadeText clip)] := by
  rw [Decoration.found_fade, ← render_fade h, Decoration.render_fade]

theorem Accepted.fadesIn (h : composition.Accepted) {clip : ℕ}
    (hc : clip < composition.clips.length) : ∃ formula start stop,
    Formula.read? (composition.fadeText clip) = some formula ∧
      instant? (composition.boundaryText clip) = some start ∧
      instant? (composition.boundaryText (clip + 1)) = some stop ∧ FadesIn formula start stop := by
  obtain ⟨window, hw, hstart, hstop⟩ := exists_window? hc
  have hs := h.instant?_boundaryText clip
  have he := h.instant?_boundaryText (clip + 1)
  have hread : Formula.read? (composition.fadeText clip) = some (Decoration.fadeFormula
      (composition.boundaryText clip) (composition.boundaryText (clip + 1))) := by
    rw [← render_fade hw, (Decoration.wellGrouped_fade ?_ ?_).read?_render,
      Decoration.formula_fade, hstart, hstop]
    · rfl
    · exact hstart ▸ h.isLength_boundary clip
    · exact hstop ▸ h.isLength_boundary (clip + 1)
  refine ⟨_, _, _, hread, hs, he, Decoration.fadesIn_of_ramped ?_⟩
  intro t ht _
  obtain ⟨s, hs'⟩ := WithTop.ne_top_iff_exists.mp (ht.trans_lt (WithTop.coe_lt_top t)).ne
  rw [← hs'] at hs ⊢
  exact Decoration.value?_fadeFormula hs he t

/-- The opacities of the filters of a caption. -/
def layerOpacities (composition : Composition) : Layer → List (List (List String))
  | .caption _ caption =>
    [[if caption.animation = .fade then [composition.fadeText caption.clipIndex] else []]]
  | _ => []

variable {fonts : FontResolver} {layer : Layer} {drawn : Drawn}

/-- Captions are drawn with their opacities. -/
theorem opacities_drawn (hr : layer.role = .caption)
    (h : layer.DrawnBy (composition.scene fonts) drawn) :
    (drawn.stages.map fun stage ↦ stage.filters.map fun filter ↦
      (filter.values "alpha").flatMap fun value ↦ (opt "alpha" value).found.map (·.2)) =
      composition.layerOpacities layer := by
  cases h with
  | @caption _ caption _ filter _ hw hf _ =>
    have hdrawn :
        (filter.values "alpha").flatMap (fun value ↦ (opt "alpha" value).found.map (·.2)) =
          if caption.animation = .fade then [composition.fadeText caption.clipIndex] else [] := by
      rw [Decoration.opacity_captionFilter hf]
      split
      · rw [List.flatMap_singleton, found_fade hw]
        rfl
      · rfl
    exact congrArg (fun values ↦ [[values]]) hdrawn
  | bar => cases hr
  | overlay => cases hr
  | title => cases hr
  | badge => cases hr

end Composition

namespace Parts.Fit

variable {fonts : FontResolver} {composition : Composition} {parts : Parts}

theorem fadesCaptions (h : parts.Fit fonts composition) (ha : composition.Accepted) :
    composition.FadesCaptions (parts.program composition) where
  read := Program.readings_filterGraph (by simp [Parts.program]) (h.readable ha.clips_ne_nil)
  gates := h.gates_captions
  opacities := by
    have hread : ∀ stage ∈ (parts.program composition).stagesFor .caption,
        stage.reading.values "alpha" = stage.filters.map fun filter ↦
          (filter.values "alpha").flatMap fun value ↦ (opt "alpha" value).found.map (·.2) := by
      intro stage hs
      exact (h.readable ha.clips_ne_nil stage (List.mem_filter.mp hs).1).values_reading "alpha"
    rw [List.map_congr_left hread,
      h.map_stagesFor (.inl rfl) fun layer drawing hr ↦ Composition.opacities_drawn hr]
    exact composition.flatMap_filter_role_caption fun _ _ ↦ rfl
  fades _ := ha.fadesIn
  captions_lt caption hc := (ha.captions caption hc).clipIndex

end Parts.Fit

/-- An accepted composition is compiled unless its badges have no place, and the captions of its
program fade as they were asked to: with an opacity between zero and one, which is that of a fade at
both edges of the clip exactly where half a second has passed since its start or its middle has not
passed, and so everywhere exactly if the clip lasts a second. -/
theorem compile_fadesCaptions {composition : Composition} (h : composition.check = .ok ())
    (fonts : FontResolver) :
    (composition.BadgesInRange → ∃ program, composition.compile fonts = .ok program) ∧
      ∀ program, composition.compile fonts = .ok program → composition.FadesCaptions program := by
  refine ⟨Composition.exists_program_of_check h fonts, fun program hp ↦ ?_⟩
  obtain ⟨ha, parts, hfit, rfl⟩ := Composition.exists_parts_of_compile hp
  exact hfit.fadesCaptions ha

/-- A long clip and one of less than a second, each with a caption that fades. -/
def fadedCaptions : Composition where
  clips := [⟨⟨"a.mp4"⟩, 0, 4⟩, ⟨⟨"b.mp4"⟩, 0, 0.6⟩]
  captions := [{ clipIndex := 0, text := "long", animation := .fade },
    { clipIndex := 1, text := "brief", animation := .fade }]

/-- The caption of the long clip fades at both edges at every instant. -/
theorem compile_fadesCaptions_fadedCaptions :
    fadedCaptions.check = .ok () ∧
      ∃ program, fadedCaptions.compile FontResolver.byName = .ok program ∧
        fadedCaptions.FadesCaptions program ∧
        (program.stagesFor .caption).map (·.reading.values "alpha") =
          [[["if(lt(t,0+0.5),(t-0)/0.5,if(gt(t,4-0.5),(4-t)/0.5,1))"]],
            [["if(lt(t,4+0.5),(t-4)/0.5,if(gt(t,4.6-0.5),(4.6-t)/0.5,1))"]]] ∧
        ∃ formula, Formula.read? "if(lt(t,0+0.5),(t-0)/0.5,if(gt(t,4-0.5),(4-t)/0.5,1))" =
            some formula ∧
          ∀ t : ℝ, 0 ≤ t → t < 4 → formula.value? t = some (Decoration.edgeOpacity 0 4 t) := by
  have hcheck : fadedCaptions.check = .ok () := (Composition.check_eq_ok_iff _).mpr
    (Composition.accepted_of_toOption (by decide +kernel))
  obtain ⟨hcompiles, hfaded⟩ := compile_fadesCaptions hcheck FontResolver.byName
  obtain ⟨program, hp⟩ := hcompiles (by decide)
  have hfades := hfaded program hp
  obtain ⟨formula, start, stop, hread, hstart, hstop, hin⟩ := hfades.fades 0 (by decide)
  have htext : fadedCaptions.fadeText 0 =
      "if(lt(t,0+0.5),(t-0)/0.5,if(gt(t,4-0.5),(4-t)/0.5,1))" := by decide +kernel
  have hzero : fadedCaptions.boundaryText 0 = "0" := fadedCaptions.boundaryText_zero
  have hfour : fadedCaptions.boundaryText 1 = "4" := by decide +kernel
  have hs : Numeric.decimalValue? "0" = some 0 := by decide +kernel
  have he : Numeric.decimalValue? "4" = some 4 := by decide +kernel
  rw [hzero, Numeric.instant?_of_decimalValue? hs, Rat.cast_zero, Option.some.injEq] at hstart
  rw [hfour, Numeric.instant?_of_decimalValue? he, Rat.cast_ofNat, Option.some.injEq] at hstop
  subst hstart hstop
  refine ⟨hcheck, program, hp, hfades, hfades.opacities.trans (by decide +kernel), formula,
    htext ▸ hread, fun t hs he ↦ ?_⟩
  have hsecond : (0 : WithTop ℝ) + (1 : ℝ) ≤ 4 := by
    rw [zero_add]
    exact WithTop.coe_le_coe.mpr (by norm_num : (1 : ℝ) ≤ 4)
  exact hin.always_iff.mpr (Or.inr hsecond) t (WithTop.coe_le_coe.mpr hs)
    (WithTop.coe_lt_coe.mpr he)

/-- A clip of less than a second with a caption that fades. -/
def briefCaption : Composition where
  clips := [⟨⟨"a.mp4"⟩, 0, 0.6⟩]
  captions := [{ clipIndex := 0, text := "hi", animation := .fade }]

/-- Its caption still fades in when its end is nearer. -/
theorem fade_past_middle_briefCaption :
    briefCaption.check = .ok () ∧
      ∃ program, briefCaption.compile FontResolver.byName = .ok program ∧
        (program.stagesFor .caption).map (·.gates) = [[["'gte(t,0)*lt(t,0.6)'"]]] ∧
        (program.stagesFor .caption).map (·.reading.values "alpha") =
          [[["if(lt(t,0+0.5),(t-0)/0.5,if(gt(t,0.6-0.5),(0.6-t)/0.5,1))"]]] ∧
        ∃ formula, Formula.read? "if(lt(t,0+0.5),(t-0)/0.5,if(gt(t,0.6-0.5),(0.6-t)/0.5,1))" =
            some formula ∧
          formula.value? 0.4 = some ((0.8 : ℝ) : EReal) ∧
          Decoration.edgeOpacity (0 : ℝ) (0.6 : ℝ) 0.4 = ((0.4 : ℝ) : EReal) := by
  have ha : briefCaption.Accepted := Composition.accepted_of_toOption (by decide +kernel)
  obtain ⟨parts, hfit, hp⟩ := ha.compile_eq_ok (by decide) FontResolver.byName
  have hfades := hfit.fadesCaptions ha
  have hread : Formula.read? "if(lt(t,0+0.5),(t-0)/0.5,if(gt(t,0.6-0.5),(0.6-t)/0.5,1))" =
      some (Decoration.fadeFormula "0" "0.6") := by decide +kernel
  have hs : instant? "0" = some ((0 : ℝ) : WithTop ℝ) := by
    have hnumber : Numeric.decimalValue? "0" = some 0 := by decide +kernel
    rw [Numeric.instant?_of_decimalValue? hnumber, Rat.cast_zero]
  have he : instant? "0.6" = some ((0.6 : ℝ) : WithTop ℝ) := by
    have hnumber : Numeric.decimalValue? "0.6" = some 0.6 := by decide +kernel
    rw [Numeric.instant?_of_decimalValue? hnumber, Rat.cast_ofScientific]
  refine ⟨(Composition.check_eq_ok_iff _).mpr ha, _, hp, hfades.gates.trans (by decide +kernel),
    hfades.opacities.trans (by decide +kernel), _, hread, ?_, ?_⟩
  · have hrise : Decoration.rise (0 : ℝ) 0.4 < 1 := by
      rw [Decoration.rise_coe, ← EReal.coe_one, EReal.coe_lt_coe_iff]
      norm_num
    rw [Decoration.value?_fadeFormula hs he, Decoration.ramped, if_pos hrise, Decoration.rise_coe]
    norm_num
  · rw [Decoration.edgeOpacity, Decoration.rise_coe, Decoration.fall_coe, ← EReal.coe_one,
      ← EReal.coe_strictMono.monotone.map_min, ← EReal.coe_strictMono.monotone.map_min]
    norm_num

end Montage
