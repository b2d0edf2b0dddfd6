import Montage.Proofs.Compile.ClipOrder
import Montage.Proofs.Decoration.Layers

/-!
# The order of drawing

The joined stream of a program goes through one stage for each layer of the composition and leaves
through the pixel format. There is no other way for it, and no stage beside those of the clips, the
joins, the layers and the music. Of all stages only those of the layers draw text.
-/

namespace Montage

open Montage.Graph
open Montage.Decoration (Drawn Draws Layer)

namespace Composition

/-- The layers in the order in which they are drawn: captions, overlays, title, badges. -/
def layers (composition : Composition) : List Layer :=
  (composition.captions.zipIdx.map fun p ↦ .caption p.2 p.1) ++
    (composition.overlays.zipIdx.map fun p ↦ .overlay p.2 p.1) ++
    Decoration.titleLayers composition.title ++
    Decoration.badgeLayers composition.ranking composition.clips.length

/-- What holds of all layers holds of each caption, each overlay, a title whose text is not blank
and the badges of all clips if the ranking is enabled. -/
theorem forall_mem_layers {composition : Composition} {p : Layer → Prop} :
    (∀ layer ∈ composition.layers, p layer) ↔
      (∀ index caption, composition.captions[index]? = some caption →
          p (.caption index caption)) ∧
        (∀ index overlay, composition.overlays[index]? = some overlay →
          p (.overlay index overlay)) ∧
        (∀ title ∈ composition.title, Text.isBlankText title.text = false → p (.title title)) ∧
        ∀ ranking ∈ composition.ranking, ranking.enabled = true →
          ∀ clip < composition.clips.length, p (.badge clip ranking) := by
  simp only [layers, Decoration.titleLayers, Decoration.badgeLayers, List.forall_mem_append,
    List.forall_mem_map, List.forall_mem_flatMap, Prod.forall, List.mk_mem_zipIdx_iff_getElem?,
    List.mem_filter, Option.mem_toList, List.mem_range, Bool.not_eq_true', and_assoc, and_imp,
    Option.mem_def]
  constructor
  · rintro ⟨hc, ho, ht, hb⟩
    exact ⟨fun index caption ↦ hc caption index, fun index overlay ↦ ho overlay index, ht, hb⟩
  · rintro ⟨hc, ho, ht, hb⟩
    exact ⟨fun caption index ↦ hc index caption, fun overlay index ↦ ho index overlay, ht, hb⟩

/-- The stages that place the clips, three for each. -/
def clipStages (composition : Composition) (background : String) : List Stage :=
  composition.clips.zipIdx.flatMap fun p ↦
    placedStages (composition.canvas background) p.2 p.1 (.numbered .clip p.2)
      (.numbered .canvas p.2) (.numbered .placed p.2)

/-- The stage of the music. -/
def musicStages (composition : Composition) : List Stage :=
  (composition.music.map fun music ↦
    Soundtrack.musicStage music composition.clips.length composition.timeline.totalDuration
      (.named .audioOut)).toList

end Composition

namespace Parts

/-- The fragment of all decorations. -/
def decorated (parts : Parts) : Fragment :=
  ⟨parts.captions.stages ++ parts.overlays.stages ++ parts.title.stages ++ parts.badges.stages,
    parts.badges.output⟩

variable {fonts : FontResolver} {composition : Composition} {parts : Parts}

/-- The decorations draw all layers. -/
theorem Fit.draws (h : parts.Fit fonts composition) :
    Draws (composition.scene fonts) composition.layers parts.joined.output parts.decorated := by
  have hsize : (composition.scene fonts).timeline.size = composition.clips.length :=
    Composition.Accepted.size_timeline composition
  have hbadges := Decoration.draws_badges h.badges
  rw [hsize] at hbadges
  exact (((Decoration.draws_captions h.captions).append
    (Decoration.draws_overlays h.overlays)).append (Decoration.draws_title h.title)).append hbadges

/-- The stages of a program, part by part. -/
theorem Fit.stages_eq (h : parts.Fit fonts composition) (hn : composition.clips ≠ []) :
    (parts.program composition).stages =
      composition.clipStages parts.background ++ (parts.program composition).joining ++
        parts.decorated.stages ++ composition.musicStages ++
        [.chain parts.decorated.output [pixelFormatFilter] (.named .videoOut)] := by
  have hclips : (placedFragments (composition.canvas parts.background) 0
      composition.clips).flatMap (·.stages) = composition.clipStages parts.background := by
    rw [placedFragments, List.flatMap_map]
    rfl
  have hmusic : stagesOf composition.soundtrack = composition.musicStages := by
    unfold Composition.soundtrack Composition.musicStages
    cases composition.music <;> rfl
  rw [h.joining_eq hn, ← hclips, ← hmusic]
  rfl

/-- Each layer is drawn by stages of the program. -/
theorem Fit.exists_drawing (h : parts.Fit fonts composition) (hn : composition.clips ≠ [])
    {layer : Layer} (hl : layer ∈ composition.layers) :
    ∃ drawing : Drawn, layer.DrawnBy (composition.scene fonts) drawing ∧
      ∀ stage ∈ drawing.stages, stage ∈ (parts.program composition).stages := by
  obtain ⟨drawn, hdrawn, hstages, -⟩ := h.draws
  obtain ⟨drawing, hd, hlayer⟩ := Layer.exists_drawing hdrawn layer hl
  refine ⟨drawing, hlayer, fun stage hs ↦ ?_⟩
  rw [h.stages_eq hn, hstages]
  exact List.mem_append_left _ (List.mem_append_left _ (List.mem_append_right _
    (List.mem_flatMap.mpr ⟨drawing, hd, hs⟩)))

/-- The stage of the music is part of the program. -/
theorem musicStage_mem (parts : Parts) {music : Music} (hm : composition.music = some music) :
    Soundtrack.musicStage music composition.clips.length composition.timeline.totalDuration
      (.named .audioOut) ∈ (parts.program composition).stages := by
  have hsome : Soundtrack.musicStage music composition.clips.length
      composition.timeline.totalDuration (.named .audioOut) ∈
        stagesOf composition.soundtrack := by
    rw [Composition.soundtrack, hm]
    exact List.mem_cons_self
  simp only [program, List.mem_append]
  exact .inl (.inr hsome)

end Parts

/-! ### Only decorations draw text -/

/-- The stages of the decorations stand together, and no other stage draws text. -/
theorem Parts.Fit.exists_stages_eq {fonts : FontResolver} {composition : Composition}
    {parts : Parts} (h : parts.Fit fonts composition) :
    ∃ before after,
      (parts.program composition).stages = before ++ parts.decorated.stages ++ after ∧
      (∀ stage ∈ before, stage.DrawsNoText) ∧ ∀ stage ∈ after, stage.DrawsNoText := by
  have hclips : ∀ stage ∈ (placedFragments (composition.canvas parts.background) 0
      composition.clips).flatMap (·.stages), stage.DrawsNoText :=
    fun stage hs ↦ (filtersIn_placedFragments _ _ _ stage hs).drawsNoText (by decide)
  have hjoined : ∀ stage ∈ parts.joined.stages, stage.DrawsNoText :=
    fun stage hs ↦ (h.joined.filtersIn stage hs).drawsNoText (by decide)
  have hmusic : ∀ stage ∈ stagesOf composition.soundtrack, stage.DrawsNoText :=
    fun stage hs ↦ (filtersIn_soundtrack composition stage hs).drawsNoText (by decide)
  have hformat : (Stage.chain parts.badges.output [pixelFormatFilter]
      (.named .videoOut)).DrawsNoText := (filtersIn_format _ _).drawsNoText (by decide)
  refine ⟨_, stagesOf composition.soundtrack ++
    [.chain parts.badges.output [pixelFormatFilter] (.named .videoOut)], ?_,
    List.forall_mem_append.mpr ⟨hclips, hjoined⟩,
    List.forall_mem_append.mpr ⟨hmusic, List.forall_mem_singleton.mpr hformat⟩⟩
  rw [← List.append_assoc]
  rfl

/-! ### The path of the stream -/

/-- From the joined stream a compiled program leads through one stage for each layer, in order, and
through the pixel format to its output. This is the only path, and beside it there are only the
sources of progress bars and the stages that place the clips, join them and make the soundtrack. -/
theorem compile_draws_layers {fonts : FontResolver} {composition : Composition} {program : Program}
    (h : composition.compile fonts = .ok program) :
    ∃ (background : String) (drawn : List Drawn) (last : Label),
      engineColor composition.backgroundColor = .ok background ∧
      List.Forall₂ (Layer.DrawnBy (composition.scene fonts)) composition.layers drawn ∧
      Leads program.joinedStream
        (drawn.map (·.stage) ++ [.chain last [pixelFormatFilter] program.videoOut])
        program.videoOut ∧
      (∀ path, Path program.stages program.joinedStream path program.videoOut ↔
        path = drawn.map (·.stage) ++ [.chain last [pixelFormatFilter] program.videoOut]) ∧
      program.stages =
        composition.clipStages background ++ program.joining ++ drawn.flatMap (·.stages) ++
          composition.musicStages ++ [.chain last [pixelFormatFilter] program.videoOut] := by
  obtain ⟨ha, parts, hfit, rfl⟩ := Composition.exists_parts_of_compile h
  have hn := ha.clips_ne_nil
  obtain ⟨drawn, hdrawn, hparts, hleads⟩ := hfit.draws
  have hstages := hfit.stages_eq hn
  rw [hparts] at hstages
  have hlast : Leads parts.decorated.output
      [.chain parts.decorated.output [pixelFormatFilter] (.named .videoOut)] (.named .videoOut) :=
    .single rfl rfl
  rw [← hfit.joinedStream_eq hn] at hleads
  have hpath := hleads.append hlast
  have hmem : ∀ stage ∈ drawn.map (·.stage) ++
      [.chain parts.decorated.output [pixelFormatFilter] (.named .videoOut)],
      stage ∈ (parts.program composition).stages := by
    rw [hstages]
    intro stage hs
    rcases List.mem_append.mp hs with hs | hs
    · obtain ⟨layer, hl, rfl⟩ := List.mem_map.mp hs
      have hdraw : layer.stage ∈ drawn.flatMap (·.stages) :=
        List.mem_flatMap.mpr ⟨layer, hl, List.mem_append_right _ List.mem_cons_self⟩
      exact List.mem_append_left _ (List.mem_append_left _ (List.mem_append_right _ hdraw))
    · exact List.mem_append_right _ hs
  refine ⟨parts.background, drawn, parts.decorated.output, hfit.background, hdrawn, hpath, ?_,
    hstages⟩
  intro path
  constructor
  · intro hp
    exact hpath.eq_of_path (hfit.wiring hn) hmem (hfit.isPad_joinedStream hn) List.mem_cons_self hp
  · rintro rfl
    exact hpath.path hmem

/-- Three clips with decorations of every kind, and a progress bar between two texts. -/
def decoratedClips : Composition :=
  { threeClips with
    title := some { text := "Best of" }
    ranking := some { countdown := true }
    captions := [{ clipIndex := 2, text := "last" }, { clipIndex := 0, text := "first" }]
    overlays :=
      [{ kind := .text, text := "live" }, { kind := .progressBar }, { kind := .watermark }] }

theorem compile_draws_layers_decoratedClips :
    ∃ program path, decoratedClips.compile (fun _ _ ↦ none) = .ok program ∧
      Leads program.joinedStream path program.videoOut ∧ path.length = 10 := by
  have ha : decoratedClips.Accepted := Composition.accepted_of_toOption (by decide +kernel)
  obtain ⟨parts, -, hp⟩ := ha.compile_eq_ok (by decide +kernel) fun _ _ ↦ none
  obtain ⟨background, drawn, last, -, hdrawn, hleads, -⟩ := compile_draws_layers hp
  refine ⟨_, _, hp, hleads, ?_⟩
  have hlayers : decoratedClips.layers.length = 9 := by decide +kernel
  rw [List.length_append, List.length_map, ← hdrawn.length_eq, hlayers, List.length_singleton]

end Montage
