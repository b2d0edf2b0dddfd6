import Montage.Decoration.Badge
import Montage.Decoration.Caption
import Montage.Decoration.Overlay
import Montage.Decoration.Title
import Montage.Proofs.Composition.Acceptance
import Montage.Proofs.Graph.Segment

/-!
# What the decorations draw

The fragment of each decoration, with the labels that the pool gives it, and what the builders write
into its filters. An accepted decoration is always drawn, and what draws it is a segment from its
input to its output.
-/

namespace Montage

open Montage.Numeric (Binary64)
open Montage.Geometry (BadgePlacement absolutePoint centeredOn roundHalfUp scaleToWidth
  titlePlacement)
open Montage.Graph

/-- A color of an accepted composition has a notation for the engine. -/
theorem engineColor_eq_ok {text : String} (h : Color.isHex text = true) :
    ∃ color, engineColor text = .ok color := by
  rw [engineColor, Color.engine?_of_isHex h]
  exact ⟨_, rfl⟩

theorem engineColorWithOpacity_eq_ok {text : String} (h : Color.isHex text = true)
    (opacity : Binary64) : ∃ color, engineColorWithOpacity text opacity = .ok color := by
  obtain ⟨color, hc⟩ := engineColor_eq_ok h
  rw [engineColorWithOpacity, hc]
  exact ⟨_, rfl⟩

/-- No filter of the stage draws a text. -/
def Graph.Stage.DrawsNoText (stage : Stage) : Prop :=
  ∀ filter ∈ stage.filters, filter.name ≠ "drawtext"

/-- All filters of the stage have one of these names. -/
def Graph.Stage.FiltersIn (names : List String) (stage : Stage) : Prop :=
  ∀ filter ∈ stage.filters, filter.name ∈ names

theorem Graph.Stage.filtersIn_of_subset {stage : Stage} {names : List String}
    (h : stage.filters.map (·.name) ⊆ names) : stage.FiltersIn names :=
  fun _ hf ↦ h (List.mem_map_of_mem hf)

/-- The names of its filters tell whether a stage draws a text. -/
theorem Graph.Stage.FiltersIn.drawsNoText {stage : Stage} {names : List String}
    (h : stage.FiltersIn names) (hn : "drawtext" ∉ names) : stage.DrawsNoText :=
  fun filter hf hname ↦ hn (hname ▸ h filter hf)

namespace Decoration

/-- One chain from the input to the first label of a request. -/
def chained (input : Label) (filters : List Filter) (request : LabelRequest) : Fragment :=
  .single (.chain input filters (.signal request 0)) (.signal request 0)

theorem chained_segment {input : Label} {filters : List Filter} (request : LabelRequest)
    (hi : input.isPad = false) (hf : filters ≠ []) :
    Segment {request} [] [input] (chained input filters request).stages
      [(chained input filters request).output] := by
  have hinputs : ∀ l ∈ [input], l.isPad = false := by
    intro l hl
    rw [List.mem_singleton.mp hl]
    exact hi
  exact .single_of_signals request hinputs hf

variable {scene : Scene} {index : Nat} {input : Label} {fragment : Fragment}

/-- A caption is drawn by one filter, gated to the window of its clip. -/
inductive CaptionDrawn (scene : Scene) (index : Nat) (caption : Caption) (input : Label) :
    Fragment → Prop
  | drawn {window : TimeWindow} {filter : Filter} :
      scene.timeline.window? caption.clipIndex = some window →
      captionFilter scene caption window = .ok filter →
      CaptionDrawn scene index caption input (chained input [filter] ⟨.caption, some index⟩)

/-- A progress bar is laid over the input; any other overlay is one chain. -/
inductive OverlayDrawn (scene : Scene) (index : Nat) (overlay : Overlay) (input : Label) :
    Fragment → Prop
  | bar {color : String} :
      overlay.kind = .progressBar →
      engineColor overlay.backgroundColor = .ok color →
      OverlayDrawn scene index overlay input
        ⟨progressBarStages scene color input (.numbered .overlaySource index)
          (.numbered .overlay index), .numbered .overlay index⟩
  | chain {filters : List Filter} :
      overlay.kind ≠ .progressBar →
      overlayFilters scene overlay (overlayWindow scene overlay) = .ok filters →
      OverlayDrawn scene index overlay input (chained input filters ⟨.overlay, some index⟩)

/-- A title is drawn by one filter; without text there is nothing to draw. -/
inductive TitleDrawn (scene : Scene) (title : Option Title) (input : Label) : Fragment → Prop
  | hidden :
      (∀ settings ∈ title, Text.isBlankText settings.text = true) →
      TitleDrawn scene title input (.passthrough input)
  | drawn {settings : Title} {filter : Filter} :
      title = some settings →
      Text.isBlankText settings.text = false →
      titleFilter scene settings = .ok filter →
      TitleDrawn scene title input (chained input [filter] ⟨.title, none⟩)

/-- A badge is drawn at its place by two filters, gated to the window of its clip. -/
inductive BadgeDrawn (scene : Scene) (ranking : Ranking) (index : Nat) (window : TimeWindow)
    (input : Label) : Fragment → Prop
  | drawn {badge : BadgePlacement} {filters : List Filter} :
      badgePlace scene ranking = some badge →
      badgeFilters scene ranking badge (ordinal ranking.countdown scene.timeline.size index)
        window = .ok filters →
      BadgeDrawn scene ranking index window input (chained input filters ⟨.badge, some index⟩)

/-- An enabled ranking draws a badge for each clip. -/
inductive BadgesDrawn (scene : Scene) (ranking : Option Ranking) (input : Label) : Fragment → Prop
  | hidden :
      (∀ settings ∈ ranking, settings.enabled = false) →
      BadgesDrawn scene ranking input (.passthrough input)
  | drawn {settings : Ranking} {fragment : Fragment} :
      ranking = some settings →
      settings.enabled = true →
      Fragment.Threads (BadgeDrawn scene settings) 0 scene.timeline.windows input fragment →
      BadgesDrawn scene ranking input fragment

/-! ### What the builders write -/

/-- A caption is its text in a box, in the notations of two colors. -/
theorem exists_of_captionFilter {caption : Caption} {window : TimeWindow} {filter : Filter}
    (h : captionFilter scene caption window = .ok filter) :
    ∃ color boxColor,
      engineColor caption.color = .ok color ∧
      engineColorWithOpacity caption.backgroundColor captionBoxOpacity = .ok boxColor ∧
      filter = drawText scene (escapeText caption.text) defaultFamily false
        ([opt "fontsize" (toString (scaleToWidth caption.fontSize scene.width)),
          opt "fontcolor" color, opt "x" "(w-text_w)/2",
          opt "y" (captionTop scene caption window), opt "box" "1", opt "boxcolor" boxColor,
          opt "boxborderw" "20"] ++ captionFade caption window ++ [enable window]) := by
  obtain ⟨color, hcolor, h⟩ := exists_of_bind_eq_ok h
  obtain ⟨boxColor, hbox, h⟩ := exists_of_bind_eq_ok h
  exact ⟨color, boxColor, hcolor, hbox, (Except.ok.inj h).symm⟩

/-- What an overlay is drawn with that is one chain: its text, for a lower third after a box. -/
inductive OverlayWritten (scene : Scene) (overlay : Overlay) (window : TimeWindow) :
    List Filter → Prop
  | text {color : String} :
      overlay.kind = .text →
      engineColor overlay.color = .ok color →
      OverlayWritten scene overlay window
        [overlayText scene overlay.text overlay
          [opt "fontcolor" color,
           opt "x" (centeredOn (absolutePoint (overlay.position.getD ⟨50, 50⟩) scene.width
             scene.height).1).render,
           opt "y" (toString (absolutePoint (overlay.position.getD ⟨50, 50⟩) scene.width
             scene.height).2),
           enable window]]
  | watermark {color : String} :
      overlay.kind = .watermark →
      engineColorWithOpacity overlay.color watermarkOpacity = .ok color →
      OverlayWritten scene overlay window
        [overlayText scene
          (if Text.isBlankText overlay.text then watermarkPlaceholder else overlay.text) overlay
          [opt "fontcolor" color, opt "x" "w-text_w-20", opt "y" "h-text_h-20", enable window]]
  | lowerThird {barColor color : String} :
      overlay.kind = .lowerThird →
      engineColorWithOpacity overlay.backgroundColor lowerThirdOpacity = .ok barColor →
      engineColor overlay.color = .ok color →
      OverlayWritten scene overlay window
        [⟨"drawbox",
          [opt "x" "0", opt "y" (toString (roundHalfUp (lowerThirdTop * .ofNat scene.height))),
           opt "w" "iw", opt "h" (toString (roundHalfUp (lowerThirdHeight * .ofNat scene.height))),
           opt "color" barColor, opt "t" "fill", enable window]⟩,
         overlayText scene overlay.text overlay
          [opt "fontcolor" color, opt "x" (toString (scaleToWidth lowerThirdInset scene.width)),
           opt "y" (centeredInBox (roundHalfUp (lowerThirdTop * .ofNat scene.height))
             (roundHalfUp (lowerThirdHeight * .ofNat scene.height)) "text_h").render,
           enable window]]

theorem overlayWritten_of_overlayFilters {overlay : Overlay} {window : TimeWindow}
    {filters : List Filter} (hk : overlay.kind ≠ .progressBar)
    (h : overlayFilters scene overlay window = .ok filters) :
    OverlayWritten scene overlay window filters := by
  cases hkind : overlay.kind with
  | text =>
    simp only [overlayFilters, hkind] at h
    obtain ⟨color, hcolor, h⟩ := exists_of_bind_eq_ok h
    exact Except.ok.inj h ▸ .text hkind hcolor
  | watermark =>
    simp only [overlayFilters, hkind] at h
    obtain ⟨color, hcolor, h⟩ := exists_of_bind_eq_ok h
    exact Except.ok.inj h ▸ .watermark hkind hcolor
  | lowerThird =>
    simp only [overlayFilters, hkind] at h
    obtain ⟨barColor, hbar, h⟩ := exists_of_bind_eq_ok h
    obtain ⟨color, hcolor, h⟩ := exists_of_bind_eq_ok h
    exact Except.ok.inj h ▸ .lowerThird hkind hbar hcolor
  | progressBar => exact absurd hkind hk

/-- A stroke is the width and the color of a border, if there is one. -/
theorem strokeOptions_cases {style : TitleStyle} {options : List FilterOption}
    (h : strokeOptions style = .ok options) :
    options = [] ∨ ∃ text color, engineColor text = .ok color ∧
      options = [opt "borderw" (toString style.strokeWidth), opt "bordercolor" color] := by
  unfold strokeOptions at h
  split at h
  · next text _ =>
    split at h
    · obtain ⟨color, hcolor, h⟩ := exists_of_bind_eq_ok h
      exact Or.inr ⟨text, color, hcolor, (Except.ok.inj h).symm⟩
    · exact Or.inl (Except.ok.inj h).symm
  · exact Or.inl (Except.ok.inj h).symm

/-- A title is its text in its own font, with a stroke. -/
theorem exists_of_titleFilter {title : Title} {filter : Filter}
    (h : titleFilter scene title = .ok filter) :
    ∃ color stroke,
      engineColor title.style.color = .ok color ∧
      strokeOptions title.style = .ok stroke ∧
      filter = drawText scene (escapeTitle title.text) title.style.fontFamily title.style.bold
        ([opt "fontsize" (toString (titlePlacement title.position title.style.fontSize
            scene.width scene.height).fontSize),
          opt "fontcolor" color,
          opt "x" (centeredOn (titlePlacement title.position title.style.fontSize
            scene.width scene.height).x).render,
          opt "y" (toString (titlePlacement title.position title.style.fontSize
            scene.width scene.height).y)] ++ stroke) := by
  obtain ⟨color, hcolor, h⟩ := exists_of_bind_eq_ok h
  obtain ⟨stroke, hstroke, h⟩ := exists_of_bind_eq_ok h
  exact ⟨color, stroke, hcolor, hstroke, (Except.ok.inj h).symm⟩

/-- A badge is a square and its ordinal. -/
theorem exists_of_badgeFilters {ranking : Ranking} {badge : BadgePlacement} {ordinal : Nat}
    {window : TimeWindow} {filters : List Filter}
    (h : badgeFilters scene ranking badge ordinal window = .ok filters) :
    ∃ squareColor textColor,
      engineColor ranking.color = .ok squareColor ∧
      engineColor ranking.textColor = .ok textColor ∧
      filters =
        [⟨"drawbox",
          [opt "x" (toString badge.x), opt "y" (toString badge.y), opt "w" (toString badge.size),
           opt "h" (toString badge.size), opt "color" squareColor, opt "t" "fill",
           enable window]⟩,
         drawText scene (toString ordinal) defaultFamily true
          [opt "fontsize" (toString (roundHalfUp (Binary64.ofInt badge.size * ordinalScale))),
           opt "fontcolor" textColor, opt "x" (centeredInBox badge.x badge.size "text_w").render,
           opt "y" (centeredInBox badge.y badge.size "text_h").render, enable window]] := by
  obtain ⟨squareColor, hsquare, h⟩ := exists_of_bind_eq_ok h
  obtain ⟨textColor, htext, h⟩ := exists_of_bind_eq_ok h
  exact ⟨squareColor, textColor, hsquare, htext, (Except.ok.inj h).symm⟩

/-! ### Decorations draw texts and boxes -/

theorem name_of_captionFilter {caption : Caption} {window : TimeWindow} {filter : Filter}
    (h : captionFilter scene caption window = .ok filter) : filter.name = "drawtext" := by
  obtain ⟨color, boxColor, -, -, rfl⟩ := exists_of_captionFilter h
  rfl

theorem name_of_titleFilter {title : Title} {filter : Filter}
    (h : titleFilter scene title = .ok filter) : filter.name = "drawtext" := by
  obtain ⟨color, stroke, -, -, rfl⟩ := exists_of_titleFilter h
  rfl

theorem names_of_overlayFilters {overlay : Overlay} {window : TimeWindow} {filters : List Filter}
    (hk : overlay.kind ≠ .progressBar)
    (h : overlayFilters scene overlay window = .ok filters) :
    ∀ filter ∈ filters, filter.name ∈ ["drawtext", "drawbox"] := by
  have htext : "drawtext" ∈ ["drawtext", "drawbox"] := List.mem_cons_self
  have hbox : "drawbox" ∈ ["drawtext", "drawbox"] := List.mem_cons_of_mem _ List.mem_cons_self
  cases overlayWritten_of_overlayFilters hk h with
  | text => exact List.forall_mem_singleton.mpr htext
  | watermark => exact List.forall_mem_singleton.mpr htext
  | lowerThird => exact List.forall_mem_cons.mpr ⟨hbox, List.forall_mem_singleton.mpr htext⟩

theorem names_of_badgeFilters {ranking : Ranking} {badge : BadgePlacement} {ordinal : Nat}
    {window : TimeWindow} {filters : List Filter}
    (h : badgeFilters scene ranking badge ordinal window = .ok filters) :
    ∀ filter ∈ filters, filter.name ∈ ["drawtext", "drawbox"] := by
  obtain ⟨squareColor, textColor, -, -, rfl⟩ := exists_of_badgeFilters h
  exact List.forall_mem_cons.mpr ⟨List.mem_cons_of_mem _ List.mem_cons_self,
    List.forall_mem_singleton.mpr List.mem_cons_self⟩

/-- The bar of a progress bar is a color laid over the stream. -/
theorem filtersIn_progressBarStages (scene : Scene) (color : String)
    (input source output : Label) :
    ∀ stage ∈ progressBarStages scene color input source output,
      stage.FiltersIn ["color", "overlay"] :=
  List.forall_mem_cons.mpr ⟨Stage.filtersIn_of_subset (by decide : ["color"] ⊆ _),
    List.forall_mem_singleton.mpr (Stage.filtersIn_of_subset (by decide : ["overlay"] ⊆ _))⟩

/-! ### What is drawn is a segment -/

theorem filters_ne_nil_of_overlayFilters {overlay : Overlay} {window : TimeWindow}
    {filters : List Filter} (hk : overlay.kind ≠ .progressBar)
    (h : overlayFilters scene overlay window = .ok filters) : filters ≠ [] := by
  cases overlayWritten_of_overlayFilters hk h <;> exact List.cons_ne_nil _ _

theorem filters_ne_nil_of_badgeFilters {ranking : Ranking}
    {badge : BadgePlacement} {ordinal : Nat} {window : TimeWindow}
    {filters : List Filter} (h : badgeFilters scene ranking badge ordinal window = .ok filters) :
    filters ≠ [] := by
  obtain ⟨squareColor, textColor, -, -, rfl⟩ := exists_of_badgeFilters h
  exact List.cons_ne_nil _ _

theorem CaptionDrawn.segment {caption : Caption} (hi : input.isPad = false)
    (h : CaptionDrawn scene index caption input fragment) :
    Segment (requestsOf [.caption] index) [] [input] fragment.stages [fragment.output] := by
  cases h with
  | drawn =>
    rw [requestsOf_singleton]
    exact chained_segment _ hi (List.cons_ne_nil _ _)

private theorem progressBar_segment (scene : Scene) (color : String) (index : Nat)
    (hi : input.isPad = false) :
    Segment (requestsOf [.overlay, .overlaySource] index) [] [input]
      (progressBarStages scene color input (.numbered .overlaySource index)
        (.numbered .overlay index)) [.numbered .overlay index] where
  wired := by
    refine .cons (.refl [input]) (.cons ?_ (.refl _))
    simpa [Stage.signals, Stage.generator, hi] using List.Perm.swap _ _ []
  nodup := by
    simp [progressBarStages, written, Stage.generator, Label.numbered]
  issued := by
    simp [progressBarStages, written, Stage.generator, Label.numbered, requestsOf]
  pads_eq := by
    simp [progressBarStages, padsRead, Stage.pads, Stage.generator, hi]
  filters := by
    simp [progressBarStages, Stage.generator]

theorem OverlayDrawn.segment {overlay : Overlay} (hi : input.isPad = false)
    (h : OverlayDrawn scene index overlay input fragment) :
    Segment (requestsOf [.overlay, .overlaySource] index) [] [input] fragment.stages
      [fragment.output] := by
  cases h with
  | bar => exact progressBar_segment scene _ index hi
  | chain hk hf =>
    refine (chained_segment _ hi (filters_ne_nil_of_overlayFilters hk hf)).mono ?_
    rintro r rfl
    simp [requestsOf]

theorem TitleDrawn.segment {title : Option Title} (hi : input.isPad = false)
    (h : TitleDrawn scene title input fragment) :
    Segment (requestsFor [.title]) [] [input] fragment.stages [fragment.output] := by
  cases h with
  | hidden => exact .nil _ _
  | drawn =>
    refine (chained_segment _ hi (List.cons_ne_nil _ _)).mono ?_
    rintro r rfl
    exact List.mem_singleton.mpr rfl

theorem BadgeDrawn.segment {ranking : Ranking} {window : TimeWindow} (hi : input.isPad = false)
    (h : BadgeDrawn scene ranking index window input fragment) :
    Segment (requestsOf [.badge] index) [] [input] fragment.stages [fragment.output] := by
  cases h with
  | drawn _ hf =>
    rw [requestsOf_singleton]
    exact chained_segment _ hi (filters_ne_nil_of_badgeFilters hf)

/-- Items that draw on one stream make a segment together. -/
theorem threads_segment {α : Type} {shape : Nat → α → Label → Fragment → Prop}
    {roles : List Role} {items : List α}
    (hs : ∀ {index item input fragment}, input.isPad = false → shape index item input fragment →
      Segment (requestsOf roles index) [] [input] fragment.stages [fragment.output])
    (hi : input.isPad = false) (h : Fragment.Threads shape index items input fragment) :
    Segment (requestsFor roles) [] [input] fragment.stages [fragment.output] := by
  have hside : items.flatMap (fun _ ↦ ([] : List Label)) = [] := by simp
  have hseg := Fragment.Threads.segment (fun _ _ ↦ disjoint_requestsOf roles)
    (fun hi _ ↦ hs hi) hi (fun _ _ _ hl ↦ absurd hl List.not_mem_nil) h
  rw [hside] at hseg
  exact hseg.mono (requestsFrom_subset (requestsOf_subset roles) _)

theorem BadgesDrawn.segment {ranking : Option Ranking} (hi : input.isPad = false)
    (h : BadgesDrawn scene ranking input fragment) :
    Segment (requestsFor [.badge]) [] [input] fragment.stages [fragment.output] := by
  cases h with
  | hidden => exact .nil _ _
  | drawn _ _ ht => exact threads_segment BadgeDrawn.segment hi ht

/-! ### Accepted decorations are drawn -/

private theorem captionFilter_eq_ok {caption : Caption} {clips : Nat}
    (h : caption.Accepted clips) (scene : Scene) (window : TimeWindow) :
    ∃ filter, captionFilter scene caption window = .ok filter := by
  obtain ⟨color, hc⟩ := engineColor_eq_ok h.color
  obtain ⟨box, hb⟩ := engineColorWithOpacity_eq_ok h.backgroundColor captionBoxOpacity
  rw [captionFilter, hc, hb]
  exact ⟨_, rfl⟩

private theorem captionStage_yields {caption : Caption} (h : caption.Accepted scene.timeline.size)
    (index : Nat) (input : Label) :
    ∃ fragment, (captionStage scene index caption input).Yields (requestsOf [.caption] index)
      fragment ∧ CaptionDrawn scene index caption input fragment := by
  obtain ⟨window, hw⟩ : ∃ window, scene.timeline.window? caption.clipIndex = some window :=
    ⟨_, List.getElem?_eq_getElem h.clipIndex⟩
  obtain ⟨filter, hf⟩ := captionFilter_eq_ok h scene window
  refine ⟨_, ?_, .drawn hw hf⟩
  rw [captionStage, hw, requestsOf_singleton]
  exact Builder.Yields.bind_lift (Builder.yields_numbered .caption index) hf _

/-- Accepted captions are drawn one over the other. -/
theorem captions_yields (scene : Scene) {captions : List Caption}
    (h : ∀ caption ∈ captions, caption.Accepted scene.timeline.size) (input : Label) :
    ∃ fragment, (Decoration.captions scene captions input).Yields (requestsFor [.caption])
      fragment ∧ Fragment.Threads (CaptionDrawn scene) 0 captions input fragment := by
  have hstep := fun (index : Nat) (caption : Caption) (hc : caption ∈ captions) input ↦
    captionStage_yields (h caption hc) index input
  obtain ⟨fragment, hy, ht⟩ := Fragment.thread_yields
    (fun _ _ ↦ disjoint_requestsOf [.caption]) captions hstep 0 input
  exact ⟨fragment, hy.mono (requestsFrom_subset (requestsOf_subset _) 0), ht⟩

private theorem overlayFilters_eq_ok {overlay : Overlay} {total : Binary64}
    (h : overlay.Accepted total) (scene : Scene) (window : TimeWindow) :
    ∃ filters, overlayFilters scene overlay window = .ok filters := by
  obtain ⟨color, hc⟩ := engineColor_eq_ok h.color
  obtain ⟨pale, hp⟩ := engineColorWithOpacity_eq_ok h.color watermarkOpacity
  obtain ⟨bar, hb⟩ := engineColorWithOpacity_eq_ok h.backgroundColor lowerThirdOpacity
  unfold overlayFilters
  split
  · rw [freeText, hc]
    exact ⟨_, rfl⟩
  · rw [watermark, hp]
    exact ⟨_, rfl⟩
  · rw [lowerThird, hc, hb]
    exact ⟨_, rfl⟩

private theorem overlayStages_yields (scene : Scene) {overlay : Overlay} {total : Binary64}
    (h : overlay.Accepted total) (index : Nat) (input : Label) :
    ∃ fragment, (overlayStages scene index overlay input).Yields
      (requestsOf [.overlay, .overlaySource] index) fragment ∧
        OverlayDrawn scene index overlay input fragment := by
  have hout := Builder.yields_numbered .overlay index
  by_cases hk : overlay.kind = .progressBar
  · obtain ⟨color, hc⟩ := engineColor_eq_ok h.backgroundColor
    refine ⟨_, ?_, .bar hk hc⟩
    simp only [overlayStages, hk]
    have hsource := Builder.Yields.bind_lift (Builder.yields_numbered .overlaySource index) hc
      fun source color ↦ Fragment.mk
        (progressBarStages scene color input source (.numbered .overlay index))
        (.numbered .overlay index)
    refine Builder.Yields.mono (Builder.Yields.bind hout hsource ?_) ?_
    · rw [Set.disjoint_left]
      rintro r rfl hm
      injection hm with hr
      cases hr
    · rintro r (rfl | rfl) <;> simp [requestsOf]
  · obtain ⟨filters, hf⟩ := overlayFilters_eq_ok h scene (overlayWindow scene overlay)
    refine ⟨_, ?_, .chain hk hf⟩
    simp only [overlayStages]
    refine Builder.Yields.mono (Builder.Yields.bind_lift hout hf _) ?_
    rintro r rfl
    simp [requestsOf]

/-- Accepted overlays are drawn one over the other. -/
theorem overlays_yields (scene : Scene) {overlays : List Overlay} {total : Binary64}
    (h : ∀ overlay ∈ overlays, overlay.Accepted total) (input : Label) :
    ∃ fragment, (Decoration.overlays scene overlays input).Yields
      (requestsFor [.overlay, .overlaySource]) fragment ∧
        Fragment.Threads (OverlayDrawn scene) 0 overlays input fragment := by
  have hstep := fun (index : Nat) (overlay : Overlay) (ho : overlay ∈ overlays) input ↦
    overlayStages_yields scene (h overlay ho) index input
  obtain ⟨fragment, hy, ht⟩ := Fragment.thread_yields
    (fun _ _ ↦ disjoint_requestsOf [.overlay, .overlaySource]) overlays hstep 0 input
  exact ⟨fragment, hy.mono (requestsFrom_subset (requestsOf_subset _) 0), ht⟩

private theorem titleFilter_eq_ok {title : Title} (h : title.Accepted) (scene : Scene) :
    ∃ filter, titleFilter scene title = .ok filter := by
  obtain ⟨color, hc⟩ := engineColor_eq_ok h.color
  obtain ⟨stroke, hs⟩ : ∃ stroke, strokeOptions title.style = .ok stroke := by
    unfold strokeOptions
    cases hcolor : title.style.strokeColor with
    | none => exact ⟨_, rfl⟩
    | some text =>
      obtain ⟨color, ht⟩ := engineColor_eq_ok (h.strokeColor text hcolor)
      simp only [ht]
      split
      · exact ⟨_, rfl⟩
      · exact ⟨_, rfl⟩
  rw [titleFilter, hc, hs]
  exact ⟨_, rfl⟩

/-- An accepted title is drawn if it has a text. -/
theorem title_yields (scene : Scene) {title : Option Title}
    (h : ∀ settings ∈ title, settings.Accepted) (input : Label) :
    ∃ fragment, (Decoration.title scene title input).Yields (requestsFor [.title]) fragment ∧
      TitleDrawn scene title input fragment := by
  cases title with
  | none => exact ⟨_, Builder.yields_pure _ _, .hidden (by simp)⟩
  | some settings =>
    cases hb : Text.isBlankText settings.text with
    | true =>
      refine ⟨_, ?_, .hidden (by simpa using hb)⟩
      simp only [Decoration.title, hb]
      exact Builder.yields_pure _ _
    | false =>
      obtain ⟨filter, hf⟩ := titleFilter_eq_ok (h settings rfl) scene
      refine ⟨_, ?_, .drawn rfl hb hf⟩
      simp only [Decoration.title, hb]
      refine Builder.Yields.mono (Builder.Yields.lift_bind hf
        (Builder.Yields.bind_pure (Builder.yields_named .title) _)) ?_
      rintro r rfl
      exact List.mem_singleton.mpr rfl

private theorem badgeFilters_eq_ok {ranking : Ranking} (h : ranking.Accepted) (scene : Scene)
    (badge : BadgePlacement) (ordinal : Nat) (window : TimeWindow) :
    ∃ filters, badgeFilters scene ranking badge ordinal window = .ok filters := by
  obtain ⟨square, hs⟩ := engineColor_eq_ok h.color
  obtain ⟨text, ht⟩ := engineColor_eq_ok h.textColor
  rw [badgeFilters, hs, ht]
  exact ⟨_, rfl⟩

private theorem badgeStage_yields {scene : Scene} {ranking : Ranking} (h : ranking.Accepted)
    {badge : BadgePlacement} (hb : badgePlace scene ranking = some badge) (index : Nat)
    (window : TimeWindow) (input : Label) :
    ∃ fragment, (badgeStage scene ranking badge index window input).Yields
      (requestsOf [.badge] index) fragment ∧
        BadgeDrawn scene ranking index window input fragment := by
  obtain ⟨filters, hf⟩ := badgeFilters_eq_ok h scene badge
    (ordinal ranking.countdown scene.timeline.size index) window
  refine ⟨_, ?_, .drawn hb hf⟩
  rw [requestsOf_singleton]
  exact Builder.Yields.bind_lift (Builder.yields_numbered .badge index) hf _

/-- The badges of an accepted ranking are drawn one over the other if it is enabled and they have a
place. -/
theorem badges_yields {scene : Scene} {ranking : Option Ranking}
    (h : ∀ settings ∈ ranking, settings.Accepted)
    (hp : ∀ settings ∈ ranking, settings.enabled = true →
      ∃ badge, badgePlace scene settings = some badge) (input : Label) :
    ∃ fragment, (badges scene ranking input).Yields (requestsFor [.badge]) fragment ∧
      BadgesDrawn scene ranking input fragment := by
  cases ranking with
  | none => exact ⟨_, Builder.yields_pure _ _, .hidden (by simp)⟩
  | some settings =>
    cases he : settings.enabled with
    | false =>
      refine ⟨_, ?_, .hidden (by simpa using he)⟩
      simp only [badges, he]
      exact Builder.yields_pure _ _
    | true =>
      obtain ⟨badge, hb⟩ := hp settings rfl he
      have hstep := fun (index : Nat) (window : TimeWindow)
          (_ : window ∈ scene.timeline.windows) input ↦
        badgeStage_yields (h settings rfl) hb index window input
      obtain ⟨fragment, hy, ht⟩ := Fragment.thread_yields
        (fun _ _ ↦ disjoint_requestsOf [.badge]) scene.timeline.windows hstep 0 input
      refine ⟨fragment, ?_, .drawn rfl he ht⟩
      simp only [badges, he, hb]
      exact hy.mono (requestsFrom_subset (requestsOf_subset _) 0)

/-- Badges without a place are not drawn: what draws them halts. -/
theorem badges_halts {scene : Scene} {ranking : Option Ranking} {settings : Ranking}
    (hs : settings ∈ ranking) (he : settings.enabled = true)
    (hb : badgePlace scene settings = none) (input : Label) :
    (badges scene ranking input).Halts (requestsFor []) .overflow := by
  obtain rfl : ranking = some settings := hs
  simp only [badges, he, hb]
  exact Builder.halts_throw _ _

end Decoration

end Montage
