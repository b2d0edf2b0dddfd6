import Montage.Proofs.Decoration.Layers
import Montage.Proofs.Graph.UserText

/-!
# What is read of drawn texts

The texts that the engine finds in a graph are the values of its text options. Each layer puts the
texts there that it draws, protected in the way of its kind.
-/

namespace Montage

open Montage.Graph
open Montage.Graph.Reader (Reading)

/-! ### The texts of a graph -/

namespace Graph

/-- The texts that a stage is told to draw: the first text option of each filter that draws text. -/
def Reader.Reading.drawnTexts (reading : Reading) : List (Option String) :=
  (reading.filters.filter (·.1 == "drawtext")).map fun filter ↦
    (filter.2.find? (·.1 == some "text")).map (·.2)

/-- The texts that the engine reads from a graph, in order. -/
def Reader.drawnTexts (graph : String) : Option (List (Option String)) :=
  (readings graph).map fun stages ↦ stages.flatMap (·.drawnTexts)

/-- What is read of the text option of a filter. -/
def Filter.drawnText (filter : Filter) : Option String :=
  ((filter.options.flatMap (·.found)).find? (·.1 == some "text")).map (·.2)

theorem Stage.drawnTexts_reading (stage : Stage) :
    stage.reading.drawnTexts =
      (stage.filters.filter (·.name == "drawtext")).map (·.drawnText) := by
  rw [reading, Reading.drawnTexts, List.filter_map, List.map_map]
  rfl

theorem Stage.DrawsNoText.drawnTexts_reading {stage : Stage} (h : stage.DrawsNoText) :
    stage.reading.drawnTexts = [] := by
  have hnone : stage.filters.filter (·.name == "drawtext") = [] := by
    rw [List.filter_eq_nil_iff]
    exact fun filter hf hname ↦ h filter hf (beq_iff_eq.mp hname)
  rw [Stage.drawnTexts_reading, hnone, List.map_nil]

end Graph

namespace Decoration

/-! ### The texts of a layer -/

/-- A text with the way in which it is protected. -/
structure Wording where
  escaper : Escaper
  text : String
deriving DecidableEq

/-- What is read of a text. -/
def Wording.shown (wording : Wording) : String := wording.escaper.shown wording.text

/-- The texts of an overlay. -/
def overlayWordings (overlay : Overlay) : List Wording :=
  match overlay.kind with
  | .progressBar => []
  | .watermark =>
    [⟨.text, if Text.isBlankText overlay.text then watermarkPlaceholder else overlay.text⟩]
  | .text | .lowerThird => [⟨.text, overlay.text⟩]

/-- The texts of a layer of a composition with so many clips. -/
def Layer.wordings (clips : Nat) : Layer → List Wording
  | .caption _ item => [⟨.text, item.text⟩]
  | .overlay _ item => overlayWordings item
  | .title item => [⟨.title, item.text⟩]
  | .badge index ranking => [⟨.text, toString (ordinal ranking.countdown clips index)⟩]

variable {scene : Scene}

/-- A text is read from the filter that draws it, whatever its font and its other options. -/
private theorem drawnText_drawText (scene : Scene) (wording : Wording) (family : String)
    (bold : Bool) (options : List FilterOption) :
    (drawText scene (wording.escaper.escape wording.text) family bold options).drawnText =
      some wording.shown := by
  have hkey : IsKey "text" := by decide
  rw [Filter.drawnText, drawText, List.cons_append, List.flatMap_cons,
    wording.escaper.found_opt hkey]
  rfl

private theorem drawnText_captionFilter {caption : Caption} {window : TimeWindow}
    {filter : Filter} (h : captionFilter scene caption window = .ok filter) :
    filter.drawnText = some (Wording.mk .text caption.text).shown := by
  obtain ⟨color, boxColor, -, -, rfl⟩ := exists_of_captionFilter h
  exact drawnText_drawText scene ⟨.text, caption.text⟩ _ _ _

private theorem drawnText_titleFilter {title : Title} {filter : Filter}
    (h : titleFilter scene title = .ok filter) :
    filter.drawnText = some (Wording.mk .title title.text).shown := by
  obtain ⟨color, stroke, -, -, rfl⟩ := exists_of_titleFilter h
  exact drawnText_drawText scene ⟨.title, title.text⟩ _ _ _

/-- An overlay that is one chain draws its text, after a box at most. -/
private theorem drawnTexts_overlayFilters {overlay : Overlay} {window : TimeWindow}
    {filters : List Filter} (hk : overlay.kind ≠ .progressBar)
    (h : overlayFilters scene overlay window = .ok filters) :
    (filters.filter (·.name == "drawtext")).map (·.drawnText) =
      (overlayWordings overlay).map fun wording ↦ some wording.shown := by
  cases overlayWritten_of_overlayFilters hk h with
  | text hkind =>
    rw [overlayWordings, hkind]
    exact congrArg ([·]) (drawnText_drawText scene ⟨.text, overlay.text⟩ _ _ _)
  | watermark hkind =>
    rw [overlayWordings, hkind]
    exact congrArg ([·]) (drawnText_drawText scene ⟨.text, _⟩ _ _ _)
  | lowerThird hkind =>
    rw [overlayWordings, hkind]
    exact congrArg ([·]) (drawnText_drawText scene ⟨.text, overlay.text⟩ _ _ _)

/-- The number of a badge needs no escaping. -/
private theorem escape_toString (n : Nat) : Escaper.text.escape (toString n) = toString n := by
  refine (Escaper.text.escape_eq_self_iff _).mpr (wellEscaped_of_forall (by decide) fun c hc ↦ ?_)
  have hsubset : Escaper.text.specials ⊆ ['\\', '\'', '[', ']', ',', ';', ':', '='] := by decide
  exact fun hm ↦ (isBareChar_iff.mp (bare_toString_nat n c hc)).2 (hsubset hm)

private theorem drawnTexts_badgeFilters {ranking : Ranking} {badge : Geometry.BadgePlacement}
    {ordinal : Nat} {window : TimeWindow} {filters : List Filter}
    (h : badgeFilters scene ranking badge ordinal window = .ok filters) :
    (filters.filter (·.name == "drawtext")).map (·.drawnText) =
      [some (Wording.mk .text (toString ordinal)).shown] := by
  obtain ⟨squareColor, textColor, -, -, rfl⟩ := exists_of_badgeFilters h
  have htext := drawnText_drawText scene ⟨.text, toString ordinal⟩ defaultFamily true
  rw [escape_toString] at htext
  exact congrArg ([·]) (htext _)

private theorem drawnTexts_chain {input output : Label} {filter : Filter}
    (h : filter.name = "drawtext") :
    (Stage.chain input [filter] output).reading.drawnTexts = [filter.drawnText] := by
  have hall : [filter].filter (·.name == "drawtext") = [filter] :=
    List.filter_cons_of_pos (beq_iff_eq.mpr h)
  exact (Stage.drawnTexts_reading _).trans (congrArg _ hall)

/-- The stages of a layer draw its texts. -/
theorem Layer.DrawnBy.drawnTexts {layer : Layer} {drawn : Drawn}
    (h : layer.DrawnBy scene drawn) :
    drawn.stages.flatMap (·.reading.drawnTexts) =
      (layer.wordings scene.timeline.size).map fun wording ↦ some wording.shown := by
  cases h with
  | caption _ hf hname =>
    rw [Drawn.stages, List.nil_append, List.flatMap_singleton, drawnTexts_chain hname,
      drawnText_captionFilter hf]
    rfl
  | @bar index _ color _ _ input hk _ hstages =>
    have hbar := filtersIn_progressBarStages scene color input (.numbered .overlaySource index)
      (.numbered .overlay index)
    rw [hstages] at hbar
    rw [Layer.wordings, overlayWordings, hk, List.map_nil, List.flatMap_eq_nil_iff]
    exact fun stage hs ↦ ((hbar stage hs).drawsNoText (by decide)).drawnTexts_reading
  | overlay hk hf =>
    rw [Drawn.stages, List.nil_append, List.flatMap_singleton, Stage.drawnTexts_reading]
    exact drawnTexts_overlayFilters hk hf
  | title hf =>
    rw [Drawn.stages, List.nil_append, List.flatMap_singleton,
      drawnTexts_chain (name_of_titleFilter hf), drawnText_titleFilter hf]
    rfl
  | badge _ _ hf =>
    rw [Drawn.stages, List.nil_append, List.flatMap_singleton, Stage.drawnTexts_reading]
    exact drawnTexts_badgeFilters hf

/-- Layers that are drawn one over the other are read one after the other. -/
theorem drawnTexts_of_forall₂ {layers : List Layer} {drawn : List Drawn}
    (h : List.Forall₂ (Layer.DrawnBy scene) layers drawn) :
    (drawn.flatMap (·.stages)).flatMap (·.reading.drawnTexts) =
      (layers.flatMap (·.wordings scene.timeline.size)).map fun wording ↦ some wording.shown := by
  induction h with
  | nil => rfl
  | cons hfirst _ ih =>
    rw [List.flatMap_cons, List.flatMap_append, hfirst.drawnTexts, ih, List.flatMap_cons,
      List.map_append]

end Decoration

end Montage
