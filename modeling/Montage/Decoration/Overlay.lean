import Montage.Decoration.Basic

/-!
# Overlays

Decorations with their own time window: free text, a watermark, a lower third, or a progress bar
that fills over the whole composition.
-/

namespace Montage.Decoration

open Montage.Numeric (Binary64)
open Montage.Graph
open Montage.Geometry (absolutePoint centeredOn roundHalfUp scaleToWidth)

/-- The opacity of a watermark (`WATERMARK_OPACITY`). -/
def watermarkOpacity : Binary64 := 0.7

/-- The text of a watermark that has none (`WATERMARK_PLACEHOLDER`). -/
def watermarkPlaceholder : String := "LOGO"

/-- Top and height of a lower third as shares of the frame height (`LOWER_THIRD_TOP`,
`LOWER_THIRD_HEIGHT`). -/
def lowerThirdTop : Binary64 := 0.78

def lowerThirdHeight : Binary64 := 0.1

/-- The opacity of the box of a lower third (`LOWER_THIRD_OPACITY`). -/
def lowerThirdOpacity : Binary64 := 0.85

/-- The distance of the text of a lower third from the left, at the reference width
(`LOWER_THIRD_INSET`). -/
def lowerThirdInset : Binary64 := 40

/-- The height of a progress bar at the reference width (`PROGRESS_BAR_HEIGHT`). -/
def progressBarHeight : Binary64 := 12

/-- The window of an overlay; without bounds the whole composition (`overlay_window`). -/
def overlayWindow (scene : Scene) (overlay : Overlay) : TimeWindow :=
  ⟨(overlay.start.getD 0).max 0, overlay.stop.getD scene.timeline.totalDuration⟩

/-- The text of an overlay in the default font (`styled_text`). -/
def overlayText (scene : Scene) (text : String) (overlay : Overlay)
    (options : List FilterOption) : Filter :=
  drawText scene (escapeText text) defaultFamily false
    (opt "fontsize" (toString (scaleToWidth overlay.fontSize scene.width)) :: options)

/-- A text centered below its point (`text_filter`). -/
def freeText (scene : Scene) (overlay : Overlay) (window : TimeWindow) :
    Except CompileError (List Filter) := do
  let point := absolutePoint (overlay.position.getD ⟨50, 50⟩) scene.width scene.height
  let color ← engineColor overlay.color
  return [overlayText scene overlay.text overlay
    [opt "fontcolor" color, opt "x" (centeredOn point.1).render, opt "y" (toString point.2),
     enable window]]

/-- A text in the bottom right corner (`watermark_filter`). -/
def watermark (scene : Scene) (overlay : Overlay) (window : TimeWindow) :
    Except CompileError (List Filter) := do
  let text := if Text.isBlankText overlay.text then watermarkPlaceholder else overlay.text
  let color ← engineColorWithOpacity overlay.color watermarkOpacity
  return [overlayText scene text overlay
    [opt "fontcolor" color, opt "x" "w-text_w-20", opt "y" "h-text_h-20", enable window]]

/-- A box across the frame, and a text in it (`lower_third_filters`). -/
def lowerThird (scene : Scene) (overlay : Overlay) (window : TimeWindow) :
    Except CompileError (List Filter) := do
  let top := roundHalfUp (lowerThirdTop * .ofNat scene.height)
  let rows := roundHalfUp (lowerThirdHeight * .ofNat scene.height)
  let barColor ← engineColorWithOpacity overlay.backgroundColor lowerThirdOpacity
  let color ← engineColor overlay.color
  return [
    ⟨"drawbox",
      [opt "x" "0", opt "y" (toString top), opt "w" "iw", opt "h" (toString rows),
       opt "color" barColor, opt "t" "fill", enable window]⟩,
    overlayText scene overlay.text overlay
      [opt "fontcolor" color, opt "x" (toString (scaleToWidth lowerThirdInset scene.width)),
       opt "y" (centeredInBox top rows "text_h").render, enable window]]

/-- The left edge of a progress bar: it slides in from the left over the whole composition. -/
def progressBarLeft (total : Binary64) : Expression :=
  .add (.neg (.name "w"))
    (.mul (.name "W") (.call2 "min" (.div .time (.decimal total)) (.whole 1)))

/-- The stages of a progress bar (`progress_bar`): a source as wide as the frame, laid over the
input. -/
def progressBarStages (scene : Scene) (color : String) (input source output : Label) :
    List Stage :=
  let total := scene.timeline.totalDuration
  let rows := max 1 (scaleToWidth progressBarHeight scene.width)
  [.generator
    ⟨"color",
      [opt "c" color, opt "s" (toString scene.width ++ "x" ++ toString rows), opt "r" "30",
       opt "d" (Numeric.num total)]⟩
    source,
   ⟨[input, source],
    [⟨"overlay", [opt "x" (quotedExpression (progressBarLeft total)), opt "y" "H-h"]⟩],
    [output]⟩]

/-- The filters of an overlay that needs no second input. -/
def overlayFilters (scene : Scene) (overlay : Overlay) (window : TimeWindow) :
    Except CompileError (List Filter) :=
  match overlay.kind with
  | .text => freeText scene overlay window
  | .watermark => watermark scene overlay window
  | _ => lowerThird scene overlay window

def overlayStages (scene : Scene) (index : Nat) (overlay : Overlay) (input : Label) :
    Builder Fragment := do
  let output ← numbered .overlay index
  match overlay.kind with
  | .progressBar =>
    let source ← numbered .overlaySource index
    let color ← engineColor overlay.backgroundColor
    return ⟨progressBarStages scene color input source output, output⟩
  | _ =>
    let filters ← overlayFilters scene overlay (overlayWindow scene overlay)
    return .single (.chain input filters output) output

/-- Draws the overlays in order (`build_overlays`). -/
def overlays (scene : Scene) (overlays : List Overlay) (input : Label) : Builder Fragment :=
  Fragment.thread (overlayStages scene) 0 overlays input

end Montage.Decoration
