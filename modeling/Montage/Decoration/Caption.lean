import Montage.Decoration.Basic

/-!
# Captions

One stage for each caption, gated to the window of its clip. Captions may fade at both edges of the
window or slide up into place.
-/

namespace Montage.Decoration

open Montage.Numeric (Binary64)
open Montage.Graph
open Montage.Geometry (captionY scaleToWidth)

/-- The length of the ramps of a fade or a slide, in seconds (`RAMP_SECS`). -/
def rampLength : Binary64 := 0.5

/-- How far a caption slides up, at the reference width (`SLIDE_DISTANCE`). -/
def slideDistance : Binary64 := 50

/-- The opacity of the box behind a caption (`BOX_OPACITY`). -/
def captionBoxOpacity : Binary64 := 0.6

/-- The time since the start of a window as a share of the ramp. -/
def rampIn (window : TimeWindow) : Expression :=
  .div (.group (.sub .time (.decimal window.start))) (.decimal rampLength)

def rampInEnd (window : TimeWindow) : Expression :=
  .add (.decimal window.start) (.decimal rampLength)

/-- The top of a caption that slides up by `travel` to `y` over the ramp. -/
def slideUp (window : TimeWindow) (y travel : Int) : Expression :=
  .ifElse (.lessThan .time (rampInEnd window))
    (.add (.whole y) (.mul (.whole travel) (.group (.sub (.whole 1) (rampIn window)))))
    (.whole y)

/-- The opacity of a caption that fades in and out at the edges of its window. -/
def fade (window : TimeWindow) : Expression :=
  .ifElse (.lessThan .time (rampInEnd window)) (rampIn window)
    (.ifElse (.greaterThan .time (.sub (.decimal window.stop) (.decimal rampLength)))
      (.div (.group (.sub (.decimal window.stop) .time)) (.decimal rampLength)) (.whole 1))

def captionTop (scene : Scene) (caption : Caption) (window : TimeWindow) : String :=
  let y := captionY caption.position scene.height
  match caption.animation with
  | .slideUp => quotedExpression (slideUp window y (scaleToWidth slideDistance scene.width))
  | _ => toString y

def captionFade (caption : Caption) (window : TimeWindow) : List FilterOption :=
  if caption.animation = .fade then [opt "alpha" (quotedExpression (fade window))] else []

/-- The text of a caption in its box, as long as its clip plays (`caption_filter`). -/
def captionFilter (scene : Scene) (caption : Caption) (window : TimeWindow) :
    Except CompileError Filter := do
  let color ← engineColor caption.color
  let boxColor ← engineColorWithOpacity caption.backgroundColor captionBoxOpacity
  return drawText scene (escapeText caption.text) defaultFamily false
    ([opt "fontsize" (toString (scaleToWidth caption.fontSize scene.width)),
      opt "fontcolor" color, opt "x" "(w-text_w)/2", opt "y" (captionTop scene caption window),
      opt "box" "1", opt "boxcolor" boxColor, opt "boxborderw" "20"] ++
      captionFade caption window ++ [enable window])

def captionStage (scene : Scene) (index : Nat) (caption : Caption) (input : Label) :
    Builder Fragment := do
  match scene.timeline.window? caption.clipIndex with
  | none => throw (.failure (.missingClip index caption.clipIndex))
  | some window =>
    let output ← numbered .caption index
    let filter ← captionFilter scene caption window
    return .single (.chain input [filter] output) output

/-- Draws the captions in order (`build_captions`). -/
def captions (scene : Scene) (captions : List Caption) (input : Label) : Builder Fragment :=
  Fragment.thread (captionStage scene) 0 captions input

end Montage.Decoration
