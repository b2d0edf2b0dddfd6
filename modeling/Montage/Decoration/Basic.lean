import Montage.Font
import Montage.Geometry
import Montage.Graph.Builder
import Montage.Graph.Escaping
import Montage.Timeline

/-!
# Decorations

What the builders of decorations share: the scene they draw on, gates that open for a time window,
and text drawn literally. Each builder takes the label of a stream and returns the stages that draw
on it; a builder with nothing to draw passes the stream on.
-/

namespace Montage

open Montage.Numeric (Binary64 num)
open Montage.Graph

/-- The frame that decorations are drawn on, when each clip plays, and the fonts
(`DecorationContext`). -/
structure Scene where
  width : Nat
  height : Nat
  timeline : Timeline
  fonts : FontResolver

/-- Open from the start of a window up to but not including its end (`window_gate`). -/
def TimeWindow.gate (window : TimeWindow) : Expression :=
  .mul (.atLeast .time (.decimal window.start)) (.lessThan .time (.decimal window.stop))

namespace Decoration

/-- The family used where a decoration has no font setting (`DEFAULT_FONT_FAMILY`). -/
def defaultFamily : String := "Arial"

/-- A quoted expression. -/
def quotedExpression (e : Expression) : String := quoted e.render

/-- The option that gates a filter to a window. -/
def enable (window : TimeWindow) : FilterOption :=
  opt "enable" (quotedExpression window.gate)

/-- The font of a text (`DecorationContext.with_font`): its file if it is known, else its family. -/
def fontOption (scene : Scene) (family : String) (bold : Bool) : FilterOption :=
  match scene.fonts family bold with
  | some file => opt "fontfile" (quoted (escapePath file.text))
  | none => opt "font" (quoted (escapeText family))

/-- A filter that draws protected text literally in a font (`drawtext`). -/
def drawText (scene : Scene) (protectedText family : String) (bold : Bool)
    (options : List FilterOption) : Filter :=
  ⟨"drawtext",
   [opt "text" (quoted protectedText), opt "expansion" "none", fontOption scene family bold] ++
     options⟩

/-- The top of a text of unknown height that is centered in a box. -/
def centeredInBox (boxStart boxSize : Int) (textSize : String) : Expression :=
  .add (.whole boxStart) (.div (.group (.sub (.whole boxSize) (.name textSize))) (.whole 2))

end Decoration

end Montage
