import Montage.Decoration.Basic

/-!
# Titles

A title drawn throughout the composition, with an optional stroke around its letters.
-/

namespace Montage.Decoration

open Montage.Graph
open Montage.Geometry (centeredOn titlePlacement)

def strokeOptions (style : TitleStyle) : Except CompileError (List FilterOption) :=
  match style.strokeColor with
  | some color =>
    if 0 < style.strokeWidth then do
      return [opt "borderw" (toString style.strokeWidth),
        opt "bordercolor" (← engineColor color)]
    else return []
  | none => return []

def titleFilter (scene : Scene) (title : Title) : Except CompileError Filter := do
  let style := title.style
  let placement := titlePlacement title.position style.fontSize scene.width scene.height
  let color ← engineColor style.color
  let stroke ← strokeOptions style
  return drawText scene (escapeTitle title.text) style.fontFamily style.bold
    ([opt "fontsize" (toString placement.fontSize), opt "fontcolor" color,
      opt "x" (centeredOn placement.x).render, opt "y" (toString placement.y)] ++ stroke)

/-- Draws a title unless its text is blank (`build_title`). -/
def title (scene : Scene) (title : Option Title) (input : Label) : Builder Fragment :=
  match title with
  | some settings =>
    if Text.isBlankText settings.text then return .passthrough input
    else do
      let filter ← titleFilter scene settings
      let output ← named .title
      return .single (.chain input [filter] output) output
  | none => return .passthrough input

end Montage.Decoration
