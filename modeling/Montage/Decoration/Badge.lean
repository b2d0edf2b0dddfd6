import Montage.Decoration.Basic

/-!
# Ranking badges

A colored square with an ordinal for each clip, shown while the clip plays.
-/

namespace Montage.Decoration

open Montage.Numeric (Binary64)
open Montage.Graph
open Montage.Geometry (BadgePlacement badgePlacement roundHalfUp)

/-- The font size of an ordinal relative to the edge of its badge (`NUMBER_SCALE`). -/
def ordinalScale : Binary64 := 0.6

/-- The ordinal of a clip: counted up from 1, or down to 1. -/
def ordinal (countdown : Bool) (clips clip : Nat) : Nat :=
  if countdown then clips - clip else clip + 1

/-- A badge (`badge_filters`): its box, and the ordinal in the middle of it. -/
def badgeFilters (scene : Scene) (ranking : Ranking) (badge : BadgePlacement)
    (ordinal : Nat) (window : TimeWindow) : Except CompileError (List Filter) := do
  let squareColor ← engineColor ranking.color
  let textColor ← engineColor ranking.textColor
  return [
    ⟨"drawbox",
      [opt "x" (toString badge.x), opt "y" (toString badge.y), opt "w" (toString badge.size),
       opt "h" (toString badge.size), opt "color" squareColor, opt "t" "fill", enable window]⟩,
    drawText scene (toString ordinal) defaultFamily true
      [opt "fontsize" (toString (roundHalfUp (Binary64.ofInt badge.size * ordinalScale))),
       opt "fontcolor" textColor, opt "x" (centeredInBox badge.x badge.size "text_w").render,
       opt "y" (centeredInBox badge.y badge.size "text_h").render, enable window]]

def badgeStage (scene : Scene) (ranking : Ranking) (badge : BadgePlacement) (index : Nat)
    (window : TimeWindow) (input : Label) : Builder Fragment := do
  let output ← numbered .badge index
  let filters ← badgeFilters scene ranking badge
    (ordinal ranking.countdown scene.timeline.size index) window
  return .single (.chain input filters output) output

/-- The place of the badges of a ranking. -/
def badgePlace (scene : Scene) (ranking : Ranking) : Option BadgePlacement :=
  badgePlacement ranking.position ranking.size scene.width scene.height

/-- Draws a badge for each clip if the ranking is enabled (`build_ranking`). All of them have the
same place. -/
def badges (scene : Scene) (ranking : Option Ranking) (input : Label) : Builder Fragment :=
  match ranking with
  | some settings =>
    if settings.enabled then
      match badgePlace scene settings with
      | some badge =>
        Fragment.thread (badgeStage scene settings badge) 0 scene.timeline.windows input
      | none => throw .overflow
    else return .passthrough input
  | none => return .passthrough input

end Montage.Decoration
