import Montage.Composition.Check
import Montage.Graph.Check
import Montage.SplitScreen

/-!
# Compile errors

Why a composition or a split screen has no program: the request is refused, or the program made
from it is not sound.
-/

namespace Montage

open Montage.Numeric (Binary64)

inductive CompileError where
  | composition (defect : Composition.Defect)
  | splitScreen (defect : SplitScreen.Defect)
  | color (text : String)
  | clipDuration (clip : Nat) (duration : Binary64)
  | missingClip (caption clip : Nat)
  | sourceDurations (primary secondary : Binary64)
  | graph (defect : Graph.Defect)
deriving DecidableEq

namespace CompileError

/-- The cause in words. -/
def reason : CompileError → String
  | composition defect => defect.message
  | splitScreen defect => defect.message
  | color text => "Invalid color: " ++ text
  | clipDuration clip duration => s!"Clip {clip} has invalid duration " ++ duration.toText
  | missingClip caption clip => s!"Caption {caption} references missing clip {clip}"
  | sourceDurations primary secondary =>
    "Sources must have a positive duration, got " ++ primary.toText ++ " and " ++
      secondary.toText
  | graph defect => defect.message

/-- Whether the program was at fault, not the request. -/
def isGraphDefect : CompileError → Bool
  | graph _ => true
  | _ => false

end CompileError

/-- A color in the engine's notation (`ffmpeg_color`). -/
def engineColor (text : String) : Except CompileError String :=
  match Color.engine? text with
  | some color => .ok color
  | none => .error (.color text)

/-- A color with an opacity, brought into `[0, 1]` (`ffmpeg_color_alpha`). -/
def engineColorWithOpacity (text : String) (opacity : Binary64) : Except CompileError String := do
  let color ← engineColor text
  let clamped := if opacity < 0 then 0 else if 1 < opacity then 1 else opacity
  return color ++ "@" ++ clamped.fixed 2

end Montage
