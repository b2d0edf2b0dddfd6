import Montage.Decoration.Badge
import Montage.Decoration.Caption
import Montage.Decoration.Overlay
import Montage.Decoration.Title
import Montage.Soundtrack
import Montage.Transition

/-!
# Compiling

The program of a composition: each clip is trimmed, fitted and placed on a canvas, the clips are
joined, the decorations are drawn in a fixed order, the music is added, and the pixel format is
normalized. The program of a split screen: both sources fitted and stacked.
-/

namespace Montage

open Montage.Numeric (Binary64 num)
open Montage.Graph

/-- Scales into a box, fills it up with the background, normalizes pixel shape and frame rate
(`fit_filters`). -/
def fitFilters (width height : Nat) (background : String) : List Filter :=
  [⟨"scale",
    [pos (toString width), pos (toString height),
     opt "force_original_aspect_ratio" "decrease"]⟩,
   ⟨"pad",
    [pos (toString width), pos (toString height), pos "(ow-iw)/2", pos "(oh-ih)/2",
     opt "color" background]⟩,
   ⟨"setsar", [pos "1"]⟩,
   ⟨"fps", [pos "30"]⟩]

/-- The pixel format of the output (`pixel_format`). -/
def pixelFormatFilter : Filter := ⟨"format", [pos "yuv420p"]⟩

/-- The frame that clips are placed on. -/
structure Canvas where
  width : Nat
  height : Nat
  area : Geometry.VideoArea
  background : String

def trimFilters (clip : Clip) : List Filter :=
  [⟨"trim", [opt "start" (num clip.trimStart), opt "duration" (num clip.duration)]⟩,
   ⟨"setpts", [pos "PTS-STARTPTS"]⟩]

def canvasFilter (canvas : Canvas) (duration : Binary64) : Filter :=
  ⟨"color",
    [opt "c" canvas.background, opt "s" (toString canvas.width ++ "x" ++ toString canvas.height),
     opt "r" "30", opt "d" (num duration)]⟩

/-- The stages that trim a clip, fit it and place it on a canvas of its length. -/
def placedStages (canvas : Canvas) (index : Nat) (clip : Clip)
    (clipLabel canvasLabel placed : Label) : List Stage :=
  [.chain (.ofVideo index)
    (trimFilters clip ++ fitFilters canvas.width canvas.area.height canvas.background)
    clipLabel,
   .generator (canvasFilter canvas clip.duration) canvasLabel,
   ⟨[canvasLabel, clipLabel],
    [⟨"overlay", [pos "0", pos (toString canvas.area.y), opt "shortest" "1"]⟩],
    [placed]⟩]

/-- Trims a clip, fits it and places it on a canvas of its length. -/
def placeClip (canvas : Canvas) (index : Nat) (clip : Clip) : Builder Fragment := do
  let clipLabel ← numbered .clip index
  let canvasLabel ← numbered .canvas index
  let placed ← numbered .placed index
  return ⟨placedStages canvas index clip clipLabel canvasLabel placed, placed⟩

/-- Places the clips, numbered from `index`. -/
def placeClips (canvas : Canvas) : Nat → List Clip → Builder (List Fragment)
  | _, [] => return []
  | index, clip :: rest => do
    let fragment ← placeClip canvas index clip
    return fragment :: (← placeClips canvas (index + 1) rest)

/-- Joins the next clip to what stands before the boundary with this number. -/
def joinNext (transition : Transition) (requested : Binary64) (timeline : Timeline)
    (index : Nat) (next current : Label) : Builder Fragment :=
  let left := (timeline.duration? index).getD 0
  let right := (timeline.duration? (index + 1)).getD 0
  transition.joinPair (Transition.clampDuration requested left right) left index current next

/-- Joins the placed clips (`join_clips`): one concatenation for cuts, else a boundary at a time
from the left. A clip on its own is passed on. -/
def joinClips (setting : Option TransitionSetting) (timeline : Timeline) (first : Label)
    (others : List Label) : Builder Fragment :=
  match others with
  | [] => return .passthrough first
  | _ :: _ =>
    match Transition.ofSetting setting with
    | .cut => do
      let output ← numbered .join 0
      return .single
        ⟨first :: others, [Transition.concat (others.length + 1)], [output]⟩ output
    | transition =>
      let requested := (setting.map (·.duration)).getD 0
      Fragment.thread (joinNext transition requested timeline) 0 others first

/-- Draws captions, overlays, title and badges, in this order. -/
def decorate (scene : Scene) (composition : Composition) (input : Label) : Builder Fragment := do
  let captions ← Decoration.captions scene composition.captions input
  let overlays ← Decoration.overlays scene composition.overlays captions.output
  let title ← Decoration.title scene composition.title overlays.output
  let badges ← Decoration.badges scene composition.ranking title.output
  return ⟨captions.stages ++ overlays.stages ++ title.stages ++ badges.stages, badges.output⟩

def musicFragment (music : Option Music) (input : Nat) (total : Binary64) :
    Builder (Option Fragment) :=
  match music with
  | some settings => some <$> Soundtrack.music settings input total
  | none => return none

def stagesOf (fragment : Option Fragment) : List Stage :=
  (fragment.map (·.stages)).getD []

/-- The program of a composition that passed its check, before the program is checked itself. -/
def buildProgram (fonts : FontResolver) (composition : Composition) (timeline : Timeline) :
    Builder Program := do
  let encoding := composition.quality.encoding
  let background ← engineColor composition.backgroundColor
  let canvas : Canvas :=
    { width := encoding.width
      height := encoding.height
      area := Geometry.videoArea composition.videoHeightFraction encoding.height
      background }
  let placed ← placeClips canvas 0 composition.clips
  match placed.map (·.output) with
  | [] => throw (.failure (.composition .noClips))
  | first :: others =>
    let joined ← joinClips composition.transition timeline first others
    let scene : Scene := ⟨encoding.width, encoding.height, timeline, fonts⟩
    let decorated ← decorate scene composition joined.output
    let total := timeline.totalDuration
    let music ← musicFragment composition.music composition.clips.length total
    let videoOut ← named .videoOut
    return {
      inputs := composition.clips.map (fun clip => ⟨clip.source, []⟩) ++
        (composition.music.map Soundtrack.musicInput).toList
      stages := placed.flatMap (·.stages) ++ joined.stages ++ decorated.stages ++ stagesOf music ++
        [.chain decorated.output [pixelFormatFilter] videoOut]
      videoOut
      audioOut := music.map (·.output)
      encoding
      totalDuration := total }

def checked (program : Program) : Except CompileError Program := do
  program.check.mapError .graph
  return program

/-- Compiles a composition (`CompositionCompiler.compile`). -/
def Composition.compile (fonts : FontResolver) (composition : Composition) :
    Except (Halt CompileError) Program := do
  composition.check.mapError fun defect => .failure (.composition defect)
  let timeline ← Timeline.ofDurations composition.durations
  checked (← (buildProgram fonts composition timeline).run' {})

/-- What is known about a source of a split screen. -/
structure SourceInfo where
  duration : Binary64
  hasAudio : Bool
deriving DecidableEq

/-- The stages that fit both sources and stack the first above the second. -/
def stackedStages (fit : List Filter) (upper lower stacked : Label) : List Stage :=
  [.chain (.ofVideo 0) fit upper, .chain (.ofVideo 1) fit lower,
   ⟨[upper, lower], [⟨"vstack", [opt "inputs" "2", opt "shortest" "1"]⟩], [stacked]⟩]

/-- The program of a split screen of this length that passed its check. -/
def buildSplitScreen (screen : SplitScreen) (primary secondary : SourceInfo) (total : Binary64) :
    Builder Program := do
  let encoding := screen.quality.encoding
  let background ← engineColor screen.backgroundColor
  let fit := fitFilters encoding.width (encoding.height / 2) background
  let upper ← numbered .source 0
  let lower ← numbered .source 1
  let stacked ← named .stack
  let audio ← Soundtrack.splitScreen ⟨screen.primaryVolume, primary.hasAudio⟩
    ⟨screen.secondaryVolume, secondary.hasAudio⟩
  let videoOut ← named .videoOut
  return {
    inputs := screen.inputPaths.map fun path => ⟨path, []⟩
    stages := stackedStages fit upper lower stacked ++ stagesOf audio ++
      [.chain stacked [pixelFormatFilter] videoOut]
    videoOut
    audioOut := audio.map (·.output)
    encoding
    totalDuration := total }

/-- Compiles a split screen, whose length is that of the shorter source
(`CompositionCompiler.compile_dual`). -/
def SplitScreen.compile (screen : SplitScreen) (primary secondary : SourceInfo) :
    Except (Halt CompileError) Program := do
  screen.check.mapError fun defect => .failure (.splitScreen defect)
  let total := primary.duration.min secondary.duration
  if !Composition.isPositive total then
    throw (.failure (.sourceDurations primary.duration secondary.duration))
  checked (← (buildSplitScreen screen primary secondary total).run' {})

end Montage
