import Montage.FilePath
import Montage.Numeric.Binary64
import Montage.Quality

/-!
# Compositions

A composition lists the clips of a reel and everything drawn over them: a title, ranking badges,
captions, overlays and background music. Lengths are seconds and positions are percentages.
-/

namespace Montage

open Montage.Numeric (Binary64)

/-- A stretch of a source file (`ClipSpec`). -/
structure Clip where
  source : FilePath
  trimStart : Binary64
  duration : Binary64
deriving DecidableEq

/-- A point of the frame in percent of its width and height. -/
structure RelativePosition where
  x : Binary64
  y : Binary64
deriving DecidableEq

/-- How a title is drawn. Sizes are those of the preview at the reference width. -/
structure TitleStyle where
  fontFamily : String := "Arial"
  fontSize : Binary64 := 72
  color : String := "#FFFFFF"
  bold : Bool := false
  strokeColor : Option String := none
  strokeWidth : Nat := 0
deriving DecidableEq

/-- The style of a title that says nothing about it. -/
def TitleStyle.standard : TitleStyle where
  fontFamily := "Arial"
  fontSize := 72
  color := "#FFFFFF"
  bold := false
  strokeColor := none
  strokeWidth := 0

/-- A title shown throughout (`TitleSpec`). -/
structure Title where
  text : String
  style : TitleStyle := .standard
  position : RelativePosition := ⟨50, 10⟩
deriving DecidableEq

/-- The wish for a transition between adjacent clips (`TransitionConfig`). -/
structure TransitionSetting where
  name : String
  duration : Binary64 := 0.5
deriving DecidableEq

/-- The corner of the ranking badges (`RankingPosition`). -/
inductive BadgeCorner where
  | topLeft
  | topRight
  | bottomLeft
  | bottomRight
  | center
deriving DecidableEq

/-- Badges that number the clips (`RankingConfig`). -/
structure Ranking where
  enabled : Bool := true
  position : BadgeCorner := .topLeft
  size : Binary64 := 80
  color : String := "#FF3B30"
  textColor : String := "#FFFFFF"
  countdown : Bool := false
deriving DecidableEq

/-- The height at which a caption stands. -/
inductive CaptionPosition where
  | top
  | middle
  | bottom
deriving DecidableEq

/-- How a caption enters and leaves. -/
inductive CaptionAnimation where
  | still
  | fade
  | slideUp
deriving DecidableEq

/-- A text shown while one clip plays (`CaptionSpec`). -/
structure Caption where
  clipIndex : Nat
  text : String
  position : CaptionPosition := .bottom
  animation : CaptionAnimation := .still
  fontSize : Binary64 := 48
  color : String := "#FFFFFF"
  backgroundColor : String := "#000000"
deriving DecidableEq

inductive OverlayKind where
  | text
  | watermark
  | lowerThird
  | progressBar
deriving DecidableEq

/-- A decoration with its own time window (`OverlaySpec`). -/
structure Overlay where
  kind : OverlayKind
  text : String := ""
  start : Option Binary64 := none
  stop : Option Binary64 := none
  position : Option RelativePosition := none
  fontSize : Binary64 := 48
  color : String := "#FFFFFF"
  backgroundColor : String := "#1E88E5"
deriving DecidableEq

/-- Background music (`AudioConfig`). -/
structure Music where
  source : FilePath
  volume : Binary64 := 1
  fadeIn : Bool := false
  fadeOut : Bool := false
deriving DecidableEq

/-- A reel (`CompositionSpec`): clips in order on a colored canvas, with what is drawn and played
over them. -/
structure Composition where
  clips : List Clip
  title : Option Title := none
  backgroundColor : String := "#000000"
  videoHeightFraction : Binary64 := 0.7
  quality : Quality := .p1080
  transition : Option TransitionSetting := none
  ranking : Option Ranking := none
  captions : List Caption := []
  overlays : List Overlay := []
  music : Option Music := none
deriving DecidableEq

namespace Composition

/-- The lengths of the clips in order (`CompositionSpec.durations`). -/
def durations (composition : Composition) : List Binary64 := composition.clips.map (·.duration)

/-- The length of the composition (`CompositionSpec.total_duration`). -/
def totalDuration (composition : Composition) : Binary64 := Binary64.sum composition.durations

/-- The files the composition reads (`CompositionSpec.input_paths`): its clips in order, then its
music. -/
def inputPaths (composition : Composition) : List FilePath :=
  composition.clips.map (·.source) ++ (composition.music.map (·.source)).toList

end Composition

end Montage
