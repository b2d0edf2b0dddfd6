import Montage.Color
import Montage.Composition.Basic
import Montage.Text.Quoted

/-!
# Checking compositions

What makes a composition unacceptable, in the order in which the defects are looked for, and the
wording of each.
-/

namespace Montage.Composition

open Montage.Numeric (Binary64)

/-- A part of a composition that draws text. -/
inductive Part where
  | title
  | caption (index : Nat)
  | overlay (index : Nat)
deriving DecidableEq

/-- A color setting of a composition other than its background. -/
inductive ColorSetting where
  | text (part : Part)
  | stroke
  | box (part : Part)
  | badge
  | badgeText
deriving DecidableEq

/-- Why a composition is not acceptable. -/
inductive Defect where
  | noClips
  | noSource (clip : Nat)
  | clipDuration (clip : Nat) (duration : Binary64)
  | trimStart (clip : Nat)
  | videoHeightFraction (fraction : Binary64)
  | background (color : String)
  | position (part : Part)
  | fontSize (part : Part) (size : Binary64)
  | color (setting : ColorSetting) (value : String)
  | badgeSize
  | unknownClip (clip count : Nat)
  | windowRange (overlay : Nat)
  | windowOrder (overlay : Nat)
  | windowLate (overlay : Nat) (start total : Binary64)
  | noMusicSource
  | musicVolume
deriving DecidableEq

def Part.name : Part → String
  | title => "Title"
  | caption index => s!"Caption {index}"
  | overlay index => s!"Overlay {index}"

def ColorSetting.name : ColorSetting → String
  | text part => part.name ++ " color"
  | stroke => "Title stroke color"
  | box part => part.name ++ " background color"
  | badge => "Ranking color"
  | badgeText => "Ranking text color"

def positionOwner : Part → String
  | .title => "title"
  | _ => "overlay"

def Defect.message : Defect → String
  | noClips => "At least one clip is required"
  | noSource clip => s!"Clip {clip} has no source file"
  | clipDuration clip duration =>
    s!"Clip {clip} duration must be positive, got " ++ duration.toText
  | trimStart clip => s!"Clip {clip} trim start must be non-negative"
  | videoHeightFraction fraction =>
    "Video height fraction must be in (0, 1], got " ++ fraction.toText
  | background value => "Invalid background color: " ++ value
  | position part => positionOwner part ++ " position must be within 0-100%"
  | fontSize part size => part.name ++ " font size must be positive, got " ++ size.toText
  | color setting value => setting.name ++ " must be #RRGGBB, got " ++ Text.quoted value
  | badgeSize => "Ranking badge size must be positive"
  | unknownClip clip count => s!"Caption references clip {clip} but only {count} clips exist"
  | windowRange overlay => s!"Overlay {overlay} window must be finite and non-negative"
  | windowOrder overlay => s!"Overlay {overlay} start must be before end"
  | windowLate overlay start total =>
    s!"Overlay {overlay} starts at " ++ start.toText ++ " but the composition ends at " ++
      total.toText
  | noMusicSource => "Background audio has no source file"
  | musicVolume => "Background audio volume must be non-negative"

def refuse (defect : Defect) (wrong : Bool) : Except Defect Unit :=
  if wrong then .error defect else .ok ()

/-- A finite number above zero. -/
def isPositive (x : Binary64) : Bool := x.isFinite && 0 < x

/-- A finite number not below zero. -/
def isNonNegative (x : Binary64) : Bool := x.isFinite && 0 ≤ x

def isPercentage (x : Binary64) : Bool := 0 ≤ x && x ≤ 100

def checkClip (index : Nat) (clip : Clip) : Except Defect Unit := do
  refuse (.noSource index) clip.source.isEmpty
  refuse (.clipDuration index clip.duration) (!isPositive clip.duration)
  refuse (.trimStart index) (!isNonNegative clip.trimStart)

def checkPosition (part : Part) (position : RelativePosition) : Except Defect Unit :=
  refuse (.position part) (!(isPercentage position.x && isPercentage position.y))

/-- A font size is a positive number (`check_font_size`). -/
def checkFontSize (part : Part) (size : Binary64) : Except Defect Unit :=
  refuse (.fontSize part size) (!isPositive size)

/-- A color is written as `#RRGGBB` (`check_color`). -/
def checkColor (setting : ColorSetting) (value : String) : Except Defect Unit :=
  refuse (.color setting value) (!Color.isHex value)

def checkTitle (title : Title) : Except Defect Unit := do
  checkPosition .title title.position
  checkFontSize .title title.style.fontSize
  checkColor (.text .title) title.style.color
  title.style.strokeColor.forM (checkColor .stroke)

def checkRanking (ranking : Ranking) : Except Defect Unit := do
  refuse .badgeSize (!isPositive ranking.size)
  checkColor .badge ranking.color
  checkColor .badgeText ranking.textColor

def checkCaption (clipCount index : Nat) (caption : Caption) : Except Defect Unit := do
  refuse (.unknownClip caption.clipIndex clipCount) (clipCount ≤ caption.clipIndex)
  checkFontSize (.caption index) caption.fontSize
  checkColor (.text (.caption index)) caption.color
  checkColor (.box (.caption index)) caption.backgroundColor

def checkOverlay (total : Binary64) (index : Nat) (overlay : Overlay) :
    Except Defect Unit := do
  let start := overlay.start.getD 0
  let stop := overlay.stop.getD total
  refuse (.windowRange index) (!(isNonNegative start && stop.isFinite))
  refuse (.windowOrder index) (stop ≤ start)
  refuse (.windowLate index start total) (total ≤ start)
  overlay.position.forM (checkPosition (.overlay index))
  checkFontSize (.overlay index) overlay.fontSize
  checkColor (.text (.overlay index)) overlay.color
  checkColor (.box (.overlay index)) overlay.backgroundColor

def checkMusic (music : Music) : Except Defect Unit := do
  refuse .noMusicSource music.source.isEmpty
  refuse .musicVolume (!isNonNegative music.volume)

def checkEach {α : Type} (check : Nat → α → Except Defect Unit) (index : Nat) :
    List α → Except Defect Unit
  | [] => .ok ()
  | item :: rest => do
    check index item
    checkEach check (index + 1) rest

/-- Looks for the first defect (`CompositionSpec.validate`): of the clips, the frame, the title, the
ranking, the captions, the overlays and the music, in this order. -/
def check (composition : Composition) : Except Defect Unit := do
  refuse .noClips composition.clips.isEmpty
  checkEach checkClip 0 composition.clips
  let fraction := composition.videoHeightFraction
  refuse (.videoHeightFraction fraction) (!(0 < fraction && fraction ≤ 1))
  refuse (.background composition.backgroundColor) (!Color.isHex composition.backgroundColor)
  composition.title.forM checkTitle
  composition.ranking.forM checkRanking
  checkEach (checkCaption composition.clips.length) 0 composition.captions
  checkEach (checkOverlay composition.totalDuration) 0 composition.overlays
  composition.music.forM checkMusic

end Montage.Composition
