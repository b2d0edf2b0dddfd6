import Montage.Color
import Montage.Composition.Check
import Montage.Composition.Document

/-!
# Split screens

Two source videos stacked on one canvas, with the sound of both. Length and sound of a source may
be declared; what is not declared has to be probed.
-/

namespace Montage

open Montage.Numeric (Binary64)
open Json

/-- Two sources, the primary above the secondary (`DualSourceSpec`). -/
structure SplitScreen where
  primary : FilePath
  secondary : FilePath
  primaryVolume : Binary64 := 1
  secondaryVolume : Binary64 := 1
  primaryDuration : Option Binary64 := none
  secondaryDuration : Option Binary64 := none
  primaryHasAudio : Option Bool := none
  secondaryHasAudio : Option Bool := none
  backgroundColor : String := "#000000"
  quality : Quality := .p1080
deriving DecidableEq

namespace SplitScreen

/-- Why a split screen is not acceptable. -/
inductive Defect where
  | sourceMissing
  | volume (source : String)
  | duration (value : Binary64)
  | background (color : String)
deriving DecidableEq

def Defect.message : Defect → String
  | sourceMissing => "Exactly two source videos are required"
  | volume source => source ++ " volume must be non-negative"
  | duration value => "Source duration must be positive, got " ++ value.toText
  | background color => "Invalid background color: " ++ color

def inputPaths (screen : SplitScreen) : List FilePath := [screen.primary, screen.secondary]

/-- The length shown when both lengths are declared (`DualSourceSpec.total_duration`): the shorter
of the two. -/
def totalDuration? (screen : SplitScreen) : Option Binary64 :=
  match screen.primaryDuration, screen.secondaryDuration with
  | some a, some b => some (a.min b)
  | _, _ => none

def refuse (defect : Defect) (wrong : Bool) : Except Defect Unit :=
  if wrong then .error defect else .ok ()

def checkDuration (duration : Binary64) : Except Defect Unit :=
  refuse (.duration duration) (!Composition.isPositive duration)

/-- Looks for the first defect (`DualSourceSpec.validate`): of the sources, the volumes, the lengths
and the background. -/
def check (screen : SplitScreen) : Except Defect Unit := do
  refuse .sourceMissing (screen.primary.isEmpty || screen.secondary.isEmpty)
  refuse (.volume "primary") (!Composition.isNonNegative screen.primaryVolume)
  refuse (.volume "secondary") (!Composition.isNonNegative screen.secondaryVolume)
  screen.primaryDuration.forM checkDuration
  screen.secondaryDuration.forM checkDuration
  refuse (.background screen.backgroundColor) (!Color.isHex screen.backgroundColor)

private def fields : List (RecordField SplitScreen) :=
  [.required "primary" FilePath.decode fun value s => { s with primary := value },
   .required "secondary" FilePath.decode fun value s => { s with secondary := value },
   .defaulted "primaryVolume" decodeReal fun value s => { s with primaryVolume := value },
   .defaulted "secondaryVolume" decodeReal fun value s => { s with secondaryVolume := value },
   .defaulted "primaryDuration" (decodeOption decodeReal)
     fun value s => { s with primaryDuration := value },
   .defaulted "secondaryDuration" (decodeOption decodeReal)
     fun value s => { s with secondaryDuration := value },
   .defaulted "primaryHasAudio" (decodeOption decodeBool)
     fun value s => { s with primaryHasAudio := value },
   .defaulted "secondaryHasAudio" (decodeOption decodeBool)
     fun value s => { s with secondaryHasAudio := value },
   .defaulted "backgroundColor" decodeString fun value s => { s with backgroundColor := value },
   .defaulted "quality" Quality.decode fun value s => { s with quality := value }]

def decode : Decoder SplitScreen := decodeRecord { primary := ⟨""⟩, secondary := ⟨""⟩ } fields

def toJson (s : SplitScreen) : Json :=
  .record
    [("primary", s.primary.toJson), ("secondary", s.secondary.toJson),
     ("primaryVolume", .ofReal s.primaryVolume), ("secondaryVolume", .ofReal s.secondaryVolume),
     ("primaryDuration", .ofOption .ofReal s.primaryDuration),
     ("secondaryDuration", .ofOption .ofReal s.secondaryDuration),
     ("primaryHasAudio", .ofOption .bool s.primaryHasAudio),
     ("secondaryHasAudio", .ofOption .bool s.secondaryHasAudio),
     ("backgroundColor", .string s.backgroundColor), ("quality", s.quality.toJson)]

end SplitScreen

end Montage
