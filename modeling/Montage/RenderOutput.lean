import Montage.Composition.Document
import Montage.Moment

/-!
# Render results

The name of a render and what is reported when it is finished.
-/

namespace Montage

open Montage.Numeric (Binary64 twoTo zeroPadded)
open Json

/-- Names a render and its output file. -/
structure RenderId where
  text : String
deriving DecidableEq

namespace RenderId

/-- The name of the output file (`RenderId.file_name`). -/
def fileName (id : RenderId) : String := "reel_" ++ id.text ++ ".mp4"

private def hexPair (b : UInt8) : String :=
  zeroPadded 2 (String.ofList (Nat.toDigits 16 b.toNat))

/-- The name made from sixteen random bytes, of which six bits are fixed: they mark the name as a
random one. -/
def ofRandom (bytes : List UInt8) : RenderId :=
  let marked := (bytes.modify 6 fun b => b % 16 + 0x40).modify 8 fun b => b % 64 + 0x80
  let group (first count : Nat) : String :=
    String.join (((marked.drop first).take count).map hexPair)
  ⟨"-".intercalate [group 0 4, group 4 2, group 6 2, group 8 2, group 10 6]⟩

def decode : Decoder RenderId := fun value => RenderId.mk <$> decodeString value

end RenderId

/-- A finished reel: where it is, how long it is, and when it was finished. -/
structure RenderOutput where
  url : String
  outputPath : FilePath
  duration : Binary64
  completedAt : Moment
deriving DecidableEq

namespace RenderOutput

private def decodeMoment : Decoder Moment
  | .string text =>
    match Moment.parse? text with
    | some moment => .ok moment
    | none => .error .mismatched
  | other => .error other.fault

private def fields : List (RecordField RenderOutput) :=
  [.required "url" decodeString fun value o => { o with url := value },
   .required "outputPath" FilePath.decode fun value o => { o with outputPath := value },
   .required "duration" decodeReal fun value o => { o with duration := value },
   .required "completedAt" decodeMoment fun value o => { o with completedAt := value }]

def decode : Decoder RenderOutput := decodeRecord ⟨"", ⟨""⟩, 0, ⟨0, 0, 0⟩⟩ fields

def toJson (output : RenderOutput) : Json :=
  .record
    [("url", .string output.url), ("outputPath", output.outputPath.toJson),
     ("duration", .ofReal output.duration), ("completedAt", .string output.completedAt.text)]

end RenderOutput

/-- A progress report: a percentage. -/
structure RenderProgress where
  percent : Nat
deriving DecidableEq

namespace RenderProgress

def decode : Decoder RenderProgress :=
  decodeRecord ⟨0⟩
    [.required "percent" (decodeNat (twoTo 8)) fun value p => { p with percent := value }]

def toJson (progress : RenderProgress) : Json :=
  .record [("percent", .integer progress.percent)]

end RenderProgress

end Montage
