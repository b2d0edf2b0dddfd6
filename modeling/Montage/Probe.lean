import Montage.Json.Reader
import Montage.Machine
import Montage.MediaError
import Montage.Numeric.Numeral
import Montage.Text.Utf8

/-!
# Probing

What a source file holds, as reported by the prober in a JSON document.
-/

namespace Montage

open Montage.Numeric (Binary64 numeral? twoTo)
open Json

/-- What a render needs to know about a source file. -/
structure MediaInfo where
  duration : Binary64
  width : Nat
  height : Nat
  hasAudio : Bool
deriving DecidableEq

namespace MediaInfo

private def fields : List (RecordField MediaInfo) :=
  [.required "duration" decodeReal fun value m => { m with duration := value },
   .required "width" (decodeNat (twoTo 32)) fun value m => { m with width := value },
   .required "height" (decodeNat (twoTo 32)) fun value m => { m with height := value },
   .required "has_audio" decodeBool fun value m => { m with hasAudio := value }]

def decode : Decoder MediaInfo := decodeRecord ⟨0, 0, 0, false⟩ fields

def toJson (info : MediaInfo) : Json :=
  .record
    [("duration", .real info.duration), ("width", .integer info.width),
     ("height", .integer info.height), ("has_audio", .bool info.hasAudio)]

end MediaInfo

namespace Probe

/-- A stream of a probed file (`FfprobeStream`). -/
structure ProbedStream where
  codecType : String
  width : Option Nat := none
  height : Option Nat := none
  duration : Option String := none
deriving DecidableEq

/-- The prober's report on a file (`FfprobeOutput`): the duration of the container and the
streams. -/
structure Report where
  containerDuration : Option String
  streams : List ProbedStream := []
deriving DecidableEq

private def streamFields : List (RecordField ProbedStream) :=
  [.required "codec_type" decodeString fun value s => { s with codecType := value },
   .nullable "width" (decodeNat (twoTo 32)) fun value s => { s with width := value },
   .nullable "height" (decodeNat (twoTo 32)) fun value s => { s with height := value },
   .nullable "duration" decodeString fun value s => { s with duration := value }]

private def containerFields : List (RecordField (Option String)) :=
  [.nullable "duration" decodeString fun value _ => value]

private def reportFields : List (RecordField Report) :=
  [.required "format" (decodeRecord none containerFields)
     fun value r => { r with containerDuration := value },
   .defaulted "streams" (decodeList (decodeRecord { codecType := "" } streamFields))
     fun value r => { r with streams := value }]

def Report.decode : Decoder Report := decodeRecord { containerDuration := none } reportFields

/-- What a report says about a file with a video stream. The duration is that of the container, if
one is given, else that of the first video stream; a duration that is no number counts as zero. -/
def Report.info? (report : Report) : Option MediaInfo := do
  let video ← report.streams.find? (·.codecType == "video")
  let text := report.containerDuration <|> video.duration
  let duration := text.bind fun text => numeral? text.toList
  return {
    duration := duration.getD 0
    width := video.width.getD 0
    height := video.height.getD 0
    hasAudio := report.streams.any (·.codecType == "audio") }

/-- Reads the output of the prober (`parse_probe_output`). -/
def ofOutput (stdout : List UInt8) : Except MediaError MediaInfo := do
  let report ← ((Document.ofBytes ⟨stdout.toArray⟩).decode Report.decode).mapError .json
  match report.info? with
  | some info => return info
  | none => throw (.invalidComposition "No video stream found")

/-- What a prober is asked: to report on a file. -/
def proberArguments (path : FilePath) : List String :=
  ["-v", "quiet", "-print_format", "json", "-show_format", "-show_streams", path.text]

/-- Runs a prober on a file (`probe_media`). -/
def run (machine : Machine) (binary : String) (fs : FileSystem) (path : FilePath) :
    Except MediaError MediaInfo := do
  if !fs.pathExists path then throw (.fileNotFound path)
  let some program := machine.find? fs binary | throw (.proberNotFound binary)
  let some execute := program.run? | throw (.io FileFault.notExecutable.message)
  let result := execute (proberArguments path) fs
  if result.status.all (·.isSuccess) then ofOutput result.stdout
  else throw (.proberFailed ("FFprobe failed for " ++ path.text)
    (some (String.ofList (Text.decodeLossy result.stderr))))

end Probe

end Montage
