import Montage.Numeric.Decimal
import Montage.Numeric.Numeral
import Montage.Text.Blank
import Montage.Json.Decoder

/-!
# Quality tiers and encoding

The three output qualities and the encoding each stands for: frame size, rate control, codecs.
-/

namespace Montage

open Montage.Numeric (Binary64 numeral? twoTo)

/-- An output quality (`QualityTier`). -/
inductive Quality where
  | p720
  | p1080
  | k4
deriving DecidableEq, Inhabited

/-- What the engine needs to know to encode the output (`EncodingProfile`). -/
structure Encoding where
  width : Nat
  height : Nat
  crf : Nat
  preset : String
  bitrate : String
  codec : String
  audioCodec : String
  audioBitrate : String
  frameRate : Nat
  pixelFormat : String
deriving DecidableEq

namespace Quality

def name : Quality → String
  | p720 => "720p"
  | p1080 => "1080p"
  | k4 => "4k"

/-- Lower case as far as the names of tiers need it: besides the ASCII letters only the Kelvin sign
has a lower case in ASCII. -/
private def lower (c : Char) : Char := if c = '\u212A' then 'k' else c.toLower

/-- The tier of a name in any case, white space around it aside (`QualityTier.from_name`). Unknown
names mean 1080p. -/
def ofName (name : String) : Quality :=
  match (Text.trim name).map lower with
  | "720p" => p720
  | "4k" => k4
  | _ => p1080

private def encodingOf (width height crf : Nat) (preset bitrate : String) : Encoding :=
  ⟨width, height, crf, preset, bitrate, "libx264", "aac", "192k", 30, "yuv420p"⟩

/-- The encoding of a tier (`QualityTier.profile`): portrait frames, H.264 video and AAC sound. -/
def encoding : Quality → Encoding
  | p720 => encodingOf 720 1280 23 "fast" "3M"
  | p1080 => encodingOf 1080 1920 18 "medium" "8M"
  | k4 => encodingOf 2160 3840 15 "slow" "20M"

/-- A tier is read from any string. -/
def decode : Json.Decoder Quality := fun value => ofName <$> Json.decodeString value

def toJson (quality : Quality) : Json := .string quality.name

/-- The name of a tier stands for it. -/
theorem ofName_name (quality : Quality) : ofName quality.name = quality := by
  cases quality <;> decide +kernel

end Quality

namespace Encoding

/-- A number without superfluous decimals (`trim_float`). -/
private def compact (x : Binary64) : String :=
  if x.isWhole then toString (x.toIntWithin (-(twoTo 63)) (twoTo 63 - 1)) else x.toText

/-- The size of the rate buffer (`EncodingProfile.buffer_size`): twice the number the bitrate starts
with, in the same unit. -/
def bufferSize (encoding : Encoding) : String :=
  let inNumber (c : Char) : Bool := c.isDigit || c == '.'
  let bitrate := encoding.bitrate.toList
  match numeral? (bitrate.takeWhile inNumber) with
  | some n => compact (n * 2) ++ String.ofList (bitrate.dropWhile inNumber)
  | none => encoding.bitrate

/-- The arguments that tell the engine how to encode (`EncodingProfile.to_ffmpeg_args`). -/
def arguments (encoding : Encoding) (withAudio : Bool) : List String :=
  ["-c:v", encoding.codec, "-preset", encoding.preset, "-crf", toString encoding.crf,
   "-b:v", encoding.bitrate, "-maxrate", encoding.bitrate, "-bufsize", encoding.bufferSize,
   "-r", toString encoding.frameRate, "-pix_fmt", encoding.pixelFormat,
   "-movflags", "+faststart"] ++
  if withAudio then ["-c:a", encoding.audioCodec, "-b:a", encoding.audioBitrate] else []

open Json in
private def fields : List (RecordField Encoding) :=
  [.required "width" (decodeNat (twoTo 32)) fun value e => { e with width := value },
   .required "height" (decodeNat (twoTo 32)) fun value e => { e with height := value },
   .required "crf" (decodeNat (twoTo 8)) fun value e => { e with crf := value },
   .required "preset" decodeString fun value e => { e with preset := value },
   .required "bitrate" decodeString fun value e => { e with bitrate := value },
   .required "codec" decodeString fun value e => { e with codec := value },
   .required "audio_codec" decodeString fun value e => { e with audioCodec := value },
   .required "audio_bitrate" decodeString fun value e => { e with audioBitrate := value },
   .required "frame_rate" (decodeNat (twoTo 32)) fun value e => { e with frameRate := value },
   .required "pixel_format" decodeString fun value e => { e with pixelFormat := value }]

/-- Reads an encoding; every field has to be given. -/
def decode : Json.Decoder Encoding := Json.decodeRecord Quality.p1080.encoding fields

def toJson (e : Encoding) : Json :=
  .record
    [("width", .integer e.width), ("height", .integer e.height), ("crf", .integer e.crf),
     ("preset", .string e.preset), ("bitrate", .string e.bitrate), ("codec", .string e.codec),
     ("audio_codec", .string e.audioCodec), ("audio_bitrate", .string e.audioBitrate),
     ("frame_rate", .integer e.frameRate), ("pixel_format", .string e.pixelFormat)]

end Encoding

end Montage
