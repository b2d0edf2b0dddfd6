import Montage.Composition.Basic

/-!
# Compositions as documents

The wire form of compositions: which names the fields have, which may be absent and what they then
are. Writing shows every field, reading accepts any subset with the defaults of the types.
-/

namespace Montage

open Montage.Numeric (twoTo)
open Json

namespace FilePath

def decode : Decoder FilePath := fun value => FilePath.mk <$> decodeString value

def toJson (path : FilePath) : Json := .string path.text

end FilePath

namespace RelativePosition

private def fields : List (RecordField RelativePosition) :=
  [.required "x" decodeReal fun value p => { p with x := value },
   .required "y" decodeReal fun value p => { p with y := value }]

def decode : Decoder RelativePosition := decodeRecord ⟨0, 0⟩ fields

def toJson (position : RelativePosition) : Json :=
  .record [("x", .ofReal position.x), ("y", .ofReal position.y)]

end RelativePosition

namespace Clip

private def fields : List (RecordField Clip) :=
  [.required "source" FilePath.decode fun value c => { c with source := value },
   .defaulted "trimStart" decodeReal fun value c => { c with trimStart := value },
   .required "duration" decodeReal fun value c => { c with duration := value }]

def decode : Decoder Clip := decodeRecord ⟨⟨""⟩, 0, 0⟩ fields

def toJson (clip : Clip) : Json :=
  .record
    [("source", clip.source.toJson), ("trimStart", .ofReal clip.trimStart),
     ("duration", .ofReal clip.duration)]

end Clip

namespace TitleStyle

private def fields : List (RecordField TitleStyle) :=
  [.defaulted "fontFamily" decodeString fun value s => { s with fontFamily := value },
   .defaulted "fontSize" decodeReal fun value s => { s with fontSize := value },
   .defaulted "color" decodeString fun value s => { s with color := value },
   .defaulted "bold" decodeBool fun value s => { s with bold := value },
   .defaulted "strokeColor" (decodeOption decodeString)
     fun value s => { s with strokeColor := value },
   .defaulted "strokeWidth" (decodeNat (twoTo 32)) fun value s => { s with strokeWidth := value }]

def decode : Decoder TitleStyle := decodeRecord {} fields

def toJson (style : TitleStyle) : Json :=
  .record
    [("fontFamily", .string style.fontFamily), ("fontSize", .ofReal style.fontSize),
     ("color", .string style.color), ("bold", .bool style.bold),
     ("strokeColor", .ofOption .string style.strokeColor),
     ("strokeWidth", .integer style.strokeWidth)]

end TitleStyle

namespace Title

private def fields : List (RecordField Title) :=
  [.required "text" decodeString fun value t => { t with text := value },
   .defaulted "style" TitleStyle.decode fun value t => { t with style := value },
   .defaulted "position" RelativePosition.decode fun value t => { t with position := value }]

def decode : Decoder Title := decodeRecord { text := "" } fields

def toJson (title : Title) : Json :=
  .record
    [("text", .string title.text), ("style", title.style.toJson),
     ("position", title.position.toJson)]

end Title

namespace TransitionSetting

private def fields : List (RecordField TransitionSetting) :=
  [.required "type" decodeString fun value t => { t with name := value },
   .defaulted "duration" decodeReal fun value t => { t with duration := value }]

def decode : Decoder TransitionSetting := decodeRecord { name := "" } fields

def toJson (setting : TransitionSetting) : Json :=
  .record [("type", .string setting.name), ("duration", .ofReal setting.duration)]

end TransitionSetting

namespace BadgeCorner

/-- The corners by name. -/
def named : List (String × BadgeCorner) :=
  [("top-left", topLeft), ("top-right", topRight), ("bottom-left", bottomLeft),
   ("bottom-right", bottomRight), ("center", center)]

def name : BadgeCorner → String
  | topLeft => "top-left"
  | topRight => "top-right"
  | bottomLeft => "bottom-left"
  | bottomRight => "bottom-right"
  | center => "center"

def decode : Decoder BadgeCorner := decodeChoice named

def toJson (corner : BadgeCorner) : Json := .string corner.name

end BadgeCorner

namespace Ranking

private def fields : List (RecordField Ranking) :=
  [.defaulted "enabled" decodeBool fun value r => { r with enabled := value },
   .defaulted "position" BadgeCorner.decode fun value r => { r with position := value },
   .defaulted "size" decodeReal fun value r => { r with size := value },
   .defaulted "color" decodeString fun value r => { r with color := value },
   .defaulted "textColor" decodeString fun value r => { r with textColor := value },
   .defaulted "countdown" decodeBool fun value r => { r with countdown := value }]

def decode : Decoder Ranking := decodeRecord {} fields

def toJson (ranking : Ranking) : Json :=
  .record
    [("enabled", .bool ranking.enabled), ("position", ranking.position.toJson),
     ("size", .ofReal ranking.size), ("color", .string ranking.color),
     ("textColor", .string ranking.textColor), ("countdown", .bool ranking.countdown)]

end Ranking

namespace CaptionPosition

def named : List (String × CaptionPosition) :=
  [("top", top), ("middle", middle), ("bottom", bottom)]

def name : CaptionPosition → String
  | top => "top"
  | middle => "middle"
  | bottom => "bottom"

def decode : Decoder CaptionPosition := decodeChoice named

def toJson (position : CaptionPosition) : Json := .string position.name

end CaptionPosition

namespace CaptionAnimation

def named : List (String × CaptionAnimation) :=
  [("none", still), ("fade", fade), ("slide-up", slideUp)]

def name : CaptionAnimation → String
  | still => "none"
  | fade => "fade"
  | slideUp => "slide-up"

def decode : Decoder CaptionAnimation := decodeChoice named

def toJson (animation : CaptionAnimation) : Json := .string animation.name

end CaptionAnimation

namespace Caption

private def fields : List (RecordField Caption) :=
  [.required "clipIndex" (decodeNat (twoTo 64)) fun value c => { c with clipIndex := value },
   .required "text" decodeString fun value c => { c with text := value },
   .defaulted "position" CaptionPosition.decode fun value c => { c with position := value },
   .defaulted "animation" CaptionAnimation.decode fun value c => { c with animation := value },
   .defaulted "fontSize" decodeReal fun value c => { c with fontSize := value },
   .defaulted "color" decodeString fun value c => { c with color := value },
   .defaulted "backgroundColor" decodeString fun value c => { c with backgroundColor := value }]

def decode : Decoder Caption := decodeRecord { clipIndex := 0, text := "" } fields

def toJson (caption : Caption) : Json :=
  .record
    [("clipIndex", .integer caption.clipIndex), ("text", .string caption.text),
     ("position", caption.position.toJson), ("animation", caption.animation.toJson),
     ("fontSize", .ofReal caption.fontSize), ("color", .string caption.color),
     ("backgroundColor", .string caption.backgroundColor)]

end Caption

namespace OverlayKind

def named : List (String × OverlayKind) :=
  [("text", text), ("watermark", watermark), ("lower-third", lowerThird),
   ("progress-bar", progressBar)]

def name : OverlayKind → String
  | text => "text"
  | watermark => "watermark"
  | lowerThird => "lower-third"
  | progressBar => "progress-bar"

def decode : Decoder OverlayKind := decodeChoice named

def toJson (kind : OverlayKind) : Json := .string kind.name

end OverlayKind

namespace Overlay

private def fields : List (RecordField Overlay) :=
  [.required "kind" OverlayKind.decode fun value o => { o with kind := value },
   .defaulted "text" decodeString fun value o => { o with text := value },
   .defaulted "start" (decodeOption decodeReal) fun value o => { o with start := value },
   .defaulted "end" (decodeOption decodeReal) fun value o => { o with stop := value },
   .defaulted "position" (decodeOption RelativePosition.decode)
     fun value o => { o with position := value },
   .defaulted "fontSize" decodeReal fun value o => { o with fontSize := value },
   .defaulted "color" decodeString fun value o => { o with color := value },
   .defaulted "backgroundColor" decodeString fun value o => { o with backgroundColor := value }]

def decode : Decoder Overlay := decodeRecord { kind := .text } fields

def toJson (overlay : Overlay) : Json :=
  .record
    [("kind", overlay.kind.toJson), ("text", .string overlay.text),
     ("start", .ofOption .ofReal overlay.start), ("end", .ofOption .ofReal overlay.stop),
     ("position", .ofOption RelativePosition.toJson overlay.position),
     ("fontSize", .ofReal overlay.fontSize), ("color", .string overlay.color),
     ("backgroundColor", .string overlay.backgroundColor)]

end Overlay

namespace Music

private def fields : List (RecordField Music) :=
  [.required "source" FilePath.decode fun value m => { m with source := value },
   .defaulted "volume" decodeReal fun value m => { m with volume := value },
   .defaulted "fadeIn" decodeBool fun value m => { m with fadeIn := value },
   .defaulted "fadeOut" decodeBool fun value m => { m with fadeOut := value }]

def decode : Decoder Music := decodeRecord { source := ⟨""⟩ } fields

def toJson (music : Music) : Json :=
  .record
    [("source", music.source.toJson), ("volume", .ofReal music.volume),
     ("fadeIn", .bool music.fadeIn), ("fadeOut", .bool music.fadeOut)]

end Music

namespace Composition

private def fields : List (RecordField Composition) :=
  [.required "clips" (decodeList Clip.decode) fun value c => { c with clips := value },
   .defaulted "title" (decodeOption Title.decode) fun value c => { c with title := value },
   .defaulted "backgroundColor" decodeString fun value c => { c with backgroundColor := value },
   .defaulted "videoHeightFraction" decodeReal
     fun value c => { c with videoHeightFraction := value },
   .defaulted "quality" Quality.decode fun value c => { c with quality := value },
   .defaulted "transition" (decodeOption TransitionSetting.decode)
     fun value c => { c with transition := value },
   .defaulted "ranking" (decodeOption Ranking.decode) fun value c => { c with ranking := value },
   .defaulted "captions" (decodeList Caption.decode) fun value c => { c with captions := value },
   .defaulted "overlays" (decodeList Overlay.decode) fun value c => { c with overlays := value },
   .defaulted "audio" (decodeOption Music.decode) fun value c => { c with music := value }]

def decode : Decoder Composition := decodeRecord { clips := [] } fields

def toJson (c : Composition) : Json :=
  .record
    [("clips", .list (c.clips.map Clip.toJson)), ("title", .ofOption Title.toJson c.title),
     ("backgroundColor", .string c.backgroundColor),
     ("videoHeightFraction", .ofReal c.videoHeightFraction), ("quality", c.quality.toJson),
     ("transition", .ofOption TransitionSetting.toJson c.transition),
     ("ranking", .ofOption Ranking.toJson c.ranking),
     ("captions", .list (c.captions.map Caption.toJson)),
     ("overlays", .list (c.overlays.map Overlay.toJson)),
     ("audio", .ofOption Music.toJson c.music)]

end Composition

end Montage
