import Montage.Proofs.Documents.Shape
import Montage.Proofs.Json.Form

/-!
# The wire form of compositions

Compositions and their parts as forms: each field by its name, with how it is written and read and
its place in the record. That these are the documents that compositions have is checked field by
field against their reader, their writer and their shape.
-/

namespace Montage

open Montage.Numeric (Binary64 twoTo)
open Json

def FilePath.wire : Wire FilePath := Wire.string.map .mk FilePath.text (by simp) (by simp)

theorem FilePath.wire_ne_null (path : FilePath) :
    wire.Representable path → wire.encode path ≠ .null :=
  Wire.string_ne_null path.text

def Quality.wire : Wire Quality := Wire.string.map .ofName name ofName_name (by simp)

def BadgeCorner.wire : Wire BadgeCorner := .choice named name fun corner ↦ by cases corner <;> rfl

def CaptionPosition.wire : Wire CaptionPosition :=
  .choice named name fun position ↦ by cases position <;> rfl

def CaptionAnimation.wire : Wire CaptionAnimation :=
  .choice named name fun animation ↦ by cases animation <;> rfl

def OverlayKind.wire : Wire OverlayKind := .choice named name fun kind ↦ by cases kind <;> rfl

namespace RelativePosition

def form : Form RelativePosition where
  blank := ⟨0, 0⟩
  slots :=
    [⟨"x", true, .real, (·.x), fun value p ↦ { p with x := value }⟩,
     ⟨"y", true, .real, (·.y), fun value p ↦ { p with y := value }⟩]
  blank_representable := by simp; decide +kernel

def wire : Wire RelativePosition := form.wire Representable (by simp [representable_iff, form])

theorem wire_layout : wire.layout = layout := by simp [wire, Form.layout, form, layout]

theorem wire_encode : wire.encode = toJson := rfl

theorem wire_ne_null (position : RelativePosition) :
    wire.Representable position → wire.encode position ≠ .null :=
  form.wire_ne_null position

end RelativePosition

namespace Clip

def form : Form Clip where
  blank := ⟨⟨""⟩, 0, 0⟩
  slots :=
    [⟨"source", true, FilePath.wire, (·.source), fun value c ↦ { c with source := value }⟩,
     ⟨"trimStart", false, .real, (·.trimStart), fun value c ↦ { c with trimStart := value }⟩,
     ⟨"duration", true, .real, (·.duration), fun value c ↦ { c with duration := value }⟩]
  blank_representable := by simp [FilePath.wire]; decide +kernel

def wire : Wire Clip := form.wire Representable (by simp [representable_iff, form, FilePath.wire])

theorem wire_layout : wire.layout = layout := by
  simp [wire, Form.layout, form, layout, FilePath.wire]

end Clip

namespace TitleStyle

def form : Form TitleStyle where
  blank := {}
  slots :=
    [⟨"fontFamily", false, .string, (·.fontFamily), fun value s ↦ { s with fontFamily := value }⟩,
     ⟨"fontSize", false, .real, (·.fontSize), fun value s ↦ { s with fontSize := value }⟩,
     ⟨"color", false, .string, (·.color), fun value s ↦ { s with color := value }⟩,
     ⟨"bold", false, .bool, (·.bold), fun value s ↦ { s with bold := value }⟩,
     ⟨"strokeColor", false, Wire.string.option Wire.string_ne_null, (·.strokeColor),
       fun value s ↦ { s with strokeColor := value }⟩,
     ⟨"strokeWidth", false, .nat (twoTo 32), (·.strokeWidth),
       fun value s ↦ { s with strokeWidth := value }⟩]
  blank_representable := by simp; decide +kernel

def wire : Wire TitleStyle := form.wire Representable (by simp [representable_iff, form])

theorem wire_layout : wire.layout = layout := by
  simp [wire, Form.layout, form, layout, ofOption]

theorem wire_encode : wire.encode = toJson := rfl

end TitleStyle

namespace Title

def form : Form Title where
  blank := { text := "" }
  slots :=
    [⟨"text", true, .string, (·.text), fun value t ↦ { t with text := value }⟩,
     ⟨"style", false, TitleStyle.wire, (·.style), fun value t ↦ { t with style := value }⟩,
     ⟨"position", false, RelativePosition.wire, (·.position),
       fun value t ↦ { t with position := value }⟩]
  blank_representable := by
    simp [TitleStyle.wire, RelativePosition.wire, TitleStyle.representable_iff,
      RelativePosition.representable_iff]
    decide +kernel

def wire : Wire Title :=
  form.wire Representable
    (by simp [representable_iff, form, TitleStyle.wire, RelativePosition.wire])

theorem wire_layout : wire.layout = layout := by
  simp [wire, Form.layout, form, layout, TitleStyle.wire_layout, TitleStyle.wire_encode,
    RelativePosition.wire_layout, RelativePosition.wire_encode]

theorem wire_ne_null (title : Title) :
    wire.Representable title → wire.encode title ≠ .null :=
  form.wire_ne_null title

end Title

namespace TransitionSetting

def form : Form TransitionSetting where
  blank := { name := "" }
  slots :=
    [⟨"type", true, .string, (·.name), fun value t ↦ { t with name := value }⟩,
     ⟨"duration", false, .real, (·.duration), fun value t ↦ { t with duration := value }⟩]
  blank_representable := by simp; decide +kernel

def wire : Wire TransitionSetting := form.wire Representable (by simp [representable_iff, form])

theorem wire_layout : wire.layout = layout := by simp [wire, Form.layout, form, layout]

theorem wire_ne_null (setting : TransitionSetting) :
    wire.Representable setting → wire.encode setting ≠ .null :=
  form.wire_ne_null setting

end TransitionSetting

namespace Ranking

def form : Form Ranking where
  blank := {}
  slots :=
    [⟨"enabled", false, .bool, (·.enabled), fun value r ↦ { r with enabled := value }⟩,
     ⟨"position", false, BadgeCorner.wire, (·.position),
       fun value r ↦ { r with position := value }⟩,
     ⟨"size", false, .real, (·.size), fun value r ↦ { r with size := value }⟩,
     ⟨"color", false, .string, (·.color), fun value r ↦ { r with color := value }⟩,
     ⟨"textColor", false, .string, (·.textColor), fun value r ↦ { r with textColor := value }⟩,
     ⟨"countdown", false, .bool, (·.countdown), fun value r ↦ { r with countdown := value }⟩]
  blank_representable := by simp [BadgeCorner.wire]; decide +kernel

def wire : Wire Ranking :=
  form.wire Representable (by simp [representable_iff, form, BadgeCorner.wire])

theorem wire_layout : wire.layout = layout := by
  simp [wire, Form.layout, form, layout, BadgeCorner.wire, BadgeCorner.name]

theorem wire_ne_null (ranking : Ranking) :
    wire.Representable ranking → wire.encode ranking ≠ .null :=
  form.wire_ne_null ranking

end Ranking

namespace Caption

def form : Form Caption where
  blank := { clipIndex := 0, text := "" }
  slots :=
    [⟨"clipIndex", true, .nat (twoTo 64), (·.clipIndex),
       fun value c ↦ { c with clipIndex := value }⟩,
     ⟨"text", true, .string, (·.text), fun value c ↦ { c with text := value }⟩,
     ⟨"position", false, CaptionPosition.wire, (·.position),
       fun value c ↦ { c with position := value }⟩,
     ⟨"animation", false, CaptionAnimation.wire, (·.animation),
       fun value c ↦ { c with animation := value }⟩,
     ⟨"fontSize", false, .real, (·.fontSize), fun value c ↦ { c with fontSize := value }⟩,
     ⟨"color", false, .string, (·.color), fun value c ↦ { c with color := value }⟩,
     ⟨"backgroundColor", false, .string, (·.backgroundColor),
       fun value c ↦ { c with backgroundColor := value }⟩]
  blank_representable := by simp [CaptionPosition.wire, CaptionAnimation.wire]; decide +kernel

def wire : Wire Caption :=
  form.wire Representable
    (by simp [representable_iff, form, CaptionPosition.wire, CaptionAnimation.wire])

theorem wire_layout : wire.layout = layout := by
  simp [wire, Form.layout, form, layout, CaptionPosition.wire, CaptionPosition.name,
    CaptionAnimation.wire, CaptionAnimation.name]

end Caption

namespace Overlay

def form : Form Overlay where
  blank := { kind := .text }
  slots :=
    [⟨"kind", true, OverlayKind.wire, (·.kind), fun value o ↦ { o with kind := value }⟩,
     ⟨"text", false, .string, (·.text), fun value o ↦ { o with text := value }⟩,
     ⟨"start", false, Wire.real.option Wire.real_ne_null, (·.start),
       fun value o ↦ { o with start := value }⟩,
     ⟨"end", false, Wire.real.option Wire.real_ne_null, (·.stop),
       fun value o ↦ { o with stop := value }⟩,
     ⟨"position", false, RelativePosition.wire.option RelativePosition.wire_ne_null, (·.position),
       fun value o ↦ { o with position := value }⟩,
     ⟨"fontSize", false, .real, (·.fontSize), fun value o ↦ { o with fontSize := value }⟩,
     ⟨"color", false, .string, (·.color), fun value o ↦ { o with color := value }⟩,
     ⟨"backgroundColor", false, .string, (·.backgroundColor),
       fun value o ↦ { o with backgroundColor := value }⟩]
  blank_representable := by simp [OverlayKind.wire]; decide +kernel

def wire : Wire Overlay :=
  form.wire Representable
    (by simp [representable_iff, form, OverlayKind.wire, RelativePosition.wire])

theorem wire_layout : wire.layout = layout := by
  simp [wire, Form.layout, form, layout, OverlayKind.wire, RelativePosition.wire_layout, ofOption]

end Overlay

namespace Music

def form : Form Music where
  blank := { source := ⟨""⟩ }
  slots :=
    [⟨"source", true, FilePath.wire, (·.source), fun value m ↦ { m with source := value }⟩,
     ⟨"volume", false, .real, (·.volume), fun value m ↦ { m with volume := value }⟩,
     ⟨"fadeIn", false, .bool, (·.fadeIn), fun value m ↦ { m with fadeIn := value }⟩,
     ⟨"fadeOut", false, .bool, (·.fadeOut), fun value m ↦ { m with fadeOut := value }⟩]
  blank_representable := by simp [FilePath.wire]; decide +kernel

def wire : Wire Music := form.wire Representable (by simp [representable_iff, form, FilePath.wire])

theorem wire_layout : wire.layout = layout := by
  simp [wire, Form.layout, form, layout, FilePath.wire]

theorem wire_ne_null (music : Music) :
    wire.Representable music → wire.encode music ≠ .null :=
  form.wire_ne_null music

end Music

namespace Composition

theorem representable_of_no_clips : Representable { clips := [] } := by
  simp [representable_iff]
  decide +kernel

def form : Form Composition where
  blank := { clips := [] }
  slots :=
    [⟨"clips", true, Clip.wire.list, (·.clips), fun value c ↦ { c with clips := value }⟩,
     ⟨"title", false, Title.wire.option Title.wire_ne_null, (·.title),
       fun value c ↦ { c with title := value }⟩,
     ⟨"backgroundColor", false, .string, (·.backgroundColor),
       fun value c ↦ { c with backgroundColor := value }⟩,
     ⟨"videoHeightFraction", false, .real, (·.videoHeightFraction),
       fun value c ↦ { c with videoHeightFraction := value }⟩,
     ⟨"quality", false, Quality.wire, (·.quality), fun value c ↦ { c with quality := value }⟩,
     ⟨"transition", false, TransitionSetting.wire.option TransitionSetting.wire_ne_null,
       (·.transition), fun value c ↦ { c with transition := value }⟩,
     ⟨"ranking", false, Ranking.wire.option Ranking.wire_ne_null, (·.ranking),
       fun value c ↦ { c with ranking := value }⟩,
     ⟨"captions", false, Caption.wire.list, (·.captions),
       fun value c ↦ { c with captions := value }⟩,
     ⟨"overlays", false, Overlay.wire.list, (·.overlays),
       fun value c ↦ { c with overlays := value }⟩,
     ⟨"audio", false, Music.wire.option Music.wire_ne_null, (·.music),
       fun value c ↦ { c with music := value }⟩]
  blank_representable := by simp [Quality.wire]; decide +kernel

def wire : Wire Composition :=
  form.wire Representable
    (by simp [representable_iff, form, Clip.wire, Title.wire, Quality.wire, TransitionSetting.wire,
      Ranking.wire, Caption.wire, Overlay.wire, Music.wire])

theorem wire_layout : wire.layout = layout := by
  simp [wire, Form.layout, form, layout, Clip.wire_layout, Title.wire_layout, Quality.wire,
    Quality.name, TransitionSetting.wire_layout, Ranking.wire_layout, Caption.wire_layout,
    Overlay.wire_layout, Music.wire_layout, ofOption]

end Composition

end Montage
