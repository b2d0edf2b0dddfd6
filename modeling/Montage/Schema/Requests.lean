import Montage.RenderRequest
import Montage.Schema.Basic

/-!
# Schemas of render requests

What the job files for compositions and split screens look like. Defaults are those of the types.
-/

namespace Montage.Schema

namespace Definition

private def placeholder : FilePath := ⟨""⟩

def clip : Definition where
  name := "ClipSpec"
  description := some "One trimmed source clip."
  body := .record
    [(Property.required "source" .text).described "Uploaded source file",
     (Property.defaulted "trimStart" .real (.real 0)).described "Offset into the source in seconds",
     (Property.required "duration" .real).described "Seconds of the source to use"]

def relativePosition : Definition where
  name := "RelativePosition"
  description := some "Position relative to the output frame, in percent (0-100)."
  body := .record [.required "x" .real, .required "y" .real]

def titleStyle : Definition :=
  let style : TitleStyle := {}
  { name := "TitleStyle"
    body := .record
      [.defaulted "fontFamily" .text (.string style.fontFamily),
       (Property.defaulted "fontSize" .real (.real style.fontSize)).described
         "Preview font size at the 1080px reference width",
       .defaulted "color" .text (.string style.color),
       .defaulted "bold" .flag (.bool style.bold),
       .nullable? "strokeColor" .text,
       .defaulted "strokeWidth" (.natural "uint32") (.integer style.strokeWidth)] }

def title : Definition :=
  let title : Title := { text := "" }
  { name := "TitleSpec"
    body := .record
      [.required "text" .text,
       .defaulted "style" (.reference "TitleStyle") title.style.toJson,
       .defaulted "position" (.reference "RelativePosition") title.position.toJson] }

def transition : Definition :=
  let setting : TransitionSetting := { name := "" }
  { name := "TransitionConfig"
    description := some "Symbolic transition between adjacent clips."
    body := .record
      [(Property.required "type" .text).described
         "Transition name; unknown names degrade to a fade",
       .defaulted "duration" .real (.real setting.duration)] }

def badgeCorner : Definition where
  name := "RankingPosition"
  description := some "Corner (or top-band center) where ranking badges are drawn."
  body := .choice (BadgeCorner.named.map (·.1))

def ranking : Definition :=
  let ranking : Ranking := {}
  { name := "RankingConfig"
    body := .record
      [.defaulted "enabled" .flag (.bool ranking.enabled),
       .defaulted "position" (.reference "RankingPosition") ranking.position.toJson,
       (Property.defaulted "size" .real (.real ranking.size)).described
         "Badge edge length at the 1080px reference width",
       .defaulted "color" .text (.string ranking.color),
       .defaulted "textColor" .text (.string ranking.textColor),
       (Property.defaulted "countdown" .flag (.bool ranking.countdown)).described
         "Number clips N..1 instead of 1..N"] }

def captionPosition : Definition where
  name := "CaptionPosition"
  body := .choice (CaptionPosition.named.map (·.1))

def captionAnimation : Definition where
  name := "CaptionAnimation"
  body := .choice (CaptionAnimation.named.map (·.1))

def caption : Definition :=
  let caption : Caption := { clipIndex := 0, text := "" }
  { name := "CaptionSpec"
    description := some "Caption shown for the whole window of one clip."
    body := .record
      [.required "clipIndex" (.natural "uint"),
       .required "text" .text,
       .defaulted "position" (.reference "CaptionPosition") caption.position.toJson,
       .defaulted "animation" (.reference "CaptionAnimation") caption.animation.toJson,
       .defaulted "fontSize" .real (.real caption.fontSize),
       .defaulted "color" .text (.string caption.color),
       .defaulted "backgroundColor" .text (.string caption.backgroundColor)] }

def overlayKind : Definition where
  name := "OverlayKind"
  body := .choice (OverlayKind.named.map (·.1))

def overlay : Definition :=
  let overlay : Overlay := { kind := .text }
  { name := "OverlaySpec"
    description := some "Free-standing decoration with its own time box."
    body := .record
      [.required "kind" (.reference "OverlayKind"),
       .defaulted "text" .text (.string overlay.text),
       (Property.nullable? "start" .real).described "Defaults to the composition start",
       (Property.nullable? "end" .real).described "Defaults to the composition end",
       .nullable? "position" (.reference "RelativePosition"),
       .defaulted "fontSize" .real (.real overlay.fontSize),
       .defaulted "color" .text (.string overlay.color),
       .defaulted "backgroundColor" .text (.string overlay.backgroundColor)] }

def music : Definition :=
  let music : Music := { source := placeholder }
  { name := "AudioConfig"
    description := some "Background music settings."
    body := .record
      [.required "source" .text,
       .defaulted "volume" .real (.real music.volume),
       .defaulted "fadeIn" .flag (.bool music.fadeIn),
       .defaulted "fadeOut" .flag (.bool music.fadeOut)] }

def composition : Definition :=
  let composition : Composition := { clips := [] }
  { name := "CompositionSpec"
    description := some "One export job, immutable input to one compile."
    body := .record
      [(Property.required "clips" (.list (.reference "ClipSpec"))).described
         "Ordered clips; clip `i` is input file `i` of the engine",
       .nullable? "title" (.reference "TitleSpec"),
       (Property.defaulted "backgroundColor" .text (.string composition.backgroundColor)).described
         "Canvas color as `#RRGGBB`",
       (Property.defaulted "videoHeightFraction" .real
         (.real composition.videoHeightFraction)).described
         "Share of the output height given to the video area (anchored at the bottom)",
       .defaulted "quality" .text composition.quality.toJson,
       .nullable? "transition" (.reference "TransitionConfig"),
       .nullable? "ranking" (.reference "RankingConfig"),
       .defaulted "captions" (.list (.reference "CaptionSpec")) (.list []),
       .defaulted "overlays" (.list (.reference "OverlaySpec")) (.list []),
       (Property.nullable? "audio" (.reference "AudioConfig")).described "Background music"] }

def splitScreen : Definition :=
  let screen : SplitScreen := { primary := placeholder, secondary := placeholder }
  { name := "DualSourceSpec"
    body := .record
      [(Property.required "primary" .text).described "Top video",
       (Property.required "secondary" .text).described "Bottom video",
       .defaulted "primaryVolume" .real (.real screen.primaryVolume),
       .defaulted "secondaryVolume" .real (.real screen.secondaryVolume),
       (Property.nullable? "primaryDuration" .real).described
         "Known source lengths; inspected when absent",
       .nullable? "secondaryDuration" .real,
       (Property.nullable? "primaryHasAudio" .flag).described
         "Known audio presence; inspected when absent and the source is audible",
       .nullable? "secondaryHasAudio" .flag,
       .defaulted "backgroundColor" .text (.string screen.backgroundColor),
       .defaulted "quality" .text screen.quality.toJson] }

end Definition

/-- The schema of composition requests. -/
def ofRenderRequest : Schema where
  title := "RenderRequest"
  description := "Single-track render request."
  properties :=
    [.required "composition" (.reference "CompositionSpec"),
     (Property.defaulted "clipFiles" (.list .text) (.list [])).described
       "Uploaded clip files in timeline order; replace the clip sources when present",
     (Property.nullable? "musicFile" .text).described
       "Uploaded background music; replaces the audio source when present"]
  definitions :=
    [.clip, .relativePosition, .titleStyle, .title, .transition, .badgeCorner, .ranking,
     .captionPosition, .captionAnimation, .caption, .overlayKind, .overlay, .music, .composition]

/-- The schema of split screen requests. -/
def ofSplitScreenRequest : Schema where
  title := "DualRenderRequest"
  description := "Two-source render request."
  properties :=
    [.required "spec" (.reference "DualSourceSpec"),
     .nullable? "primaryFile" .text,
     .nullable? "secondaryFile" .text]
  definitions := [.splitScreen]

end Montage.Schema
