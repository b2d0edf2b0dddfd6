import Mathlib.Tactic.MkIffOfInductiveProp
import Montage.MediaError
import Montage.Proofs.Json.Change
import Montage.RenderRequest

/-!
# The shape of documents

Which fields the documents of each type have and what these hold by default, and which values have
documents at all: those whose doubles are finite and whose numbers fit their machine words.
-/

namespace Montage

open Montage.Numeric (twoTo)
open Json

/-! ### Compositions -/

namespace RelativePosition

def layout : Layout := .record [("x", none, .scalar), ("y", none, .scalar)]

@[mk_iff]
structure Representable (position : RelativePosition) : Prop where
  x : position.x.isFinite = true
  y : position.y.isFinite = true

end RelativePosition

namespace Clip

def layout : Layout :=
  .record
    [("source", none, .scalar), ("trimStart", some (.ofReal 0), .scalar),
     ("duration", none, .scalar)]

@[mk_iff]
structure Representable (clip : Clip) : Prop where
  trimStart : clip.trimStart.isFinite = true
  duration : clip.duration.isFinite = true

end Clip

namespace TitleStyle

def layout : Layout :=
  .record
    [("fontFamily", some (.string "Arial"), .scalar), ("fontSize", some (.ofReal 72), .scalar),
     ("color", some (.string "#FFFFFF"), .scalar), ("bold", some (.bool false), .scalar),
     ("strokeColor", some .null, .optional .scalar), ("strokeWidth", some (.integer 0), .scalar)]

@[mk_iff]
structure Representable (style : TitleStyle) : Prop where
  fontSize : style.fontSize.isFinite = true
  strokeWidth : style.strokeWidth < twoTo 32

end TitleStyle

namespace Title

def layout : Layout :=
  .record
    [("text", none, .scalar), ("style", some TitleStyle.standard.toJson, TitleStyle.layout),
     ("position", some (RelativePosition.toJson ⟨50, 10⟩), RelativePosition.layout)]

@[mk_iff]
structure Representable (title : Title) : Prop where
  style : title.style.Representable
  position : title.position.Representable

end Title

namespace TransitionSetting

def layout : Layout :=
  .record [("type", none, .scalar), ("duration", some (.ofReal 0.5), .scalar)]

@[mk_iff]
structure Representable (setting : TransitionSetting) : Prop where
  duration : setting.duration.isFinite = true

end TransitionSetting

namespace Ranking

def layout : Layout :=
  .record
    [("enabled", some (.bool true), .scalar), ("position", some (.string "top-left"), .scalar),
     ("size", some (.ofReal 80), .scalar), ("color", some (.string "#FF3B30"), .scalar),
     ("textColor", some (.string "#FFFFFF"), .scalar), ("countdown", some (.bool false), .scalar)]

@[mk_iff]
structure Representable (ranking : Ranking) : Prop where
  size : ranking.size.isFinite = true

end Ranking

namespace Caption

def layout : Layout :=
  .record
    [("clipIndex", none, .scalar), ("text", none, .scalar),
     ("position", some (.string "bottom"), .scalar), ("animation", some (.string "none"), .scalar),
     ("fontSize", some (.ofReal 48), .scalar), ("color", some (.string "#FFFFFF"), .scalar),
     ("backgroundColor", some (.string "#000000"), .scalar)]

@[mk_iff]
structure Representable (caption : Caption) : Prop where
  clipIndex : caption.clipIndex < twoTo 64
  fontSize : caption.fontSize.isFinite = true

end Caption

namespace Overlay

def layout : Layout :=
  .record
    [("kind", none, .scalar), ("text", some (.string ""), .scalar),
     ("start", some .null, .optional .scalar), ("end", some .null, .optional .scalar),
     ("position", some .null, .optional RelativePosition.layout),
     ("fontSize", some (.ofReal 48), .scalar), ("color", some (.string "#FFFFFF"), .scalar),
     ("backgroundColor", some (.string "#1E88E5"), .scalar)]

@[mk_iff]
structure Representable (overlay : Overlay) : Prop where
  start : ∀ start ∈ overlay.start, start.isFinite = true
  stop : ∀ stop ∈ overlay.stop, stop.isFinite = true
  position : ∀ position ∈ overlay.position, position.Representable
  fontSize : overlay.fontSize.isFinite = true

end Overlay

namespace Music

def layout : Layout :=
  .record
    [("source", none, .scalar), ("volume", some (.ofReal 1), .scalar),
     ("fadeIn", some (.bool false), .scalar), ("fadeOut", some (.bool false), .scalar)]

@[mk_iff]
structure Representable (music : Music) : Prop where
  volume : music.volume.isFinite = true

end Music

namespace Composition

def layout : Layout :=
  .record
    [("clips", none, .list Clip.layout), ("title", some .null, .optional Title.layout),
     ("backgroundColor", some (.string "#000000"), .scalar),
     ("videoHeightFraction", some (.ofReal 0.7), .scalar),
     ("quality", some (.string "1080p"), .scalar),
     ("transition", some .null, .optional TransitionSetting.layout),
     ("ranking", some .null, .optional Ranking.layout),
     ("captions", some (.list []), .list Caption.layout),
     ("overlays", some (.list []), .list Overlay.layout),
     ("audio", some .null, .optional Music.layout)]

@[mk_iff]
structure Representable (c : Composition) : Prop where
  clips : ∀ clip ∈ c.clips, clip.Representable
  title : ∀ title ∈ c.title, title.Representable
  videoHeightFraction : c.videoHeightFraction.isFinite = true
  transition : ∀ setting ∈ c.transition, setting.Representable
  ranking : ∀ ranking ∈ c.ranking, ranking.Representable
  captions : ∀ caption ∈ c.captions, caption.Representable
  overlays : ∀ overlay ∈ c.overlays, overlay.Representable
  music : ∀ music ∈ c.music, music.Representable

end Composition

/-! ### Split screens, requests and failures -/

namespace SplitScreen

def layout : Layout :=
  .record
    [("primary", none, .scalar), ("secondary", none, .scalar),
     ("primaryVolume", some (.ofReal 1), .scalar), ("secondaryVolume", some (.ofReal 1), .scalar),
     ("primaryDuration", some .null, .optional .scalar),
     ("secondaryDuration", some .null, .optional .scalar),
     ("primaryHasAudio", some .null, .optional .scalar),
     ("secondaryHasAudio", some .null, .optional .scalar),
     ("backgroundColor", some (.string "#000000"), .scalar),
     ("quality", some (.string "1080p"), .scalar)]

@[mk_iff]
structure Representable (screen : SplitScreen) : Prop where
  primaryVolume : screen.primaryVolume.isFinite = true
  secondaryVolume : screen.secondaryVolume.isFinite = true
  primaryDuration : ∀ duration ∈ screen.primaryDuration, duration.isFinite = true
  secondaryDuration : ∀ duration ∈ screen.secondaryDuration, duration.isFinite = true

end SplitScreen

namespace RenderRequest

def layout : Layout :=
  .record
    [("composition", none, Composition.layout), ("clipFiles", some (.list []), .list .scalar),
     ("musicFile", some .null, .optional .scalar)]

@[mk_iff]
structure Representable (request : RenderRequest) : Prop where
  composition : request.composition.Representable

end RenderRequest

namespace SplitScreenRequest

def layout : Layout :=
  .record
    [("spec", none, SplitScreen.layout), ("primaryFile", some .null, .optional .scalar),
     ("secondaryFile", some .null, .optional .scalar)]

@[mk_iff]
structure Representable (request : SplitScreenRequest) : Prop where
  screen : request.screen.Representable

end SplitScreenRequest

/-- Failures hold nothing but text, so all of them have documents. -/
def RenderFailure.layout : Layout :=
  .record
    [("kind", none, .scalar), ("message", none, .scalar),
     ("stderrTail", some .null, .optional .scalar)]

end Montage
