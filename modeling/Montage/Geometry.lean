import Montage.Composition.Basic
import Montage.Graph.Expression

/-!
# Geometry

Positions and sizes in pixels. Lengths are authored at a frame width of 1080 and the exported video
has to agree with the editor's preview, so every length is rounded the way the preview rounds.
-/

namespace Montage.Geometry

open Montage.Numeric (Binary64 twoTo)
open Montage.Graph (Expression)

/-- The frame width at which sizes are authored (`REFERENCE_WIDTH`). -/
def referenceWidth : Binary64 := 1080

/-- The zoom of title text in the preview (`PREVIEW_TEXT_ZOOM`). -/
def previewTextZoom : Binary64 := 0.6

/-- The share of the frame height, from the top, that holds the badges (`RANKING_BAND`). -/
def badgeBand : Binary64 := 0.3

/-- Whether a number is a 64-bit word. -/
def IsWord (n : Int) : Prop := -(twoTo 63 : Int) ≤ n ∧ n < twoTo 63

instance (n : Int) : Decidable (IsWord n) :=
  inferInstanceAs (Decidable (-(twoTo 63 : Int) ≤ n ∧ n < twoTo 63))

/-- The difference of two words. There is none where it would be no word: the subtraction
overflows. -/
def difference? (a b : Int) : Option Int := if IsWord (a - b) then some (a - b) else none

/-- Rounds a half up (`preview_round`). Values beyond 64 bits are brought to the nearest bound. -/
def roundHalfUp (x : Binary64) : Int := (x + 0.5).floor.toIntWithin (-(twoTo 63)) (twoTo 63 - 1)

/-- A length authored at the reference width, in a frame of this width (`scale_to_width`). -/
def scaleToWidth (length : Binary64) (width : Nat) : Int :=
  roundHalfUp (length * .ofNat width / referenceWidth)

/-- The pixel at a percentage of a size. -/
def percentOf (percent : Binary64) (size : Nat) : Int :=
  roundHalfUp (percent / 100 * .ofNat size)

/-- The pixel at a relative position (`absolute_point`). -/
def absolutePoint (position : RelativePosition) (width height : Nat) : Int × Int :=
  (percentOf position.x width, percentOf position.y height)

/-- The left edge of a text that is centered on a column. The engine knows the text's width. -/
def centeredOn (x : Int) : Expression :=
  .group (.sub (.whole x) (.div (.name "text_w") (.whole 2)))

/-- Where a title stands: the column it is centered on, its top, its font size. -/
structure TitlePlacement where
  x : Int
  y : Int
  fontSize : Int
deriving DecidableEq

/-- The place of a title (`title_position`): as large as the preview shows it, centered on its
point. -/
def titlePlacement (position : RelativePosition) (fontSize : Binary64) (width height : Nat) :
    TitlePlacement :=
  { x := percentOf position.x width
    y := percentOf position.y height
    fontSize := roundHalfUp (fontSize * (.ofNat width / referenceWidth) * previewTextZoom) }

/-- Where a badge stands: its corner, its edge and its distance from the frame. -/
structure BadgePlacement where
  x : Int
  y : Int
  size : Int
  padding : Int
deriving DecidableEq

/-- The badge of a corner (`ranking_position`). The bottom corners lie in the band at the top of the
frame, and the center is the center of that band. Both differences are taken for every corner, so
there is no badge in any of them where one overflows. -/
def badgePlacement (corner : BadgeCorner) (authoredSize : Binary64) (width height : Nat) :
    Option BadgePlacement := do
  let size := scaleToWidth authoredSize width
  let edge := Binary64.ofInt size
  let padding := roundHalfUp (edge * 0.2)
  let band := badgeBand * .ofNat height
  let rest ← difference? width size
  let right ← difference? rest padding
  let low := roundHalfUp ((Binary64.ofInt padding + edge * 0.5).min (band - edge))
  let point := match corner with
    | .topLeft => (padding, padding)
    | .topRight => (right, padding)
    | .bottomLeft => (padding, low)
    | .bottomRight => (right, low)
    | .center => (roundHalfUp (Binary64.ofInt rest / 2), roundHalfUp ((band - edge) / 2))
  return { x := point.1, y := point.2, size, padding }

/-- The band of the frame that holds the clips, anchored at the bottom. -/
structure VideoArea where
  y : Nat
  height : Nat
deriving DecidableEq

/-- The band for a share of the frame height; at least one row, at most the whole frame
(`video_area`). -/
def videoArea (fraction : Binary64) (height : Nat) : VideoArea :=
  let rows := (max 1 (min (height : Int) (roundHalfUp (fraction * .ofNat height)))).toNat
  ⟨height - rows, rows⟩

/-- The top edge of a caption (`caption_y`). -/
def captionY (position : CaptionPosition) (height : Nat) : Int :=
  let fraction : Binary64 := match position with
    | .top => 0.1
    | .middle => 0.5
    | .bottom => 0.85
  roundHalfUp (fraction * .ofNat height)

end Montage.Geometry
