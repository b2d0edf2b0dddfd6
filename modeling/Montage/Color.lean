/-!
# Colors

Colors are written `#RRGGBB`. The engine's notation is `0xRRGGBB`; it also knows a few names.
-/

namespace Montage.Color

/-- Whether a text is a color written as `#RRGGBB` (`is_hex_color`). -/
def isHex (text : String) : Bool :=
  match text.toList with
  | '#' :: digits => digits.length == 6 && digits.all isHexDigit
  | _ => false
where
  isHexDigit (c : Char) : Bool :=
    c.isDigit || ('a' ≤ c && c ≤ 'f') || ('A' ≤ c && c ≤ 'F')

/-- The names that the engine understands (`NAMED_COLORS`). -/
def names : List String :=
  ["black", "white", "red", "green", "blue", "yellow", "cyan", "magenta", "gray", "orange"]

/-- A color in the engine's notation (`ffmpeg_color`): `#RRGGBB` with the digits in upper case, or a
known name in any case. -/
def engine? (text : String) : Option String :=
  if isHex text then some ("0x" ++ String.ofList ((text.toList.drop 1).map Char.toUpper))
  else
    let name := text.map Char.toLower
    if name ∈ names then some name else none

/-- Every `#RRGGBB` has a notation for the engine. -/
theorem engine?_of_isHex {text : String} (h : isHex text = true) :
    engine? text = some ("0x" ++ String.ofList ((text.toList.drop 1).map Char.toUpper)) := by
  simp only [engine?, h, if_true]

end Montage.Color
