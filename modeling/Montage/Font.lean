import Montage.FilePath
import Montage.Text.Blank

/-!
# Fonts

Font files by family and weight. Without a file the engine's own font lookup picks by name.
-/

namespace Montage

/-- The file of a font family in plain or bold weight, if one is known. -/
abbrev FontResolver := String → Bool → Option FilePath

/-- A system whose fonts are known. -/
inductive FontPlatform where
  | linux
  | macos
  | windows
deriving DecidableEq

namespace FontPlatform

def name : FontPlatform → String
  | linux => "linux"
  | macos => "macos"
  | windows => "windows"

/-- The platform of a name in any case; unknown names mean Linux (`FontPlatform.from_name`). -/
def ofName (name : String) : FontPlatform :=
  match (Text.trim name).map Char.toLower with
  | "macos" | "mac" | "darwin" => macos
  | "windows" | "win" | "win32" => windows
  | _ => linux

/-- The fonts of a platform: family in lower case, whether bold, file. -/
def fonts : FontPlatform → List (String × Bool × String)
  | linux =>
    [("arial", false, "/usr/share/fonts/truetype/liberation/LiberationSans-Regular.ttf"),
     ("arial", true, "/usr/share/fonts/truetype/liberation/LiberationSans-Bold.ttf"),
     ("helvetica", false, "/usr/share/fonts/truetype/liberation/LiberationSans-Regular.ttf"),
     ("helvetica", true, "/usr/share/fonts/truetype/liberation/LiberationSans-Bold.ttf"),
     ("dejavu sans", false, "/usr/share/fonts/truetype/dejavu/DejaVuSans.ttf"),
     ("dejavu sans", true, "/usr/share/fonts/truetype/dejavu/DejaVuSans-Bold.ttf"),
     ("times new roman", false,
       "/usr/share/fonts/truetype/liberation/LiberationSerif-Regular.ttf"),
     ("times new roman", true,
       "/usr/share/fonts/truetype/liberation/LiberationSerif-Bold.ttf")]
  | macos =>
    [("arial", false, "/System/Library/Fonts/Supplemental/Arial.ttf"),
     ("arial", true, "/System/Library/Fonts/Supplemental/Arial Bold.ttf"),
     ("helvetica", false, "/System/Library/Fonts/Helvetica.ttc"),
     ("helvetica", true, "/System/Library/Fonts/Helvetica.ttc"),
     ("times new roman", false, "/System/Library/Fonts/Supplemental/Times New Roman.ttf"),
     ("times new roman", true, "/System/Library/Fonts/Supplemental/Times New Roman Bold.ttf")]
  | windows =>
    [("arial", false, "C:\\Windows\\Fonts\\arial.ttf"),
     ("arial", true, "C:\\Windows\\Fonts\\arialbd.ttf"),
     ("impact", false, "C:\\Windows\\Fonts\\impact.ttf"),
     ("impact", true, "C:\\Windows\\Fonts\\impact.ttf"),
     ("times new roman", false, "C:\\Windows\\Fonts\\times.ttf"),
     ("times new roman", true, "C:\\Windows\\Fonts\\timesbd.ttf")]

/-- Looks a family up in any case, white space around it aside (`StaticFontTable`). -/
def resolve (platform : FontPlatform) : FontResolver := fun family bold =>
  let wanted := (Text.trim family).map Char.toLower
  (platform.fonts.find? fun font => font.1 == wanted && font.2.1 == bold).map
    fun font => ⟨font.2.2⟩

end FontPlatform

/-- Knows no file (`FontconfigOnly`): every font is picked by name. -/
def FontResolver.byName : FontResolver := fun _ _ => none

end Montage
