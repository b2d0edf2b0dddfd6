import Montage.SplitScreen

/-!
# Render requests

A composition or a split screen with the uploads that take the place of its sources. Binding puts
each upload into its role.
-/

namespace Montage

open Json

/-- A composition, with uploads for its clips and its music. -/
structure RenderRequest where
  composition : Composition
  clipFiles : List FilePath := []
  musicFile : Option FilePath := none
deriving DecidableEq

/-- A split screen, with uploads for its sources (`DualRenderRequest`). -/
structure SplitScreenRequest where
  screen : SplitScreen
  primaryFile : Option FilePath := none
  secondaryFile : Option FilePath := none
deriving DecidableEq

/-- Why uploads cannot be put into their roles. -/
inductive BindDefect where
  | clipCount (files clips : Nat)
  | musicWithoutSettings
deriving DecidableEq

def BindDefect.message : BindDefect → String
  | clipCount files clips => s!"{files} clip files uploaded for {clips} clips"
  | musicWithoutSettings => "Music file uploaded without audio settings"

namespace RenderRequest

/-- The uploads, which are removed when the request ends. -/
def uploads (request : RenderRequest) : List FilePath :=
  request.clipFiles ++ request.musicFile.toList

def bindClips (clips : List Clip) (files : List FilePath) :
    Except BindDefect (List Clip) :=
  if files.isEmpty then .ok clips
  else if files.length ≠ clips.length then .error (.clipCount files.length clips.length)
  else .ok (clips.zipWith (fun clip file => { clip with source := file }) files)

def bindMusic (music : Option Music) (file : Option FilePath) :
    Except BindDefect (Option Music) :=
  match file, music with
  | none, music => .ok music
  | some file, some settings => .ok (some { settings with source := file })
  | some _, none => .error .musicWithoutSettings

/-- The composition with the uploads as its sources. -/
def bound (request : RenderRequest) : Except BindDefect Composition := do
  let clips ← bindClips request.composition.clips request.clipFiles
  let music ← bindMusic request.composition.music request.musicFile
  return { request.composition with clips, music }

private def fields : List (RecordField RenderRequest) :=
  [.required "composition" Composition.decode fun value r => { r with composition := value },
   .defaulted "clipFiles" (decodeList FilePath.decode)
     fun value r => { r with clipFiles := value },
   .defaulted "musicFile" (decodeOption FilePath.decode)
     fun value r => { r with musicFile := value }]

def decode : Decoder RenderRequest := decodeRecord { composition := { clips := [] } } fields

def toJson (request : RenderRequest) : Json :=
  .record
    [("composition", request.composition.toJson),
     ("clipFiles", .list (request.clipFiles.map FilePath.toJson)),
     ("musicFile", .ofOption FilePath.toJson request.musicFile)]

end RenderRequest

namespace SplitScreenRequest

/-- The uploads, which are removed when the request ends. -/
def uploads (request : SplitScreenRequest) : List FilePath :=
  request.primaryFile.toList ++ request.secondaryFile.toList

/-- The split screen with the uploads as its sources. -/
def bound (request : SplitScreenRequest) : SplitScreen :=
  { request.screen with
    primary := request.primaryFile.getD request.screen.primary
    secondary := request.secondaryFile.getD request.screen.secondary }

private def fields : List (RecordField SplitScreenRequest) :=
  [.required "spec" SplitScreen.decode fun value r => { r with screen := value },
   .defaulted "primaryFile" (decodeOption FilePath.decode)
     fun value r => { r with primaryFile := value },
   .defaulted "secondaryFile" (decodeOption FilePath.decode)
     fun value r => { r with secondaryFile := value }]

def decode : Decoder SplitScreenRequest :=
  decodeRecord { screen := { primary := ⟨""⟩, secondary := ⟨""⟩ } } fields

def toJson (request : SplitScreenRequest) : Json :=
  .record
    [("spec", request.screen.toJson),
     ("primaryFile", .ofOption FilePath.toJson request.primaryFile),
     ("secondaryFile", .ofOption FilePath.toJson request.secondaryFile)]

end SplitScreenRequest

end Montage
