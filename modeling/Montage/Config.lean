import Montage.Environment
import Montage.Font

/-!
# Configuration

Where the engine and the prober are, where finished reels go and how they are addressed. Settings
are taken from environment variables.
-/

namespace Montage

/-- The settings of a render (`RenderConfig`). -/
structure Config where
  engine : String := "ffmpeg"
  prober : String := "ffprobe"
  outputDirectory : FilePath := ⟨"/tmp/reel/output"⟩
  publicUrlStart : String := "/downloads"
  fontPlatform : FontPlatform := .linux
deriving DecidableEq

namespace Config

private def withoutSlashes (text : String) : String :=
  String.ofList ((text.toList.reverse.dropWhile (· = '/')).reverse)

/-- The variables that hold settings. -/
def variableNames : List String :=
  ["REEL_FFMPEG", "REEL_FFPROBE", "REEL_OUTPUT_DIR", "REEL_PUBLIC_URL_PREFIX", "REEL_FONT_PLATFORM"]

/-- The settings that the environment asks for; the defaults where it is silent
(`RenderConfig.from_env`). -/
def ofEnvironment (environment : Environment) : Config :=
  let defaults : Config := {}
  { engine := (environment.lookup "REEL_FFMPEG").getD defaults.engine
    prober := (environment.lookup "REEL_FFPROBE").getD defaults.prober
    outputDirectory :=
      ((environment.lookup "REEL_OUTPUT_DIR").map FilePath.mk).getD defaults.outputDirectory
    publicUrlStart :=
      ((environment.lookup "REEL_PUBLIC_URL_PREFIX").map withoutSlashes).getD
        defaults.publicUrlStart
    fontPlatform :=
      ((environment.lookup "REEL_FONT_PLATFORM").map FontPlatform.ofName).getD
        defaults.fontPlatform }

/-- The address under which a finished file is downloaded (`RenderConfig.public_url`). -/
def publicUrl (config : Config) (fileName : String) : String :=
  config.publicUrlStart ++ "/" ++ fileName

end Config

end Montage
