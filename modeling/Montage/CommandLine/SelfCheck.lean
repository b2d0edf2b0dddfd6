import Montage.CommandLine.Runner

/-!
# Self check

A second program, which checks the installation: the output directory can be made, and the engine
and the prober can be found.
-/

namespace Montage.CommandLine.SelfCheck

private def line (text : String) : String := "reel-selfcheck: " ++ text ++ "\n"

/-- Runs the check with the settings of the environment. It prints as far as it comes. -/
def run (host : Host) (files : FileSystem) : Outcome :=
  let config := Config.ofEnvironment host.environment
  let started := line ("starting with output_dir=" ++ config.outputDirectory.text)
  match files.createDirectories config.outputDirectory with
  | (.error _, files) => ⟨failureCode, started, files⟩
  | (.ok (), files) =>
    match host.machine.find? files config.engine, host.machine.find? files config.prober with
    | some engine, some prober =>
      let found := line ("ffmpeg=" ++ engine.path.text ++ " ffprobe=" ++ prober.path.text)
      ⟨0, started ++ found ++ line "ok", files⟩
    | _, _ => ⟨failureCode, started, files⟩

end Montage.CommandLine.SelfCheck
