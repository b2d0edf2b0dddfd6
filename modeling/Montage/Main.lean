import Montage.CommandLine.SelfCheck

/-!
# The program

Brings the arguments, the environment and the files to the pure program, and its output and its
changes to the files back. Other programs cannot be started from here, so no engine is ever found:
graphs and schemas are printed, and renders fail as they do where no engine is installed.
-/

namespace Montage.Main

open CommandLine (Host Outcome)

/-- What an open path is: a file, with its content if it is wanted, or a directory, which cannot be
read. -/
private def entryOf (handle : IO.FS.Handle) (wanted : Bool) : IO FileEntry := do
  try
    let content ← if wanted then handle.readBinToEnd else handle.read 1
    return .file (if wanted then content.toList else []) false
  catch _ => return .directory

/-- What is at a path. Only the files in `contentOf` are read. -/
private def entryAt? (contentOf : List FilePath) (path : FilePath) : IO (Option FileEntry) := do
  try
    let handle ← IO.FS.Handle.mk path.text .read
    return some (← entryOf handle (contentOf.contains path))
  catch _ => return none

/-- The file system as far as these paths are concerned. -/
private def snapshot (contentOf paths : List FilePath) : IO FileSystem :=
  paths.foldlM (fun files path => do
    match ← entryAt? contentOf path with
    | some entry => return (files.install path entry).toOption.getD files
    | none => return files) {}

private def pathOf (place : Place) : String :=
  match place.reverse with
  | "/" :: names => "/" ++ "/".intercalate names
  | names => "/".intercalate names

/-- Makes the changes from one state of the files to another. -/
private def makeChanges (before after : FileSystem) : IO Unit := do
  for (place, entry) in after.entries.reverse do
    if before.entry? place ≠ some entry then
      match entry with
      | .directory => IO.FS.createDirAll (pathOf place)
      | .file content _ => IO.FS.writeBinFile (pathOf place) ⟨content.toArray⟩
  for (place, _) in before.entries do
    if (after.entry? place).isNone then IO.FS.removeFile (pathOf place)

private def environment : IO Environment :=
  Config.variableNames.filterMapM fun name => do
    return (← IO.getEnv name).map fun value => (name, value)

private def host : IO Host := do
  let bytes ← IO.getRandomBytes 16
  return {
    machine := ⟨".", ".", []⟩
    environment := ← environment
    id := .ofRandom bytes.toList
    now := ⟨0, 0, 0⟩ }

/-- Runs the pure program on the files it looks at. -/
private def perform (host : Host) (words : List String) : IO Outcome := do
  let first := CommandLine.pathsOfInterest host words {}
  let known ← snapshot first first
  let files ← snapshot first (first ++ CommandLine.pathsOfInterest host words known)
  let outcome := CommandLine.run host words files
  makeChanges files outcome.files
  return outcome

private def performCheck (host : Host) : IO Outcome := do
  let files ← snapshot [] [(Config.ofEnvironment host.environment).outputDirectory]
  let outcome := CommandLine.SelfCheck.run host files
  makeChanges files outcome.files
  return outcome

end Montage.Main

/-- The program. Under the name of the self check it is the self check. -/
def main (words : List String) : IO UInt32 := do
  let host ← Montage.Main.host
  let name := toString (← IO.appPath)
  let outcome ←
    if name.endsWith "reel-selfcheck" then Montage.Main.performCheck host
    else Montage.Main.perform host words
  IO.print outcome.stdout
  return outcome.exitCode.toUInt32
