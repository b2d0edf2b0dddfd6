import Montage.CommandLine.Reader
import Montage.Engine.Process
import Montage.EnvironmentFile
import Montage.Json.Reader
import Montage.Json.Writer
import Montage.RenderJob
import Montage.Schema.Requests

/-!
# Running command lines

The program as a function: from the words of the command line, the environment and the files to the
exit code, the standard output and the files afterwards.
-/

namespace Montage.CommandLine

open Montage.Graph (Program)
open Json (Decoder Document)

/-- What a program is started with, apart from its arguments and the files. The name and the moment
are those of the render, if one is made. -/
structure Host where
  machine : Machine
  environment : Environment
  id : RenderId
  now : Moment

/-- What a run of a program came to. -/
structure Outcome where
  exitCode : Nat
  stdout : String
  files : FileSystem

/-- The exit code for command lines that make no sense. -/
def refusedCode : Nat := 2

/-- The exit code for everything else that goes wrong. -/
def failureCode : Nat := 1

/-- The exit code of a program that was stopped. -/
def stoppedCode : Nat := 101

private def environmentFile : FilePath := ⟨".env"⟩

/-- The settings of the environment and of the environment file in the working directory. -/
private def settings (host : Host) (files : FileSystem) : Config :=
  match files.read environmentFile with
  | .ok content => .ofEnvironment (EnvironmentFile.load content host.environment)
  | .error _ => .ofEnvironment host.environment

/-- The job of a run (`render_job`). -/
private def jobFor (host : Host) (config : Config) : RenderJob :=
  { config
    engine := .ofProcess host.machine config.engine false
    prober := Probe.run host.machine config.prober
    id := host.id
    completedAt := host.now }

/-- The request in a job file (`read_job`). -/
private def readJob? {α : Type} (decode : Decoder α) (files : FileSystem) (path : FilePath) :
    Option α := do
  let content ← (files.read path).toOption
  let text ← String.fromUTF8? ⟨content.toArray⟩
  ((Document.ofString text).decode decode).toOption

/-- Prints the graph of a program. -/
private def printGraph (step : RenderStep Program) (files : FileSystem) : Outcome :=
  match (step.run { files }).1 with
  | .ok program => ⟨0, program.filterGraph ++ "\n", files⟩
  | .error (.failure _) => ⟨failureCode, "", files⟩
  | .error .overflow => ⟨stoppedCode, "", files⟩

/-- Runs a render and prints what came of it. -/
private def report (render : StateM Session (Except (Halt RenderError) RenderOutput))
    (files : FileSystem) : Outcome :=
  let (result, session) := render { files }
  match result with
  | .ok output => ⟨0, output.toJson.pretty ++ "\n", session.files⟩
  | .error (.failure e) => ⟨failureCode, e.toFailure.toJson.pretty ++ "\n", session.files⟩
  | .error .overflow => ⟨stoppedCode, "", session.files⟩

/-- The uploads that a render removes at its end, unless they are to be kept (`uploads_for`). -/
private def uploadsToRemove (arguments : JobArguments) (uploads : List FilePath) : TempFiles :=
  if arguments.keepUploads then {} else ⟨uploads⟩

private def renderComposition (job : RenderJob) (arguments : JobArguments) (files : FileSystem) :
    Outcome :=
  match readJob? RenderRequest.decode files arguments.job with
  | none => ⟨failureCode, "", files⟩
  | some request =>
    if arguments.printGraph then printGraph (job.compileRequest request) files
    else
      report (job.render request (uploadsToRemove arguments request.uploads) FileSystem.remover)
        files

private def renderSplitScreen (job : RenderJob) (arguments : JobArguments) (files : FileSystem) :
    Outcome :=
  match readJob? SplitScreenRequest.decode files arguments.job with
  | none => ⟨failureCode, "", files⟩
  | some request =>
    if arguments.printGraph then printGraph (job.compileScreen request.bound) files
    else
      report
        (job.renderScreen request (uploadsToRemove arguments request.uploads) FileSystem.remover)
        files

/-- The paths that a run looks at, as far as the files at hand tell. -/
def pathsOfInterest (host : Host) (words : List String) (files : FileSystem) : List FilePath :=
  match read words with
  | .task (.render kind arguments) =>
    let named : List FilePath :=
      match kind with
      | .composition =>
        match readJob? RenderRequest.decode files arguments.job with
        | some request => request.composition.inputPaths ++ request.uploads
        | none => []
      | .splitScreen =>
        match readJob? SplitScreenRequest.decode files arguments.job with
        | some request => request.screen.inputPaths ++ request.uploads
        | none => []
    [environmentFile, arguments.job, (settings host files).outputDirectory] ++ named
  | _ => []

private def schemaOf : RequestKind → Schema
  | .composition => .ofRenderRequest
  | .splitScreen => .ofSplitScreenRequest

/-- Does a task. -/
def Task.run (task : Task) (host : Host) (files : FileSystem) : Outcome :=
  match task with
  | schema kind => ⟨0, (schemaOf kind).toJson.pretty ++ "\n", files⟩
  | render kind arguments =>
    let job := jobFor host (settings host files)
    match kind with
    | .composition => renderComposition job arguments files
    | .splitScreen => renderSplitScreen job arguments files

/-- Runs the program with the words of its command line. -/
def run (host : Host) (words : List String) (files : FileSystem) : Outcome :=
  match read words with
  | .refused => ⟨refusedCode, "", files⟩
  | .information text => ⟨0, text, files⟩
  | .task task => task.run host files

end Montage.CommandLine
