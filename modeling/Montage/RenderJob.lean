import Montage.Compile
import Montage.Config
import Montage.Engine.Basic
import Montage.Probe
import Montage.RenderOutput
import Montage.RenderRequest
import Montage.TempFiles
import Montage.Timestamp

/-!
# Render jobs

One render from the request to the finished file: the uploads are bound, the inputs looked for, the
program compiled and run, the output checked, and in the end, whatever happened, the uploads are
removed. A render that is stopped by an overflow answers nobody, and its uploads are removed as they
are dropped. A session keeps the files and everything that can be observed on the way.
-/

namespace Montage

open Montage.Graph (Program)

/-- The files during a render and what has been observed of it, each list in order: log events,
percentages given to the caller, runs asked of the engine, files asked of the prober, and removal
attempts. -/
structure Session where
  files : FileSystem
  log : List LogEvent := []
  progress : List Nat := []
  requests : List Engine.Request := []
  probed : List FilePath := []
  removals : List FilePath := []

/-- Reports on a source file. -/
abbrev Prober := FileSystem → FilePath → Except MediaError MediaInfo

/-- What a render works with: settings, engine, prober, the name of the render and its end. -/
structure RenderJob where
  config : Config
  engine : Engine
  prober : Prober
  id : RenderId
  completedAt : Moment

/-- A step of a render that may stop. -/
abbrev RenderStep := ExceptT (Halt RenderError) (StateM Session)

namespace Session

/-- Adds an event to the log. -/
def note (event : LogEvent) : StateM Session Unit :=
  modify fun session => { session with log := session.log ++ [event] }

/-- Takes note of what the engine lets know. -/
def observe (session : Session) (event : Engine.Event) : Session :=
  match event with
  | .progress percent =>
    { session with
      log := session.log ++ [.info s!"Render progress: {percent}%"]
      progress := session.progress ++ [percent] }
  | .log event => { session with log := session.log ++ [event] }

/-- Runs the engine. Each percentage is logged and given to the caller as it comes. -/
def runEngine (engine : Engine) (request : Engine.Request) :
    StateM Session (Except MediaError Unit) :=
  modifyGet fun session =>
    let run := engine request session.files
    let started := { session with requests := session.requests ++ [request] }
    (run.result, { run.events.foldl observe started with files := run.files })

private theorem foldl_observe (events : List Engine.Event) (session : Session) :
    (events.foldl observe session).requests = session.requests ∧
      (events.foldl observe session).removals = session.removals := by
  induction events generalizing session with
  | nil => exact ⟨rfl, rfl⟩
  | cons event rest ih =>
    obtain ⟨hq, hr⟩ := ih (session.observe event)
    cases event <;> exact ⟨hq, hr⟩

/-- A run is recorded and its files are kept, whatever it reports. -/
theorem runEngine_eq (engine : Engine) (request : Engine.Request) (session : Session) :
    ∃ after, (runEngine engine request).run session =
        ((engine request session.files).result, after) ∧
      after.files = (engine request session.files).files ∧
      after.requests = session.requests ++ [request] ∧ after.removals = session.removals := by
  obtain ⟨hq, hr⟩ := foldl_observe (engine request session.files).events
    { session with requests := session.requests ++ [request] }
  exact ⟨_, rfl, rfl, hq, hr⟩

/-- Removes what a failed run may have left at the output path (`discard_partial`). -/
def discardPartial (output : FilePath) : StateM Session Unit :=
  modify fun session =>
    match session.files.remove output with
    | .ok files => { session with files }
    | .error .notFound => session
    | .error _ =>
      { session with log := session.log ++ [.warning "Could not remove partial output"] }

/-- Makes one removal attempt for each upload and logs what could not be removed. -/
def removeUploads (uploads : TempFiles) (remover : Remover) : StateM Session Unit :=
  modify fun session =>
    let cleanup := uploads.cleanup remover session.files
    let failed := cleanup.report.failed
    let warning : List LogEvent :=
      if 0 < failed then [.warning s!"Render warning: {failed} uploads could not be removed"]
      else []
    { session with
      files := cleanup.files
      log := session.log ++ cleanup.log ++ warning
      removals := session.removals ++ cleanup.attempts.map (·.1) }

/-- Drops the uploads of a render that was stopped, which removes them as well. -/
def dropUploads (uploads : TempFiles) (remover : Remover) : StateM Session Unit :=
  modify fun session =>
    let cleanup := uploads.drop false remover session.files
    { session with
      files := cleanup.files
      log := session.log ++ cleanup.logOfDrop
      removals := session.removals ++ cleanup.attempts.map (·.1) }

end Session

namespace RenderJob

private def fail {α : Type} (e : RenderError) : RenderStep α := throw (.failure e)

private def failMedia {α : Type} (e : MediaError) : RenderStep α := fail (.media e)

private def liftCompile {α : Type} (result : Except (Halt CompileError) α) : RenderStep α :=
  match result with
  | .ok value => return value
  | .error halt => throw (halt.map .ofCompile)

/-- Refuses a list of inputs of which one does not exist (`ensure_inputs_exist`). -/
def requireInputs (paths : List FilePath) : RenderStep Unit := do
  let session ← get
  match paths.find? fun path => !session.files.pathExists path with
  | some path => failMedia (.fileNotFound path)
  | none => return

/-- The program of a composition request (`RenderJob.compile_only`). -/
def compileRequest (job : RenderJob) (request : RenderRequest) : RenderStep Program := do
  match request.bound with
  | .error defect => fail (.invalidRequest defect.message)
  | .ok composition =>
    let program ← liftCompile (composition.compile job.config.fontPlatform.resolve)
    Session.note (.info "Composition compiled")
    return program

/-- What is known about a source (`RenderJob.source_info`). It is probed unless its length is
declared and its sound is declared or muted. -/
def sourceInfo (job : RenderJob) (path : FilePath) (duration : Option Numeric.Binary64)
    (hasAudio : Option Bool) (volume : Numeric.Binary64) : RenderStep SourceInfo := do
  let hasAudio := hasAudio <|> (if volume ≤ 0 then some false else none)
  match duration, hasAudio with
  | some duration, some hasAudio => return ⟨duration, hasAudio⟩
  | duration, hasAudio =>
    modify fun session => { session with probed := session.probed ++ [path] }
    match job.prober (← get).files path with
    | .ok info => return ⟨duration.getD info.duration, hasAudio.getD info.hasAudio⟩
    | .error e => failMedia e

/-- The program of a split screen whose sources are in place (`RenderJob.compile_dual_spec`). -/
def compileScreen (job : RenderJob) (screen : SplitScreen) : RenderStep Program := do
  requireInputs screen.inputPaths
  let primary ← job.sourceInfo screen.primary screen.primaryDuration screen.primaryHasAudio
    screen.primaryVolume
  let secondary ← job.sourceInfo screen.secondary screen.secondaryDuration
    screen.secondaryHasAudio screen.secondaryVolume
  let program ← liftCompile (screen.compile primary secondary)
  Session.note (.info "Two-source render compiled")
  return program

/-- Makes the output directory, runs the program and checks that the output is there. -/
def execute (job : RenderJob) (program : Program) : RenderStep RenderOutput := do
  let (made, files) := (← get).files.createDirectories job.config.outputDirectory
  modify fun session => { session with files }
  if let .error fault := made then fail (.io fault.message)
  let output := job.config.outputDirectory.join ⟨job.id.fileName⟩
  match ← Session.runEngine job.engine (.ofProgram program output) with
  | .error e =>
    Session.discardPartial output
    failMedia e
  | .ok () =>
    if (← get).files.pathExists output then
      return {
        url := job.config.publicUrl job.id.fileName
        outputPath := output
        duration := program.totalDuration
        completedAt := job.completedAt }
    else
      Session.discardPartial output
      failMedia (.missingOutput output)

/-- The last event of a render. -/
def completion (result : Except RenderError RenderOutput) : LogEvent :=
  match result with
  | .ok output =>
    .info ("Render completed: " ++ output.outputPath.text ++ " (" ++
      Timestamp.format output.duration ++ ")")
  | .error e => .error ("Render error: " ++ e.message ++ " (" ++ e.kind.name ++ ")")

/-- Runs the steps of a render, then removes the uploads, then logs how it ended
(`RenderJob.finish`). If the steps were stopped the uploads are dropped, and nothing is logged of an
end. -/
def finish (steps : RenderStep RenderOutput) (uploads : TempFiles) (remover : Remover) :
    StateM Session (Except (Halt RenderError) RenderOutput) := do
  let result ← steps.run
  match answer? result with
  | some answer =>
    Session.removeUploads uploads remover
    Session.note (completion answer)
  | none => Session.dropUploads uploads remover
  return result

/-- Renders a composition. -/
def render (job : RenderJob) (request : RenderRequest) (uploads : TempFiles)
    (remover : Remover) : StateM Session (Except (Halt RenderError) RenderOutput) :=
  let steps : RenderStep RenderOutput := do
    Session.note (.info s!"Render started: {request.composition.clips.length} clips")
    match request.bound with
    | .error defect => fail (.invalidRequest defect.message)
    | .ok composition =>
      requireInputs composition.inputPaths
      job.execute (← job.compileRequest request)
  finish steps uploads remover

/-- Renders a split screen (`RenderJob.render_dual`). -/
def renderScreen (job : RenderJob) (request : SplitScreenRequest) (uploads : TempFiles)
    (remover : Remover) : StateM Session (Except (Halt RenderError) RenderOutput) :=
  let steps : RenderStep RenderOutput := do
    Session.note (.info "Render started: two sources")
    job.execute (← job.compileScreen request.bound)
  finish steps uploads remover

end RenderJob

end Montage
