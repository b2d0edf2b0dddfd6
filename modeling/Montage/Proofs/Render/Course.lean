import Montage.Proofs.Engine.Process
import Montage.RenderJob

/-!
# The course of a render

A render prepares a program, runs it and removes the uploads. What prepares the program only looks
at the files, so what it answers is a function of them. The run ends in one of few ways.
-/

namespace Montage

open Montage.Graph (Program)
open Montage.Numeric (Binary64)

/-! ### Steps that only look -/

/-- What a step comes to from a session: its answer and the session afterwards. -/
def RenderStep.outcome {α : Type} (step : RenderStep α) (session : Session) :
    Except (Halt RenderError) α × Session := (ExceptT.run step).run session

/-- The files are as they were, and nothing more was asked of the engine or the remover. -/
structure Session.Untouched (before after : Session) : Prop where
  files : after.files = before.files
  requests : after.requests = before.requests
  removals : after.removals = before.removals

/-- The step answers from the files, which it does not touch. -/
def RenderStep.Answers {α : Type} (step : RenderStep α)
    (answer : FileSystem → Except (Halt RenderError) α) : Prop :=
  ∀ session, ∃ after, step.outcome session = (answer session.files, after) ∧
    session.Untouched after

namespace RenderStep

variable {α β : Type}

theorem outcome_bind (step : RenderStep α) (next : α → RenderStep β) (session : Session) :
    outcome (step >>= next) session =
      match step.outcome session with
      | (.ok value, after) => (next value).outcome after
      | (.error e, after) => (.error e, after) := by
  unfold outcome
  rw [ExceptT.run_bind, StateT.run_bind]
  rcases (ExceptT.run step).run session with ⟨_ | _, after⟩ <;> rfl

theorem outcome_get (session : Session) :
    outcome (get : RenderStep Session) session = (.ok session, session) := rfl

theorem answers_throw (halt : Halt RenderError) :
    Answers (throw halt : RenderStep α) fun _ ↦ .error halt :=
  fun session ↦ ⟨session, rfl, rfl, rfl, rfl⟩

theorem Answers.bind {step : RenderStep α} {next : α → RenderStep β}
    {answer : FileSystem → Except (Halt RenderError) α}
    {others : α → FileSystem → Except (Halt RenderError) β} (hs : step.Answers answer)
    (hn : ∀ value, (next value).Answers (others value)) :
    Answers (step >>= next) fun files ↦ answer files >>= fun value ↦ others value files := by
  intro session
  obtain ⟨middle, hmiddle, hfirst⟩ := hs session
  rw [outcome_bind, hmiddle]
  dsimp only
  cases ha : answer session.files with
  | error e => exact ⟨middle, rfl, hfirst⟩
  | ok value =>
    obtain ⟨after, hafter, hsecond⟩ := hn value middle
    rw [hfirst.files] at hafter
    exact ⟨after, hafter, hsecond.files.trans hfirst.files,
      hsecond.requests.trans hfirst.requests, hsecond.removals.trans hfirst.removals⟩

end RenderStep

/-! ### Sources that have to be probed -/

/-- A source has to be probed if its length is not declared, or its sound is neither declared nor
muted. -/
def mustProbe (duration : Option Binary64) (hasAudio : Option Bool) (volume : Binary64) : Bool :=
  duration.isNone || (hasAudio.isNone && !decide (volume ≤ 0))

/-- The paths that have to be probed for one source. -/
def sourceProbes (path : FilePath) (duration : Option Binary64) (hasAudio : Option Bool)
    (volume : Binary64) : List FilePath :=
  if mustProbe duration hasAudio volume then [path] else []

/-- The paths that have to be probed for a split screen, in order. -/
def SplitScreen.probes (screen : SplitScreen) : List FilePath :=
  sourceProbes screen.primary screen.primaryDuration screen.primaryHasAudio screen.primaryVolume ++
    sourceProbes screen.secondary screen.secondaryDuration screen.secondaryHasAudio
      screen.secondaryVolume

namespace RenderJob

/-- Whether the engine of a job runs a process, on one machine. -/
def RunsProcess (job : RenderJob) : Prop :=
  ∃ machine binary, ∀ request files,
    Engine.Course machine binary request files (job.engine request files)

variable {job : RenderJob}

/-! ### Preparing a program -/

/-- Refuses the first input that does not exist. -/
def inputsThere (paths : List FilePath) (files : FileSystem) : Except (Halt RenderError) Unit :=
  match paths.find? fun path ↦ !files.pathExists path with
  | some path => .error (.failure (.media (.fileNotFound path)))
  | none => .ok ()

theorem inputsThere_eq_ok {paths : List FilePath} {files : FileSystem} :
    inputsThere paths files = .ok () ↔ ∀ path ∈ paths, files.pathExists path = true := by
  unfold inputsThere
  cases hf : paths.find? fun path ↦ !files.pathExists path with
  | none =>
    refine iff_of_true rfl fun path hp ↦ ?_
    simpa using List.find?_eq_none.mp hf path hp
  | some path =>
    have hmissing := List.find?_some hf
    refine iff_of_false (by simp) fun hall ↦ ?_
    simp [hall path (List.mem_of_find?_eq_some hf)] at hmissing

theorem requireInputs_outcome (paths : List FilePath) (session : Session) :
    (requireInputs paths).outcome session = (inputsThere paths session.files, session) := by
  unfold requireInputs inputsThere
  rw [RenderStep.outcome_bind, RenderStep.outcome_get]
  dsimp only
  cases paths.find? fun path ↦ !session.files.pathExists path <;> rfl

theorem requireInputs_answers (paths : List FilePath) :
    (requireInputs paths).Answers (inputsThere paths) :=
  fun session ↦ ⟨session, requireInputs_outcome paths session, rfl, rfl, rfl⟩

/-- The program of a request, or why there is none. -/
def prepared (job : RenderJob) (request : RenderRequest) (files : FileSystem) :
    Except (Halt RenderError) Program :=
  match request.bound with
  | .error defect => .error (.failure (.invalidRequest defect.message))
  | .ok composition => do
    inputsThere composition.inputPaths files
    (composition.compile job.config.fontPlatform.resolve).mapError (.map .ofCompile)

/-- The first part of a render, which prepares the program. -/
def prepare (job : RenderJob) (request : RenderRequest) : RenderStep Program := do
  Session.note (.info s!"Render started: {request.composition.clips.length} clips")
  match request.bound with
  | .error defect => throw (.failure (.invalidRequest defect.message))
  | .ok composition =>
    requireInputs composition.inputPaths
    job.compileRequest request

theorem render_eq (job : RenderJob) (request : RenderRequest) (uploads : TempFiles)
    (remover : Remover) : job.render request uploads remover =
      finish (job.prepare request >>= job.execute) uploads remover := by
  unfold render prepare
  cases request.bound with
  | error defect => rfl
  | ok composition => simp only [bind_assoc]

private theorem compileRequest_answers (job : RenderJob) {request : RenderRequest}
    {composition : Composition} (h : request.bound = .ok composition) :
    (job.compileRequest request).Answers fun _ ↦
      (composition.compile job.config.fontPlatform.resolve).mapError (.map .ofCompile) := by
  unfold compileRequest
  rw [h]
  dsimp only
  cases composition.compile job.config.fontPlatform.resolve with
  | error e => exact fun session ↦ ⟨session, rfl, rfl, rfl, rfl⟩
  | ok program => exact fun _ ↦ ⟨_, rfl, rfl, rfl, rfl⟩

theorem note_answers (event : LogEvent) :
    RenderStep.Answers (Session.note event) fun _ ↦ .ok () :=
  fun _ ↦ ⟨_, rfl, rfl, rfl, rfl⟩

theorem prepare_answers (job : RenderJob) (request : RenderRequest) :
    (job.prepare request).Answers (job.prepared request) := by
  unfold prepare prepared
  cases h : request.bound with
  | error defect => exact (note_answers _).bind fun _ ↦ RenderStep.answers_throw _
  | ok composition =>
    exact (note_answers _).bind fun _ ↦ (requireInputs_answers _).bind fun _ ↦
      job.compileRequest_answers h

/-- What is known about a source, or why nothing is. -/
def sourceKnown (job : RenderJob) (path : FilePath) (duration : Option Binary64)
    (hasAudio : Option Bool) (volume : Binary64) (files : FileSystem) :
    Except (Halt RenderError) SourceInfo :=
  match duration, hasAudio <|> (if volume ≤ 0 then some false else none) with
  | some duration, some hasAudio => .ok ⟨duration, hasAudio⟩
  | duration, hasAudio =>
    match job.prober files path with
    | .ok info => .ok ⟨duration.getD info.duration, hasAudio.getD info.hasAudio⟩
    | .error e => .error (.failure (.media e))

/-- A source is probed exactly if it has to be. -/
theorem sourceInfo_outcome (job : RenderJob) (path : FilePath) (duration : Option Binary64)
    (hasAudio : Option Bool) (volume : Binary64) (session : Session) :
    (job.sourceInfo path duration hasAudio volume).outcome session =
      (job.sourceKnown path duration hasAudio volume session.files,
        { session with
          probed := session.probed ++ sourceProbes path duration hasAudio volume }) := by
  have hprobed : ∀ (duration : Option Binary64) (hasAudio : Option Bool),
      RenderStep.outcome (do
          modify fun session => { session with probed := session.probed ++ [path] }
          match job.prober (← get).files path with
          | .ok info => return ⟨duration.getD info.duration, hasAudio.getD info.hasAudio⟩
          | .error e => throw (.failure (.media e))) session =
        ((match job.prober session.files path with
          | .ok info => .ok ⟨duration.getD info.duration, hasAudio.getD info.hasAudio⟩
          | .error e => .error (.failure (.media e)) : Except (Halt RenderError) SourceInfo),
        { session with probed := session.probed ++ [path] }) := by
    intro duration hasAudio
    rw [RenderStep.outcome_bind]
    show RenderStep.outcome (match job.prober session.files path with
      | .ok info => _
      | .error e => _) _ = _
    cases job.prober session.files path <;> rfl
  unfold sourceInfo sourceKnown sourceProbes mustProbe
  cases duration with
  | none => exact hprobed none _
  | some duration =>
    cases hasAudio with
    | none =>
      by_cases hv : volume ≤ 0
      · simp [hv]
        rfl
      · simp only [if_neg hv, decide_eq_false hv]
        exact hprobed (some duration) none
    | some hasAudio =>
      simp
      rfl

theorem sourceInfo_answers (job : RenderJob) (path : FilePath) (duration : Option Binary64)
    (hasAudio : Option Bool) (volume : Binary64) :
    (job.sourceInfo path duration hasAudio volume).Answers
      (job.sourceKnown path duration hasAudio volume) :=
  fun session ↦ ⟨_, job.sourceInfo_outcome path duration hasAudio volume session, rfl, rfl, rfl⟩

/-- The program of a split screen, or why there is none. -/
def preparedScreen (job : RenderJob) (screen : SplitScreen) (files : FileSystem) :
    Except (Halt RenderError) Program := do
  inputsThere screen.inputPaths files
  let primary ← job.sourceKnown screen.primary screen.primaryDuration screen.primaryHasAudio
    screen.primaryVolume files
  let secondary ← job.sourceKnown screen.secondary screen.secondaryDuration
    screen.secondaryHasAudio screen.secondaryVolume files
  (screen.compile primary secondary).mapError (.map .ofCompile)

/-- The first part of the render of a split screen. -/
def prepareScreen (job : RenderJob) (request : SplitScreenRequest) : RenderStep Program := do
  Session.note (.info "Render started: two sources")
  job.compileScreen request.bound

theorem renderScreen_eq (job : RenderJob) (request : SplitScreenRequest) (uploads : TempFiles)
    (remover : Remover) : job.renderScreen request uploads remover =
      finish (job.prepareScreen request >>= job.execute) uploads remover := by
  unfold renderScreen prepareScreen
  simp only [bind_assoc]

private theorem compileScreen_answers (job : RenderJob) (screen : SplitScreen) :
    (job.compileScreen screen).Answers (job.preparedScreen screen) := by
  unfold compileScreen preparedScreen
  refine (requireInputs_answers _).bind fun _ ↦ ?_
  refine (job.sourceInfo_answers _ _ _ _).bind fun primary ↦ ?_
  refine (job.sourceInfo_answers _ _ _ _).bind fun secondary ↦ ?_
  cases screen.compile primary secondary with
  | error e => exact fun session ↦ ⟨session, rfl, rfl, rfl, rfl⟩
  | ok program => exact fun _ ↦ ⟨_, rfl, rfl, rfl, rfl⟩

theorem prepareScreen_answers (job : RenderJob) (request : SplitScreenRequest) :
    (job.prepareScreen request).Answers (job.preparedScreen request.bound) :=
  (note_answers _).bind fun _ ↦ job.compileScreen_answers request.bound

/-! ### Running a program -/

/-- Where the finished file of a render is. -/
def output (job : RenderJob) : FilePath := job.config.outputDirectory.join ⟨job.id.fileName⟩

/-- What is reported when a program was rendered. -/
def finished (job : RenderJob) (program : Program) : RenderOutput where
  url := job.config.publicUrl job.id.fileName
  outputPath := job.output
  duration := program.totalDuration
  completedAt := job.completedAt

/-- The files without what a failed run left at the output path. -/
def discarded (job : RenderJob) (files : FileSystem) : FileSystem :=
  match files.remove job.output with
  | .ok files => files
  | .error _ => files

/-- The run of a program once the output directory is made. -/
def engineRun (job : RenderJob) (program : Program) (made : FileSystem) : Engine.Run :=
  job.engine (.ofProgram program job.output) made

/-- How running a program can end: what was asked of the engine, the result, and the files that are
left. -/
inductive Execution (job : RenderJob) (program : Program) (files : FileSystem) :
    List Engine.Request → Except (Halt RenderError) RenderOutput → FileSystem → Prop
  | noDirectory {fault : FileFault} {made : FileSystem} :
      files.createDirectories job.config.outputDirectory = (.error fault, made) →
      Execution job program files [] (.error (.failure (.io fault.message))) made
  | failed {made : FileSystem} {e : MediaError} :
      files.createDirectories job.config.outputDirectory = (.ok (), made) →
      (job.engineRun program made).result = .error e →
      Execution job program files [.ofProgram program job.output] (.error (.failure (.media e)))
        (job.discarded (job.engineRun program made).files)
  | missing {made : FileSystem} :
      files.createDirectories job.config.outputDirectory = (.ok (), made) →
      (job.engineRun program made).result = .ok () →
      (job.engineRun program made).files.pathExists job.output = false →
      Execution job program files [.ofProgram program job.output]
        (.error (.failure (.media (.missingOutput job.output))))
        (job.discarded (job.engineRun program made).files)
  | rendered {made : FileSystem} :
      files.createDirectories job.config.outputDirectory = (.ok (), made) →
      (job.engineRun program made).result = .ok () →
      (job.engineRun program made).files.pathExists job.output = true →
      Execution job program files [.ofProgram program job.output] (.ok (job.finished program))
        (job.engineRun program made).files

theorem discardPartial_eq (job : RenderJob) (session : Session) :
    ∃ after, (Session.discardPartial job.output).run session = ((), after) ∧
      after.files = job.discarded session.files ∧ after.requests = session.requests ∧
      after.removals = session.removals := by
  refine ⟨_, rfl, ?_⟩
  unfold discarded
  dsimp only
  cases session.files.remove job.output with
  | ok files => exact ⟨rfl, rfl, rfl⟩
  | error fault => cases fault <;> exact ⟨rfl, rfl, rfl⟩

/-- A failure after the engine ran. -/
def failWith (job : RenderJob) (e : RenderError) : RenderStep RenderOutput := do
  Session.discardPartial job.output
  throw (.failure e)

/-- The part of running a program that comes after the engine. -/
def checkOutput (job : RenderJob) (program : Program) : RenderStep RenderOutput := do
  if (← get).files.pathExists job.output then
    return job.finished program
  else
    job.failWith (.media (.missingOutput job.output))

/-- The part of running a program that comes after its directory is made. -/
def runProgram (job : RenderJob) (program : Program) : RenderStep RenderOutput := do
  match ← Session.runEngine job.engine (.ofProgram program job.output) with
  | .error e => job.failWith (.media e)
  | .ok () => job.checkOutput program

theorem outcome_lift {α : Type} {step : StateM Session α} {session after : Session}
    {value : α} (h : step.run session = (value, after)) :
    RenderStep.outcome (liftM step) session = (.ok value, after) := by
  show (Except.ok (step.run session).1, (step.run session).2) = _
  rw [h]

private theorem failWith_outcome (job : RenderJob) (e : RenderError) (session : Session) :
    ∃ after, (job.failWith e).outcome session = (.error (.failure e), after) ∧
      after.files = job.discarded session.files ∧ after.requests = session.requests ∧
      after.removals = session.removals := by
  obtain ⟨after, hrun, h⟩ := job.discardPartial_eq session
  refine ⟨after, ?_, h⟩
  unfold failWith
  rw [RenderStep.outcome_bind, outcome_lift hrun]
  rfl

private theorem checkOutput_outcome (job : RenderJob) (program : Program) (session : Session) :
    (job.checkOutput program).outcome session =
      if session.files.pathExists job.output then (.ok (job.finished program), session)
      else (job.failWith (.media (.missingOutput job.output))).outcome session := by
  unfold checkOutput
  rw [RenderStep.outcome_bind, RenderStep.outcome_get]
  dsimp only
  split <;> rfl

private theorem runProgram_outcome (job : RenderJob) (program : Program) {files : FileSystem}
    (session : Session)
    (h : files.createDirectories job.config.outputDirectory = (.ok (), session.files)) :
    ∃ result requests after, (job.runProgram program).outcome session = (result, after) ∧
      Execution job program files requests result after.files ∧
      after.requests = session.requests ++ requests ∧ after.removals = session.removals := by
  obtain ⟨ran, hrun, hfiles, hrequests, hremovals⟩ :=
    Session.runEngine_eq job.engine (.ofProgram program job.output) session
  change ran.files = (job.engineRun program session.files).files at hfiles
  unfold runProgram
  rw [RenderStep.outcome_bind, outcome_lift hrun]
  change ∃ result requests after, (match (job.engineRun program session.files).result with
    | .error e => job.failWith (.media e)
    | .ok () => job.checkOutput program).outcome ran = (result, after) ∧ _
  cases hr : (job.engineRun program session.files).result with
  | error e =>
    obtain ⟨after, hout, hf, hq, hm⟩ := job.failWith_outcome (.media e) ran
    refine ⟨_, _, after, hout, ?_, hq.trans hrequests, hm.trans hremovals⟩
    rw [hf, hfiles]
    exact .failed h hr
  | ok =>
    have hout := job.checkOutput_outcome program ran
    by_cases he : ran.files.pathExists job.output = true
    · rw [if_pos he] at hout
      refine ⟨_, _, ran, hout, ?_, hrequests, hremovals⟩
      rw [hfiles] at he ⊢
      exact .rendered h hr he
    · rw [if_neg he] at hout
      obtain ⟨after, hfail, hf, hq, hm⟩ :=
        job.failWith_outcome (.media (.missingOutput job.output)) ran
      refine ⟨_, _, after, hout.trans hfail, ?_, hq.trans hrequests, hm.trans hremovals⟩
      rw [hf, hfiles]
      rw [hfiles, Bool.not_eq_true] at he
      exact .missing h hr he

/-- Running a program ends in one of the ways of an execution. -/
theorem execute_outcome (job : RenderJob) (program : Program) (session : Session) :
    ∃ result requests after, (job.execute program).outcome session = (result, after) ∧
      Execution job program session.files requests result after.files ∧
      after.requests = session.requests ++ requests ∧ after.removals = session.removals := by
  unfold execute
  rw [RenderStep.outcome_bind, RenderStep.outcome_get]
  dsimp only
  rcases hd : session.files.createDirectories job.config.outputDirectory with ⟨fault | ⟨⟩, made⟩
  · exact ⟨_, [], { session with files := made }, rfl, .noDirectory hd,
      (List.append_nil _).symm, rfl⟩
  · obtain ⟨result, requests, after, hout, h⟩ :=
      job.runProgram_outcome program { session with files := made } hd
    exact ⟨result, requests, after, hout, h⟩

/-- How a render can end: without a program, or with an execution of its program. -/
inductive Ending (job : RenderJob) (prepared : FileSystem → Except (Halt RenderError) Program)
    (files : FileSystem) :
    List Engine.Request → Except (Halt RenderError) RenderOutput → FileSystem → Prop
  | unprepared {halt : Halt RenderError} :
      prepared files = .error halt → Ending job prepared files [] (.error halt) files
  | executed {program : Program} {requests : List Engine.Request}
      {result : Except (Halt RenderError) RenderOutput} {left : FileSystem} :
      prepared files = .ok program → Execution job program files requests result left →
      Ending job prepared files requests result left

private theorem steps_outcome {job : RenderJob} {step : RenderStep Program}
    {prepared : FileSystem → Except (Halt RenderError) Program} (h : step.Answers prepared)
    (files : FileSystem) :
    ∃ result after, (step >>= job.execute).outcome { files } = (result, after) ∧
      Ending job prepared files after.requests result after.files ∧ after.removals = [] := by
  obtain ⟨ready, hready, hf, hq, hm⟩ := h { files }
  rw [RenderStep.outcome_bind, hready]
  dsimp only
  cases hp : prepared files with
  | error e =>
    refine ⟨_, ready, rfl, ?_, hm⟩
    rw [hf, hq]
    exact .unprepared hp
  | ok program =>
    obtain ⟨result, requests, after, hout, hex, hafter, hremovals⟩ :=
      job.execute_outcome program ready
    refine ⟨result, after, hout, ?_, hremovals.trans hm⟩
    rw [hf] at hex
    rw [hafter, hq]
    exact .executed hp hex

/-- However its steps end, a render removes the uploads in the end: it cleans them up, or drops them
if it was stopped. -/
theorem finish_run {steps : RenderStep RenderOutput} (uploads : TempFiles) (remover : Remover)
    {session ran : Session} {result : Except (Halt RenderError) RenderOutput}
    (h : (ExceptT.run steps).run session = (result, ran)) :
    ∃ after, (finish steps uploads remover).run session = (result, after) ∧
      after.files = (uploads.cleanup remover ran.files).files ∧
      after.removals = ran.removals ++ (uploads.cleanup remover ran.files).attempts.map (·.1) ∧
      after.requests = ran.requests := by
  unfold finish
  rw [StateT.run_bind, h]
  rcases result with (e | _) | output
  · exact ⟨_, rfl, rfl, rfl, rfl⟩
  · rw [← TempFiles.drop_false]
    exact ⟨_, rfl, rfl, rfl, rfl⟩
  · exact ⟨_, rfl, rfl, rfl, rfl⟩

/-- A render ends in one of the ways of `Ending`, and then the uploads are removed. -/
theorem finish_ending {job : RenderJob} {step : RenderStep Program}
    {prepared : FileSystem → Except (Halt RenderError) Program} (h : step.Answers prepared)
    (uploads : TempFiles) (remover : Remover) (files : FileSystem) :
    ∃ result left after,
      (finish (step >>= job.execute) uploads remover).run { files } = (result, after) ∧
      Ending job prepared files after.requests result left ∧
      after.files = (uploads.cleanup remover left).files ∧ after.removals = uploads.paths := by
  obtain ⟨result, ran, hran, hending, hremovals⟩ := steps_outcome h files
  have hrun : (ExceptT.run (step >>= job.execute)).run { files } = (result, ran) := hran
  obtain ⟨after, hafter, hfiles, hattempts, hrequests⟩ := finish_run uploads remover hrun
  rw [← hrequests] at hending
  refine ⟨result, ran.files, after, hafter, hending, hfiles, ?_⟩
  rw [hattempts, hremovals, TempFiles.attempts_cleanup, List.nil_append]

end RenderJob

end Montage
