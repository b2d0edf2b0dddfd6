import Mathlib
import Montage.Engine.Process
import Montage.Proofs.Compile.Layout
import Montage.Proofs.Render.Course

/-!
# Orderly renders

Whatever the request, the files and the engine, a render asks the engine at most once and not before
all is ready, makes one removal attempt for each upload after that, succeeds exactly when the engine
did and the output is there, and takes away nothing but the uploads and a partial output.
-/

namespace Montage

open Montage.Graph (Program)

/-- What a remover does not refuse it removes. -/
def Remover.Removes (remover : Remover) : Prop :=
  ∀ path files files', remover path files = .ok files' → files.remove path = .ok files'

/-- Later files lead to the same places, and what is lost of the earlier ones was at these paths. -/
structure FileSystem.LosesOnly (paths : List FilePath) (earlier later : FileSystem) : Prop where
  locate : ∀ path place, later.locate path = .ok place ↔ earlier.locate path = .ok place
  entry : ∀ place entry, earlier.entry? place = some entry →
    later.entry? place = some entry ∨ ∃ path ∈ paths, earlier.locate path = .ok place

namespace FileSystem.LosesOnly

variable {paths : List FilePath} {earlier fs fs' : FileSystem}

theorem refl (paths : List FilePath) (fs : FileSystem) : LosesOnly paths fs fs where
  locate _ _ := Iff.rfl
  entry _ _ h := Or.inl h

theorem remove {path : FilePath} (h : LosesOnly paths earlier fs) (hp : path ∈ paths)
    (hr : fs.remove path = .ok fs') : LosesOnly paths earlier fs' where
  locate other place := (locate_of_remove hr other place).trans (h.locate other place)
  entry place entry he := by
    rcases h.entry place entry he with hkept | hlost
    · rcases entry?_of_remove hr hkept with hkept | hat
      · exact Or.inl hkept
      · exact Or.inr ⟨path, hp, (h.locate path place).mp hat⟩
    · exact Or.inr hlost

theorem cleanup {remover : Remover} {uploads : TempFiles} (h : LosesOnly paths earlier fs)
    (hr : remover.Removes) (hu : ∀ path ∈ uploads.paths, path ∈ paths) :
    LosesOnly paths earlier (uploads.cleanup remover fs).files :=
  TempFiles.cleanup_preserves h fun path hm before after hb ha ↦
    hb.remove (hu path hm) (hr path before after ha)

end FileSystem.LosesOnly

namespace RenderJob

/-- The program of the request when its binding, its inputs and its compilation are in order. -/
def Ready (job : RenderJob) (request : RenderRequest) (files : FileSystem) (program : Program) :
    Prop :=
  ∃ composition, request.bound = .ok composition ∧
    (∀ path ∈ composition.inputPaths, files.pathExists path = true) ∧
    composition.compile job.config.fontPlatform.resolve = .ok program

/-- The same for a split screen, whose sources also have to be known. -/
def ScreenReady (job : RenderJob) (request : SplitScreenRequest) (files : FileSystem)
    (program : Program) : Prop :=
  (∀ path ∈ request.bound.inputPaths, files.pathExists path = true) ∧
    ∃ primary secondary,
      job.sourceKnown request.bound.primary request.bound.primaryDuration
        request.bound.primaryHasAudio request.bound.primaryVolume files = .ok primary ∧
      job.sourceKnown request.bound.secondary request.bound.secondaryDuration
        request.bound.secondaryHasAudio request.bound.secondaryVolume files = .ok secondary ∧
      request.bound.compile primary secondary = .ok program

/-- The run of the engine for a program that is ready. Its output directory is made, which leaves
all files as they are. -/
def Asks (job : RenderJob) (ready : FileSystem → Program → Prop) (files : FileSystem)
    (program : Program) (run : Engine.Run) : Prop :=
  ready files program ∧
    ∃ made, files.createDirectories job.config.outputDirectory = (.ok (), made) ∧
      (∀ place entry, files.entry? place = some entry → made.entry? place = some entry) ∧
      run = job.engine (.ofProgram program job.output) made

/-- What a render that does not ask the engine leaves to the removal of its uploads: the files as
they were or, where the output directory cannot be made, with those directories above it that
can. -/
def Unasked (job : RenderJob) (ready : FileSystem → Program → Prop) (files left : FileSystem) :
    Prop :=
  (∀ place entry, files.entry? place = some entry → left.entry? place = some entry) ∧
    (left = files ∨ ∃ program fault, ready files program ∧
      files.createDirectories job.config.outputDirectory = (.error fault, left))

/-- What is true of every render that begins with these files. -/
structure Orderly (job : RenderJob) (ready : FileSystem → Program → Prop) (uploads : TempFiles)
    (remover : Remover) (files : FileSystem) (result : Except (Halt RenderError) RenderOutput)
    (after : Session) : Prop where
  /-- The engine is asked once if all is ready, else never. -/
  engine : (∃ program run, job.Asks ready files program run ∧
      after.requests = [.ofProgram program job.output]) ∨
    (∀ program run, ¬ job.Asks ready files program run) ∧ after.requests = []
  /-- Success is that of the engine, with an output. -/
  succeeds : (∃ output, result = .ok output) ↔ ∃ program run, job.Asks ready files program run ∧
    run.result = .ok () ∧ run.files.pathExists job.output = true
  /-- Each upload gets one attempt. -/
  removals : after.removals = uploads.paths
  removed_once : ∀ path ∈ uploads.paths, after.removals.countP (·.same path) = 1
  /-- The attempts are made on what the engine left. -/
  cleaned : ∃ left, after.files = (uploads.cleanup remover left).files ∧
    (after.requests = [] ∧ job.Unasked ready files left ∨
      ∃ program run, job.Asks ready files program run ∧
        (left = run.files ∨ run.files.remove job.output = .ok left))
  /-- After a failure of the run there is no output, unless a directory is in its place. -/
  discards : remover.Removes → ∀ halt, result = .error halt →
    ∀ program run, job.Asks ready files program run →
      run.files.isDirectory job.output = false → after.files.pathExists job.output = false
  /-- Nothing else is taken away. -/
  loses_uploads : remover.Removes → after.requests = [] →
    ∃ left, job.Unasked ready files left ∧
      FileSystem.LosesOnly uploads.paths left after.files
  loses_only : remover.Removes → ∀ program run, job.Asks ready files program run →
    FileSystem.LosesOnly (job.output :: uploads.paths) run.files after.files
  /-- A process is not started for a request that is refused. -/
  configuration : job.RunsProcess →
    ∀ e, result = .error (.failure e) → e.kind = .configuration → after.requests = []
  /-- The engine is not asked by a render that is stopped. -/
  stopped : result = .error .overflow → after.requests = []

variable {job : RenderJob} {files : FileSystem}

theorem prepared_eq_ok {request : RenderRequest} {program : Program} :
    job.prepared request files = .ok program ↔ job.Ready request files program := by
  unfold prepared Ready
  constructor
  · intro h
    cases hb : request.bound with
    | error defect =>
      rw [hb] at h
      cases h
    | ok composition =>
      rw [hb] at h
      obtain ⟨_, hi, hc⟩ := exists_of_bind_eq_ok h
      exact ⟨composition, rfl, inputsThere_eq_ok.mp hi, mapError_eq_ok.mp hc⟩
  · rintro ⟨composition, hb, hi, hc⟩
    rw [hb]
    dsimp only
    rw [inputsThere_eq_ok.mpr hi, hc]
    rfl

theorem preparedScreen_eq_ok {request : SplitScreenRequest} {program : Program} :
    job.preparedScreen request.bound files = .ok program ↔
      job.ScreenReady request files program := by
  unfold preparedScreen ScreenReady
  constructor
  · intro h
    obtain ⟨_, hi, h⟩ := exists_of_bind_eq_ok h
    obtain ⟨primary, hp, h⟩ := exists_of_bind_eq_ok h
    obtain ⟨secondary, hs, hc⟩ := exists_of_bind_eq_ok h
    exact ⟨inputsThere_eq_ok.mp hi, primary, secondary, hp, hs, mapError_eq_ok.mp hc⟩
  · rintro ⟨hi, primary, secondary, hp, hs, hc⟩
    rw [inputsThere_eq_ok.mpr hi, hp, hs]
    exact mapError_eq_ok.mpr hc

/-- Among paths of which no two are the same each is met once. -/
private theorem countP_same_eq_one {paths : List FilePath}
    (h : paths.Pairwise fun a b ↦ a.same b = false) {path : FilePath} (hp : path ∈ paths) :
    paths.countP (·.same path) = 1 := by
  induction h with
  | nil => cases hp
  | @cons first rest hfirst _ ih =>
    rw [List.countP_cons]
    rcases List.mem_cons.mp hp with rfl | hm
    · have hzero : rest.countP (·.same path) = 0 := by
        rw [List.countP_eq_zero]
        intro other ho
        rw [FilePath.same_comm, hfirst other ho]
        exact Bool.false_ne_true
      rw [hzero, if_pos (FilePath.same_self path)]
    · have hne : ¬ first.same path = true := by
        rw [hfirst path hm]
        exact Bool.false_ne_true
      rw [ih hm, if_neg hne]

variable {ready : FileSystem → Program → Prop}
  {prepared : FileSystem → Except (Halt RenderError) Program}
  {uploads : TempFiles} {remover : Remover} {result : Except (Halt RenderError) RenderOutput}
  {left : FileSystem} {after : Session}

/-- A program is asked for at most once, and its run is known. -/
private theorem asks_iff (hready : ∀ program, prepared files = .ok program ↔ ready files program)
    {program : Program} (hp : prepared files = .ok program) {made : FileSystem}
    (hd : files.createDirectories job.config.outputDirectory = (.ok (), made)) {other : Program}
    {run : Engine.Run} :
    job.Asks ready files other run ↔ other = program ∧ run = job.engineRun program made := by
  constructor
  · rintro ⟨hr, found, hfound, -, rfl⟩
    obtain rfl : made = found := congrArg Prod.snd (hd.symm.trans hfound)
    have ho := (hready other).mpr hr
    rw [hp] at ho
    obtain rfl := Except.ok.inj ho
    exact ⟨rfl, rfl⟩
  · rintro ⟨rfl, rfl⟩
    exact ⟨(hready other).mp hp, made, hd,
      fun place entry he ↦ FileSystem.entry?_of_created hd he, rfl⟩

/-- The engine is not asked without a program or without a directory. -/
private theorem not_asks (hready : ∀ program, prepared files = .ok program ↔ ready files program)
    (h : ∀ program, prepared files = .ok program →
      ∀ made, files.createDirectories job.config.outputDirectory ≠ (.ok (), made))
    (program : Program) (run : Engine.Run) : ¬ job.Asks ready files program run := by
  rintro ⟨hr, made, hd, -⟩
  exact h program ((hready program).mpr hr) made hd

theorem pathExists_discarded {fs : FileSystem} (h : fs.isDirectory job.output = false) :
    (job.discarded fs).pathExists job.output = false := by
  unfold discarded
  cases hr : fs.remove job.output with
  | ok left => exact FileSystem.pathExists_of_remove hr
  | error fault => exact FileSystem.pathExists_of_remove_eq_error hr h

private theorem discarded_eq_or (job : RenderJob) (fs : FileSystem) :
    job.discarded fs = fs ∨ fs.remove job.output = .ok (job.discarded fs) := by
  unfold discarded
  cases fs.remove job.output with
  | ok left => exact Or.inr rfl
  | error fault => exact Or.inl rfl

/-- A render that did not ask the engine is orderly. -/
private theorem orderly_of_not_asks (hu : uploads.paths.Pairwise fun a b ↦ a.same b = false)
    (hno : ∀ program run, ¬ job.Asks ready files program run)
    (hleft : job.Unasked ready files left) {halt : Halt RenderError}
    (hresult : result = .error halt) (hrequests : after.requests = [])
    (hfiles : after.files = (uploads.cleanup remover left).files)
    (hremovals : after.removals = uploads.paths) :
    job.Orderly ready uploads remover files result after where
  engine := Or.inr ⟨hno, hrequests⟩
  succeeds := by
    rw [hresult]
    constructor
    · rintro ⟨output, ho⟩
      cases ho
    · rintro ⟨program, run, ha, -⟩
      exact absurd ha (hno program run)
  removals := hremovals
  removed_once := by
    rw [hremovals]
    exact fun path hp ↦ countP_same_eq_one hu hp
  cleaned := ⟨left, hfiles, Or.inl ⟨hrequests, hleft⟩⟩
  discards _ _ _ program run ha := absurd ha (hno program run)
  loses_uploads hr _ := by
    rw [hfiles]
    exact ⟨left, hleft, (FileSystem.LosesOnly.refl _ _).cleanup hr fun _ hp ↦ hp⟩
  loses_only _ program run ha := absurd ha (hno program run)
  configuration _ _ _ _ := hrequests
  stopped _ := hrequests

/-- A render that asked the engine is orderly. -/
private theorem orderly_of_asks (hu : uploads.paths.Pairwise fun a b ↦ a.same b = false)
    {program : Program} {run : Engine.Run}
    (hasks : ∀ other run', job.Asks ready files other run' ↔ other = program ∧ run' = run)
    (hrequests : after.requests = [.ofProgram program job.output])
    (hsucceeds : (∃ output, result = .ok output) ↔
      run.result = .ok () ∧ run.files.pathExists job.output = true)
    (hleft : left = run.files ∨ left = job.discarded run.files)
    (hfails : ∀ halt, result = .error halt → left = job.discarded run.files)
    (hkind : job.RunsProcess → ∀ e, result = .error (.failure e) → e.kind ≠ .configuration)
    (hends : result ≠ .error .overflow)
    (hfiles : after.files = (uploads.cleanup remover left).files)
    (hremovals : after.removals = uploads.paths) :
    job.Orderly ready uploads remover files result after where
  engine := Or.inl ⟨program, run, (hasks program run).mpr ⟨rfl, rfl⟩, hrequests⟩
  succeeds := by
    rw [hsucceeds]
    constructor
    · intro h
      exact ⟨program, run, (hasks program run).mpr ⟨rfl, rfl⟩, h⟩
    · rintro ⟨other, run', ha, h⟩
      obtain ⟨-, rfl⟩ := (hasks other run').mp ha
      exact h
  removals := hremovals
  removed_once := by
    rw [hremovals]
    exact fun path hp ↦ countP_same_eq_one hu hp
  cleaned := by
    refine ⟨left, hfiles, Or.inr ⟨program, run, (hasks program run).mpr ⟨rfl, rfl⟩, ?_⟩⟩
    rcases hleft with rfl | rfl
    · exact Or.inl rfl
    · exact job.discarded_eq_or run.files
  discards hr e he other run' ha hd := by
    obtain ⟨-, rfl⟩ := (hasks other run').mp ha
    have habsent := pathExists_discarded hd
    rw [← hfails e he] at habsent
    rw [hfiles]
    refine TempFiles.cleanup_preserves (P := fun fs ↦ fs.pathExists job.output = false) habsent ?_
    intro path _ before after hb hremoved
    rw [Bool.eq_false_iff] at hb ⊢
    exact mt (FileSystem.pathExists_mono_of_remove (hr path before after hremoved)) hb
  loses_uploads _ hnone := by
    rw [hrequests] at hnone
    cases hnone
  loses_only hr other run' ha := by
    obtain ⟨-, rfl⟩ := (hasks other run').mp ha
    have hkept : FileSystem.LosesOnly (job.output :: uploads.paths) run'.files left := by
      have hrefl := FileSystem.LosesOnly.refl (job.output :: uploads.paths) run'.files
      rcases hleft with rfl | rfl
      · exact hrefl
      · rcases job.discarded_eq_or run'.files with hsame | hremoved
        · rw [hsame]
          exact hrefl
        · exact hrefl.remove List.mem_cons_self hremoved
    rw [hfiles]
    exact hkept.cleanup hr fun _ hp ↦ List.mem_cons_of_mem _ hp
  configuration hprocess e he hk := absurd hk (hkind hprocess e he)
  stopped ho := absurd ho hends

/-- However a render ends, it is orderly once the uploads are removed. -/
theorem Ending.orderly (hready : ∀ program, prepared files = .ok program ↔ ready files program)
    (hu : uploads.paths.Pairwise fun a b ↦ a.same b = false)
    (h : Ending job prepared files after.requests result left)
    (hfiles : after.files = (uploads.cleanup remover left).files)
    (hremovals : after.removals = uploads.paths) :
    job.Orderly ready uploads remover files result after := by
  generalize hrequests : after.requests = requests at h
  cases h with
  | unprepared hp =>
    have hno : ∀ program, prepared files = .ok program →
        ∀ made, files.createDirectories job.config.outputDirectory ≠ (.ok (), made) := by
      intro program ho
      rw [hp] at ho
      cases ho
    exact orderly_of_not_asks hu (not_asks hready hno) ⟨fun _ _ he ↦ he, Or.inl rfl⟩ rfl hrequests
      hfiles hremovals
  | @executed program _ _ _ hp hex =>
    cases hex with
    | @noDirectory fault _ hd =>
      have hno : ∀ program, prepared files = .ok program →
          ∀ made, files.createDirectories job.config.outputDirectory ≠ (.ok (), made) := by
        intro _ _ made hm
        rw [hd] at hm
        cases congrArg Prod.fst hm
      have hleft : job.Unasked ready files left :=
        ⟨fun place entry he ↦ FileSystem.entry?_of_created hd he,
          Or.inr ⟨program, fault, (hready program).mp hp, hd⟩⟩
      exact orderly_of_not_asks hu (not_asks hready hno) hleft rfl hrequests hfiles hremovals
    | failed hd hr =>
      refine orderly_of_asks hu (fun _ _ ↦ asks_iff hready hp hd) hrequests ?_ (Or.inr rfl)
        (fun _ _ ↦ rfl) ?_ ?_ hfiles hremovals
      · refine iff_of_false (fun ⟨output, ho⟩ ↦ ?_) fun ⟨ho, _⟩ ↦ ?_
        · cases ho
        · rw [hr] at ho
          cases ho
      · rintro ⟨machine, binary, hcourse⟩ found hf
        obtain rfl := Halt.failure_inj hf
        exact (hcourse _ _).kind_ne_configuration hr
      · intro ho
        cases ho
    | @missing made hd hr he =>
      refine orderly_of_asks hu (fun _ _ ↦ asks_iff hready hp hd) hrequests ?_ (Or.inr rfl)
        (fun _ _ ↦ rfl) ?_ ?_ hfiles hremovals
      · refine iff_of_false (fun ⟨output, ho⟩ ↦ ?_) fun ⟨_, ho⟩ ↦ ?_
        · cases ho
        · rw [he] at ho
          cases ho
      · intro _ found hf
        obtain rfl := Halt.failure_inj hf
        exact FailureKind.noConfusion
      · intro ho
        cases ho
    | @rendered made hd hr he =>
      refine orderly_of_asks hu (fun _ _ ↦ asks_iff hready hp hd) hrequests ?_ (Or.inl rfl)
        ?_ ?_ ?_ hfiles hremovals
      · exact iff_of_true ⟨_, rfl⟩ ⟨hr, he⟩
      · intro found hf
        cases hf
      · intro _ found hf
        cases hf
      · intro ho
        cases ho

end RenderJob

/-- Every render of a composition or a split screen is orderly. -/
theorem render_orderly (job : RenderJob) (uploads : TempFiles) (remover : Remover)
    (files : FileSystem) (hu : uploads.paths.Pairwise fun a b ↦ a.same b = false) :
    (∀ request : RenderRequest, ∃ result after,
      (job.render request uploads remover).run { files } = (result, after) ∧
        job.Orderly (job.Ready request) uploads remover files result after) ∧
    ∀ request : SplitScreenRequest, ∃ result after,
      (job.renderScreen request uploads remover).run { files } = (result, after) ∧
        job.Orderly (job.ScreenReady request) uploads remover files result after := by
  constructor
  · intro request
    obtain ⟨result, left, after, hrun, hending, hfiles, hremovals⟩ :=
      RenderJob.finish_ending (job.prepare_answers request) uploads remover files
    rw [← job.render_eq] at hrun
    exact ⟨result, after, hrun,
      hending.orderly (fun _ ↦ RenderJob.prepared_eq_ok) hu hfiles hremovals⟩
  · intro request
    obtain ⟨result, left, after, hrun, hending, hfiles, hremovals⟩ :=
      RenderJob.finish_ending (job.prepareScreen_answers request) uploads remover files
    rw [← job.renderScreen_eq] at hrun
    exact ⟨result, after, hrun,
      hending.orderly (fun _ ↦ RenderJob.preparedScreen_eq_ok) hu hfiles hremovals⟩

/-- A job whose engine is cancelled. -/
def cancelledJob : RenderJob where
  config := { outputDirectory := ⟨"o"⟩ }
  engine _ files := ⟨[.progress 10], .error .cancelled, files⟩
  prober _ _ := .error .cancelled
  id := ⟨"1"⟩
  completedAt := ⟨0, 0, 0⟩

/-- A clip of an upload. -/
def oneClip : Composition where
  clips := [⟨⟨"a"⟩, 0, 4⟩]

/-- The upload of one clip. -/
def oneFile : FileSystem := ⟨[(["a"], .file [] false)]⟩

private theorem cancelledJob_asks : ∃ program run,
    cancelledJob.Asks (cancelledJob.Ready { composition := oneClip }) oneFile program run := by
  have ha : oneClip.Accepted := Composition.accepted_of_toOption (by decide +kernel)
  obtain ⟨parts, -, hp⟩ := ha.compile_eq_ok (by decide) cancelledJob.config.fontPlatform.resolve
  have hinput : oneFile.pathExists ⟨"a"⟩ = true := by cbv
  have hmade : (oneFile.createDirectories ⟨"o"⟩).1.isOk = true := by cbv
  rcases hd : oneFile.createDirectories ⟨"o"⟩ with ⟨fault | ⟨⟩, made⟩
  · rw [hd] at hmade
    cases hmade
  · exact ⟨_, _, ⟨oneClip, rfl, List.forall_mem_singleton.mpr hinput, hp⟩, made, hd,
      fun place entry he ↦ FileSystem.entry?_of_created hd he, rfl⟩

/-- The engine is cancelled and the first upload cannot be removed; the second one is tried all the
same. -/
theorem render_orderly_cancelledJob :
    ∃ result after,
      (cancelledJob.render { composition := oneClip } ⟨[⟨"a"⟩, ⟨"b"⟩]⟩
        (Remover.denying [⟨"a"⟩])).run { files := oneFile } = (result, after) ∧
      (∀ output, result ≠ .ok output) ∧ after.requests.length = 1 ∧
      after.removals = [⟨"a"⟩, ⟨"b"⟩] := by
  obtain ⟨result, after, hrun, h⟩ := (render_orderly cancelledJob ⟨[⟨"a"⟩, ⟨"b"⟩]⟩
    (Remover.denying [⟨"a"⟩]) oneFile (by decide)).1 { composition := oneClip }
  obtain ⟨program, run, hasks⟩ := cancelledJob_asks
  refine ⟨result, after, hrun, ?_, ?_, h.removals⟩
  · rintro output ho
    obtain ⟨_, _, ⟨-, _, -, -, rfl⟩, hok, -⟩ := h.succeeds.mp ⟨output, ho⟩
    cases hok
  · rcases h.engine with ⟨_, _, -, hrequests⟩ | ⟨hno, -⟩
    · rw [hrequests]
      rfl
    · exact absurd hasks (hno program run)

end Montage
