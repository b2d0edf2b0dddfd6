import Mathlib
import Montage.Proofs.Engine.Process
import Montage.Proofs.Render.Course
import Montage.Proofs.Text.Utf8

/-!
# Diagnostics in failures

A failure tells what the process wrote on which the render failed. Of the engine the last characters
are kept, however its diagnostics were cut into reads. Of the prober everything is kept, so that
part is bounded only as far as what the prober writes is.
-/

namespace Montage

open Montage.Engine (decodedReads tailLimit)
open Montage.Graph (Program)
open Montage.Numeric (Binary64)

variable {machine : Machine} {files : FileSystem}

/-! ### Probing -/

namespace Probe

variable {binary : String} {path : FilePath}

theorem run_eq (machine : Machine) (binary : String) (files : FileSystem) (path : FilePath) :
    run machine binary files path =
      if files.pathExists path then
        match machine.find? files binary with
        | none => .error (.proberNotFound binary)
        | some program =>
          match program.run? with
          | none => .error (.io FileFault.notExecutable.message)
          | some execute =>
            let result := execute (proberArguments path) files
            if result.status.all (·.isSuccess) then ofOutput result.stdout
            else .error (.proberFailed ("FFprobe failed for " ++ path.text)
              (some (String.ofList (Text.decodeLossy result.stderr))))
      else .error (.fileNotFound path) := by
  unfold run
  cases files.pathExists path with
  | false => rfl
  | true =>
    cases machine.find? files binary with
    | none => rfl
    | some program =>
      cases hr : program.run? with
      | none => simp only [hr]; rfl
      | some execute => simp only [hr]; rfl

/-- What is wrong with the output of a prober comes without diagnostics. -/
theorem diagnostics_ofOutput {stdout : List UInt8} {fault : MediaError}
    (h : ofOutput stdout = .error fault) : fault.diagnostics? = none := by
  unfold ofOutput at h
  cases hd : (Json.Document.ofBytes ⟨stdout.toArray⟩).decode Report.decode with
  | error e =>
    rw [hd] at h
    obtain rfl := Except.error.inj h
    rfl
  | ok report =>
    rw [hd] at h
    dsimp only [Except.mapError, bind, Except.bind] at h
    cases hi : report.info? with
    | some info =>
      rw [hi] at h
      cases h
    | none =>
      rw [hi] at h
      obtain rfl := Except.error.inj h
      rfl

private theorem exists_status_of_not_success {status : Option ExitStatus}
    (h : ¬ status.all (·.isSuccess) = true) :
    ∃ code, status = some code ∧ code.isSuccess = false := by
  cases status with
  | none => exact absurd rfl h
  | some code => exact ⟨code, rfl, eq_false_of_ne_true h⟩

/-- Of the ways in which a probe fails only the failure of a process carries diagnostics. -/
private theorem fails_of_run {text : String} {fault : MediaError}
    (h : run machine binary files path = .error fault) (ht : fault.diagnostics? = some text) :
    files.pathExists path = true ∧ ∃ stderr,
      machine.Fails binary (proberArguments path) files stderr ∧
        text.toList = Text.decodeLossy stderr := by
  rw [run_eq] at h
  split at h
  · next hp =>
    split at h
    · obtain rfl := Except.error.inj h
      cases ht
    · next program hf =>
      split at h
      · obtain rfl := Except.error.inj h
        cases ht
      · next execute hr =>
        dsimp only at h
        split at h
        · rw [diagnostics_ofOutput h] at ht
          cases ht
        · next hs =>
          obtain rfl := Except.error.inj h
          obtain rfl := Option.some.inj ht
          obtain ⟨status, hstatus, hsuccess⟩ := exists_status_of_not_success hs
          exact ⟨hp, _, ⟨program, execute, status, hf, hr, hstatus, hsuccess, rfl⟩,
            String.toList_ofList⟩
  · obtain rfl := Except.error.inj h
    cases ht

/-- A probe fails with diagnostics just when the prober fails on a file that exists. The diagnostics
are all that the prober wrote. -/
theorem run_diagnostics_iff {text : String} :
    (∃ fault, run machine binary files path = .error fault ∧ fault.diagnostics? = some text) ↔
      files.pathExists path = true ∧ ∃ stderr,
        machine.Fails binary (proberArguments path) files stderr ∧
          text.toList = Text.decodeLossy stderr := by
  constructor
  · rintro ⟨fault, hrun, ht⟩
    exact fails_of_run hrun ht
  · rintro ⟨hp, stderr, ⟨program, execute, status, hf, hr, hstatus, hsuccess, rfl⟩, ht⟩
    refine ⟨.proberFailed ("FFprobe failed for " ++ path.text) (some text), ?_, rfl⟩
    rw [run_eq, if_pos hp, hf]
    dsimp only
    rw [hr]
    dsimp only
    rw [hstatus, Option.all_some, hsuccess, if_neg Bool.false_ne_true, ← ht, String.ofList_toList]

end Probe

/-! ### Preparing a split screen -/

namespace RenderJob

variable {job : RenderJob} {screen : SplitScreen} {path : FilePath} {fault : MediaError}

/-- What goes wrong when a path is probed. -/
def probeFault? (job : RenderJob) (files : FileSystem) (path : FilePath) : Option MediaError :=
  match job.prober files path with
  | .ok _ => none
  | .error fault => some fault

theorem probeFault?_eq_some_iff :
    job.probeFault? files path = some fault ↔ job.prober files path = .error fault := by
  unfold probeFault?
  cases job.prober files path <;> simp

theorem probeFault?_eq_none_iff :
    job.probeFault? files path = none ↔ ∃ info, job.prober files path = .ok info := by
  unfold probeFault?
  cases job.prober files path <;> simp

section Source

variable {duration : Option Binary64} {hasAudio : Option Bool} {volume : Binary64}

theorem sourceKnown_of_fault (h : (sourceProbes path duration hasAudio volume).findSome?
    (job.probeFault? files) = some fault) :
    job.sourceKnown path duration hasAudio volume files = .error (.failure (.media fault)) := by
  unfold sourceProbes at h
  cases hm : mustProbe duration hasAudio volume with
  | false => simp [hm] at h
  | true =>
    have hf : job.prober files path = .error fault := by
      simpa [hm, probeFault?_eq_some_iff] using h
    unfold sourceKnown
    cases duration with
    | none => simp [hf]
    | some duration =>
      cases hasAudio with
      | none =>
        have hv : ¬ volume ≤ 0 := by simpa [mustProbe] using hm
        simp [hv, hf]
      | some hasAudio => cases hm

theorem sourceKnown_of_no_fault (h : (sourceProbes path duration hasAudio volume).findSome?
    (job.probeFault? files) = none) :
    ∃ info, job.sourceKnown path duration hasAudio volume files = .ok info := by
  have hok : mustProbe duration hasAudio volume = true →
      ∃ info, job.prober files path = .ok info := by
    intro hm
    simpa [sourceProbes, hm, probeFault?_eq_none_iff] using h
  unfold sourceKnown
  cases duration with
  | none =>
    obtain ⟨info, hinfo⟩ := hok rfl
    simp [hinfo]
  | some duration =>
    cases hasAudio with
    | none =>
      by_cases hv : volume ≤ 0
      · simp [hv]
      · obtain ⟨info, hinfo⟩ := hok (by simp [mustProbe, hv])
        simp [hv, hinfo]
    | some hasAudio => simp

end Source

/-- The first probe that fails ends the preparation. -/
theorem preparedScreen_of_fault
    (hin : ∀ source ∈ screen.inputPaths, files.pathExists source = true)
    (hf : screen.probes.findSome? (job.probeFault? files) = some fault) :
    job.preparedScreen screen files = .error (.failure (.media fault)) := by
  rw [SplitScreen.probes, List.findSome?_append] at hf
  unfold preparedScreen
  rw [inputsThere_eq_ok.mpr hin]
  cases hfirst : (sourceProbes screen.primary screen.primaryDuration screen.primaryHasAudio
      screen.primaryVolume).findSome? (job.probeFault? files) with
  | some first =>
    rw [hfirst, Option.some_or] at hf
    rw [sourceKnown_of_fault hfirst, Option.some.inj hf]
    rfl
  | none =>
    rw [hfirst, Option.none_or] at hf
    obtain ⟨primary, hprimary⟩ := sourceKnown_of_no_fault hfirst
    rw [hprimary, sourceKnown_of_fault hf]
    rfl

/-- When no probe fails all that is left is to compile. -/
theorem preparedScreen_of_no_fault
    (hin : ∀ source ∈ screen.inputPaths, files.pathExists source = true)
    (hf : screen.probes.findSome? (job.probeFault? files) = none) :
    ∃ primary secondary, job.preparedScreen screen files =
      (screen.compile primary secondary).mapError (.map .ofCompile) := by
  rw [SplitScreen.probes, List.findSome?_append, Option.or_eq_none_iff] at hf
  obtain ⟨primary, hprimary⟩ := sourceKnown_of_no_fault hf.1
  obtain ⟨secondary, hsecondary⟩ := sourceKnown_of_no_fault hf.2
  unfold preparedScreen
  rw [inputsThere_eq_ok.mpr hin, hprimary, hsecondary]
  exact ⟨primary, secondary, rfl⟩

/-! ### Failures with diagnostics -/

theorem diagnostics_ofCompile (e : CompileError) :
    (MediaError.ofCompile e).diagnostics? = none := by
  unfold MediaError.ofCompile
  split <;> rfl

private theorem diagnostics_of_compile {α : Type} {compiled : Except (Halt CompileError) α}
    {e : RenderError}
    (h : compiled.mapError (Halt.map RenderError.ofCompile) = .error (Halt.failure e)) :
    e.diagnostics? = none := by
  obtain ⟨fault, -, rfl⟩ := mapError_map_eq_failure.mp h
  exact diagnostics_ofCompile fault

private theorem diagnostics_inputsThere {paths : List FilePath} {e : RenderError}
    (h : inputsThere paths files = .error (.failure e)) : e.diagnostics? = none := by
  unfold inputsThere at h
  split at h
  · obtain rfl := Halt.failure_inj h
    rfl
  · cases h

/-- Preparing a composition starts no process. -/
theorem diagnostics_prepared {request : RenderRequest} {e : RenderError}
    (h : job.prepared request files = .error (.failure e)) : e.diagnostics? = none := by
  unfold prepared at h
  split at h
  · obtain rfl := Halt.failure_inj h
    rfl
  · next composition hbound =>
    cases hin : inputsThere composition.inputPaths files with
    | error fault =>
      rw [hin] at h
      obtain rfl := Except.error.inj h
      exact diagnostics_inputsThere hin
    | ok _ =>
      rw [hin] at h
      exact diagnostics_of_compile h

/-- Diagnostics of a split screen that cannot be prepared are those of the first probe that
fails. -/
theorem preparedScreen_diagnostics {e : RenderError} {tail : String}
    (h : job.preparedScreen screen files = .error (.failure e)) (ht : e.diagnostics? = some tail) :
    (∀ source ∈ screen.inputPaths, files.pathExists source = true) ∧
      ∃ fault, screen.probes.findSome? (job.probeFault? files) = some fault ∧
        fault.diagnostics? = some tail := by
  cases hin : inputsThere screen.inputPaths files with
  | error fault =>
    unfold preparedScreen at h
    rw [hin] at h
    obtain rfl := Except.error.inj h
    rw [diagnostics_inputsThere hin] at ht
    cases ht
  | ok _ =>
    have hsources := inputsThere_eq_ok.mp hin
    refine ⟨hsources, ?_⟩
    cases hf : screen.probes.findSome? (job.probeFault? files) with
    | some fault =>
      rw [preparedScreen_of_fault hsources hf] at h
      obtain rfl := Halt.failure_inj h
      exact ⟨fault, rfl, ht⟩
    | none =>
      obtain ⟨primary, secondary, hcompile⟩ := preparedScreen_of_no_fault hsources hf
      rw [hcompile] at h
      rw [diagnostics_of_compile h] at ht
      cases ht

/-- The render fails and this is the tail of diagnostics in its failure. -/
def Reports (result : Except (Halt RenderError) RenderOutput) (tail : String) : Prop :=
  ∃ e, result = .error (.failure e) ∧ e.toFailure.diagnostics = some tail

/-- The diagnostics of a render are those of what prepares the program or those of the engine. -/
theorem Ending.reports {prepared : FileSystem → Except (Halt RenderError) Program}
    {requests : List Engine.Request} {result : Except (Halt RenderError) RenderOutput}
    {left : FileSystem} {tail : String} (h : Ending job prepared files requests result left)
    (hr : Reports result tail) :
    (requests = [] ∧ ∃ e, prepared files = .error (.failure e) ∧ e.diagnostics? = some tail) ∨
      ∃ request made e, requests = [request] ∧
        files.createDirectories job.config.outputDirectory = (.ok (), made) ∧
        (job.engine request made).result = .error e ∧ e.diagnostics? = some tail := by
  obtain ⟨e, he, ht⟩ := hr
  cases h with
  | unprepared hp =>
    obtain rfl := Except.error.inj he
    exact Or.inl ⟨rfl, _, hp, ht⟩
  | executed hp hex =>
    cases hex with
    | noDirectory hd =>
      obtain rfl := Halt.failure_inj he
      cases ht
    | failed hd hrun =>
      obtain rfl := Halt.failure_inj he
      exact Or.inr ⟨_, _, _, rfl, hd, hrun, ht⟩
    | missing hd hrun hout =>
      obtain rfl := Halt.failure_inj he
      cases ht
    | rendered hd hrun hout => cases he

/-! ### Where diagnostics come from -/

/-- The job starts the engine and the prober of its settings as processes of this machine. -/
structure RunsOn (job : RenderJob) (machine : Machine) : Prop where
  engine : ∀ request files,
    Engine.Course machine job.config.engine request files (job.engine request files)
  prober : job.prober = Probe.run machine job.config.prober

/-- The tail was kept from the engine, which failed in the one run it was asked for. -/
def FromEngine (job : RenderJob) (machine : Machine) (files : FileSystem)
    (requests : List Engine.Request) (tail : String) : Prop :=
  ∃ request made reads, requests = [request] ∧
    files.createDirectories job.config.outputDirectory = (.ok (), made) ∧
    machine.Fails job.config.engine request.arguments made reads.flatten ∧
    Engine.Keeps reads tail

/-- The prober fails on a source of the split screen after it wrote these diagnostics. Whatever else
had to be probed before succeeded. -/
structure ProberFails (job : RenderJob) (machine : Machine) (screen : SplitScreen)
    (files : FileSystem) (stderr : List UInt8) : Prop where
  sources : ∀ source ∈ screen.inputPaths, files.pathExists source = true
  first : ∃ before path after, screen.probes = before ++ path :: after ∧
    (∀ earlier ∈ before, ∃ info, job.prober files earlier = .ok info) ∧
    machine.Fails job.config.prober (Probe.proberArguments path) files stderr

theorem mem_inputPaths_of_mem_probes (h : path ∈ screen.probes) : path ∈ screen.inputPaths := by
  have hmem : ∀ {source : FilePath} {duration : Option Binary64} {hasAudio : Option Bool}
      {volume : Binary64}, path ∈ sourceProbes source duration hasAudio volume → path = source := by
    intro source duration hasAudio volume hp
    unfold sourceProbes at hp
    split at hp
    · exact List.mem_singleton.mp hp
    · cases hp
  rcases List.mem_append.mp h with hp | hp
  · exact List.mem_cons.mpr (Or.inl (hmem hp))
  · exact List.mem_cons_of_mem _ (List.mem_singleton.mpr (hmem hp))

/-- A probe fails with diagnostics just when the prober fails, and then they are all it wrote. -/
theorem RunsOn.probes_fail_iff (h : job.RunsOn machine) {tail : String} :
    ((∀ source ∈ screen.inputPaths, files.pathExists source = true) ∧
      ∃ fault, screen.probes.findSome? (job.probeFault? files) = some fault ∧
        fault.diagnostics? = some tail) ↔
      ∃ stderr, job.ProberFails machine screen files stderr ∧
        tail.toList = Text.decodeLossy stderr := by
  constructor
  · rintro ⟨hsources, fault, hf, ht⟩
    obtain ⟨before, path, after, hprobes, hfault, hbefore⟩ := List.findSome?_eq_some_iff.mp hf
    rw [probeFault?_eq_some_iff, h.prober] at hfault
    obtain ⟨-, stderr, hfails, htail⟩ := Probe.run_diagnostics_iff.mp ⟨fault, hfault, ht⟩
    exact ⟨stderr, ⟨hsources, before, path, after, hprobes,
      fun earlier he ↦ probeFault?_eq_none_iff.mp (hbefore earlier he), hfails⟩, htail⟩
  · rintro ⟨stderr, ⟨hsources, before, path, after, hprobes, hbefore, hfails⟩, htail⟩
    -- The probe gets as far as the process, since every source to be probed is there.
    have hpath : path ∈ screen.inputPaths :=
      mem_inputPaths_of_mem_probes (hprobes ▸ List.mem_append_right _ List.mem_cons_self)
    obtain ⟨fault, hfault, ht⟩ :=
      Probe.run_diagnostics_iff.mpr ⟨hsources path hpath, stderr, hfails, htail⟩
    rw [← h.prober, ← probeFault?_eq_some_iff] at hfault
    exact ⟨hsources, fault, List.findSome?_eq_some_iff.mpr ⟨before, path, after, hprobes, hfault,
      fun earlier he ↦ probeFault?_eq_none_iff.mpr (hbefore earlier he)⟩, ht⟩

/-- When the prober fails the failure of the render tells all that it wrote. -/
theorem RunsOn.reports_of_proberFails (h : job.RunsOn machine) {request : SplitScreenRequest}
    {stderr : List UInt8} (hf : job.ProberFails machine request.bound files stderr)
    {result : Except (Halt RenderError) RenderOutput} {requests : List Engine.Request}
    {left : FileSystem}
    (hend : Ending job (job.preparedScreen request.bound) files requests result left) :
    Reports result (String.ofList (Text.decodeLossy stderr)) := by
  obtain ⟨hsources, fault, hfault, ht⟩ :=
    h.probes_fail_iff.mpr ⟨stderr, hf, String.toList_ofList⟩
  have hprepared := preparedScreen_of_fault hsources hfault
  cases hend with
  | unprepared hp =>
    rw [hprepared] at hp
    obtain rfl := Except.error.inj hp
    exact ⟨_, rfl, ht⟩
  | executed hp =>
    rw [hprepared] at hp
    cases hp

/-- Diagnostics of the engine are kept as its tail. -/
theorem RunsOn.fromEngine (h : job.RunsOn machine) {request : Engine.Request} {made : FileSystem}
    {e : MediaError} {tail : String}
    (hd : files.createDirectories job.config.outputDirectory = (.ok (), made))
    (he : (job.engine request made).result = .error e) (ht : e.diagnostics? = some tail) :
    job.FromEngine machine files [request] tail := by
  obtain ⟨reads, hfails, hkeeps⟩ := (h.engine request made).diagnostics he ht
  exact ⟨request, made, reads, rfl, hd, hfails, hkeeps⟩

theorem FromEngine.length_le {requests : List Engine.Request} {tail : String}
    (h : job.FromEngine machine files requests tail) : tail.length ≤ tailLimit := by
  obtain ⟨_, _, reads, -, -, -, hkeeps⟩ := h
  rw [hkeeps.length]
  exact Nat.min_le_left _ _

end RenderJob

/-- The diagnostics in the failure of a render are those of the process that failed. The engine's
are their last characters, at most `tailLimit`. The prober's are the whole, so that those of a
split screen are within the limit just when no prober fails that writes more. -/
theorem diagnostics_bounded_iff {machine : Machine} {job : RenderJob} (h : job.RunsOn machine)
    (uploads : TempFiles) (remover : Remover) (files : FileSystem) :
    (∀ request : RenderRequest, ∃ result after,
      (job.render request uploads remover).run { files } = (result, after) ∧
        ∀ tail, RenderJob.Reports result tail →
          job.FromEngine machine files after.requests tail ∧ tail.length ≤ tailLimit) ∧
    ∀ request : SplitScreenRequest, ∃ result after,
      (job.renderScreen request uploads remover).run { files } = (result, after) ∧
        (∀ tail, RenderJob.Reports result tail →
          job.FromEngine machine files after.requests tail ∧ tail.length ≤ tailLimit ∨
          after.requests = [] ∧ ∃ stderr, job.ProberFails machine request.bound files stderr ∧
            tail.toList = Text.decodeLossy stderr) ∧
        ((∀ tail, RenderJob.Reports result tail → tail.length ≤ tailLimit) ↔
          ∀ stderr, job.ProberFails machine request.bound files stderr →
            (Text.decodeLossy stderr).length ≤ tailLimit) := by
  constructor
  · intro request
    obtain ⟨result, left, after, hrun, hending, -⟩ :=
      RenderJob.finish_ending (job.prepare_answers request) uploads remover files
    rw [← job.render_eq] at hrun
    refine ⟨result, after, hrun, fun tail hr ↦ ?_⟩
    obtain ⟨-, e, hp, ht⟩ | ⟨request, made, e, hq, hd, he, ht⟩ := hending.reports hr
    · rw [RenderJob.diagnostics_prepared hp] at ht
      cases ht
    · have hengine := h.fromEngine hd he ht
      rw [hq]
      exact ⟨hengine, hengine.length_le⟩
  · intro request
    obtain ⟨result, left, after, hrun, hending, -⟩ :=
      RenderJob.finish_ending (job.prepareScreen_answers request) uploads remover files
    rw [← job.renderScreen_eq] at hrun
    have hsource : ∀ tail, RenderJob.Reports result tail →
        job.FromEngine machine files after.requests tail ∧ tail.length ≤ tailLimit ∨
        after.requests = [] ∧ ∃ stderr, job.ProberFails machine request.bound files stderr ∧
          tail.toList = Text.decodeLossy stderr := by
      intro tail hr
      obtain ⟨hq, e, hp, ht⟩ | ⟨request, made, e, hq, hd, he, ht⟩ := hending.reports hr
      · exact Or.inr ⟨hq, h.probes_fail_iff.mp (RenderJob.preparedScreen_diagnostics hp ht)⟩
      · have hengine := h.fromEngine hd he ht
        rw [hq]
        exact Or.inl ⟨hengine, hengine.length_le⟩
    refine ⟨result, after, hrun, hsource, fun hbound stderr hf ↦ ?_, fun hbound tail hr ↦ ?_⟩
    · rw [← String.length_ofList]
      exact hbound _ (h.reports_of_proberFails hf hending)
    · obtain ⟨-, hle⟩ | ⟨-, stderr, hf, htail⟩ := hsource tail hr
      · exact hle
      · rw [← String.length_toList, htail]
        exact hbound stderr hf

/-- A machine with a prober that always fails, after it wrote so many letters. -/
def failingMachine (letters : Nat) : Machine where
  workingDirectory := "/"
  searchDirectory := "/bin"
  programs := [("ffprobe", fun _ files ↦
    ⟨some (.exited 1), [], List.replicate letters 0x61, files⟩)]

/-- A job on this machine. -/
def failingJob (letters : Nat) : RenderJob where
  config := { outputDirectory := ⟨"o"⟩ }
  engine := .ofProcess (failingMachine letters) "ffmpeg" false
  prober := Probe.run (failingMachine letters) "ffprobe"
  id := ⟨"1"⟩
  completedAt := ⟨0, 0, 0⟩

/-- A split screen of two files of which nothing is declared. -/
def undeclared : SplitScreenRequest where
  screen := { primary := ⟨"a"⟩, secondary := ⟨"b"⟩ }

/-- The files of the split screen. -/
def twoFiles : FileSystem := ⟨[(["a"], .file [] false), (["b"], .file [] false)]⟩

theorem failingJob_runsOn (letters : Nat) :
    (failingJob letters).RunsOn (failingMachine letters) := by
  constructor
  · exact Engine.ofProcess_course (failingMachine letters) "ffmpeg" false
  · show _ = Probe.run (failingMachine letters) "ffprobe"
    rfl

/-- The prober that is found is the failing one. -/
theorem failingMachine_find? (letters : Nat) :
    (failingMachine letters).find? twoFiles "ffprobe" = some ⟨⟨"/bin/ffprobe"⟩,
      some fun _ files ↦ ⟨some (.exited 1), [], List.replicate letters 0x61, files⟩⟩ := by
  rfl

theorem failingJob_proberFails (letters : Nat) : (failingJob letters).ProberFails
    (failingMachine letters) undeclared.bound twoFiles (List.replicate letters 0x61) := by
  have ha : twoFiles.pathExists ⟨"a"⟩ = true := by cbv
  have hb : twoFiles.pathExists ⟨"b"⟩ = true := by cbv
  refine ⟨List.forall_mem_cons.mpr ⟨ha, List.forall_mem_singleton.mpr hb⟩,
    [], ⟨"a"⟩, [⟨"b"⟩], rfl, List.forall_mem_nil _, ?_⟩
  exact ⟨_, _, _, failingMachine_find? letters, rfl, rfl, rfl, rfl⟩

/-- The prober writes nothing else. -/
theorem failingJob_stderr {letters : Nat} {stderr : List UInt8}
    (h : (failingJob letters).ProberFails (failingMachine letters) undeclared.bound twoFiles
      stderr) :
    stderr = List.replicate letters 0x61 := by
  obtain ⟨-, _, _, _, -, -, program, execute, _, hfind, hexecute, -, -, hstderr⟩ := h
  obtain rfl := Option.some.inj ((failingMachine_find? letters).symm.trans hfind)
  obtain rfl := Option.some.inj hexecute
  exact hstderr.symm

/-- All that the prober wrote is reported. -/
theorem failingJob_reports (letters : Nat) : ∃ result after,
    ((failingJob letters).renderScreen undeclared {} FileSystem.remover).run
        { files := twoFiles } = (result, after) ∧
      RenderJob.Reports result (String.ofList (List.replicate letters 'a')) := by
  obtain ⟨result, left, after, hrun, hending, -⟩ := RenderJob.finish_ending
    ((failingJob letters).prepareScreen_answers undeclared) {} FileSystem.remover twoFiles
  rw [← RenderJob.renderScreen_eq] at hrun
  have hreports :=
    (failingJob_runsOn letters).reports_of_proberFails (failingJob_proberFails letters) hending
  rw [Text.decodeLossy_letters] at hreports
  exact ⟨result, after, hrun, hreports⟩

/-- A prober that writes one letter more than is kept of the engine: all of them are reported. -/
theorem diagnostics_beyond_limit : ∃ result after tail,
    ((failingJob 2001).renderScreen undeclared {} FileSystem.remover).run
        { files := twoFiles } = (result, after) ∧
      RenderJob.Reports result tail ∧ tailLimit < tail.length := by
  obtain ⟨result, after, hrun, hreports⟩ := failingJob_reports 2001
  refine ⟨result, after, _, hrun, hreports, ?_⟩
  rw [String.length_ofList, List.length_replicate]
  decide

/-- A prober that writes as many letters as are kept of the engine. -/
theorem diagnostics_within_limit : ∃ result after,
    ((failingJob 2000).renderScreen undeclared {} FileSystem.remover).run
        { files := twoFiles } = (result, after) ∧
      ∀ tail, RenderJob.Reports result tail → tail.length ≤ tailLimit := by
  obtain ⟨result, after, hrun, -, hbound⟩ := (diagnostics_bounded_iff (failingJob_runsOn 2000) {}
    FileSystem.remover twoFiles).2 undeclared
  refine ⟨result, after, hrun, hbound.mpr fun stderr hf ↦ ?_⟩
  rw [failingJob_stderr hf, Text.decodeLossy_letters, List.length_replicate]
  exact Nat.le_refl tailLimit

end Montage
