import Montage.Engine.Process
import Montage.Proofs.Engine.Tail
import Montage.Proofs.Text.Cuts

/-!
# Processes as engines

The diagnostics of a process arrive in reads of any size, and when it is killed is not in the hands
of the engine. A course is what running a process can come to under these conditions. The tail kept
for failure reports is the end of all that was read, however it was cut.
-/

namespace Montage

/-- A process fails: its program is found and started, and ends without success after it wrote
these diagnostics. -/
def Machine.Fails (machine : Machine) (binary : String) (arguments : List String)
    (files : FileSystem) (stderr : List UInt8) : Prop :=
  ∃ program execute status, machine.find? files binary = some program ∧
    program.run? = some execute ∧ (execute arguments files).status = some status ∧
    status.isSuccess = false ∧ (execute arguments files).stderr = stderr

namespace Engine

open Montage.Numeric (Binary64)

/-- The diagnostics that reads add up to, each read decoded on its own. -/
def decodedReads (reads : List (List UInt8)) : List Char := reads.flatMap Text.decodeLossy

namespace Monitor

variable {total : Binary64} {reads : List (List UInt8)}

theorem tail_readAll (monitor : Monitor) (reads : List (List UInt8)) :
    (monitor.readAll reads).tail = (reads.map Text.decodeLossy).foldl Tail.push monitor.tail := by
  induction reads generalizing monitor with
  | nil => rfl
  | cons bytes rest ih => exact ih (monitor.read bytes)

/-- The tail that is kept is the end of the diagnostics. -/
theorem text_tail_readAll (total : Binary64) (reads : List (List UInt8)) :
    ((ofTotal total).readAll reads).tail.text =
      (decodedReads reads).rtake tailLimit := by
  have hwhole : (reads.map Text.decodeLossy).flatten = decodedReads reads :=
    List.flatMap_def.symm
  rw [tail_readAll, ofTotal, Tail.foldl_push, hwhole]

end Monitor

/-- The tail is the end of the diagnostics, of the whole bytes as long as no read starts in the
middle of a character. -/
structure Keeps (reads : List (List UInt8)) (tail : String) : Prop where
  suffix : tail.toList <:+ decodedReads reads
  length : tail.length = min tailLimit (decodedReads reads).length
  whole : (∀ read ∈ reads.tail, Text.StartsCharacter read) →
    tail.toList <:+ Text.decodeLossy reads.flatten

theorem Monitor.keeps_readAll (total : Binary64) (reads : List (List UInt8)) :
    Keeps reads (String.ofList ((ofTotal total).readAll reads).tail.text) := by
  have hsuffix : ((ofTotal total).readAll reads).tail.text <:+ decodedReads reads := by
    rw [text_tail_readAll]
    exact List.drop_suffix _ _
  constructor
  · rwa [String.toList_ofList]
  · rw [String.length_ofList, text_tail_readAll, List.rtake, List.length_drop]
    omega
  · intro hreads
    rw [String.toList_ofList, ← Text.flatMap_decodeLossy hreads]
    exact hsuffix

/-- What a run of a process can come to: there is no such program, it cannot be started, it ends
while its diagnostics arrive in some reads, or it is killed before all of them are read. -/
inductive Course (machine : Machine) (binary : String) (request : Request) (files : FileSystem) :
    Run → Prop
  | notFound :
      machine.find? files binary = none →
      Course machine binary request files ⟨[], .error (.engineNotFound binary), files⟩
  | notStarted {program : FoundProgram} {reason : String} :
      machine.find? files binary = some program → program.run? = none →
      Course machine binary request files ⟨[], .error (.notStarted reason), files⟩
  | exited {program : FoundProgram} {execute : Executable} {status : ExitStatus}
      {reads : List (List UInt8)} :
      machine.find? files binary = some program → program.run? = some execute →
      (execute request.arguments files).status = some status →
      reads.flatten = (execute request.arguments files).stderr →
      Course machine binary request files
        (ofExit request.totalDuration reads status (execute request.arguments files).files)
  | killed {program : FoundProgram} {execute : Executable} {reads : List (List UInt8)}
      {before after : List Nat} {left : FileSystem} :
      machine.find? files binary = some program → program.run? = some execute →
      reads.flatten <+: (execute request.arguments files).stderr →
      ((Monitor.ofTotal request.totalDuration).readAll reads).reported = before ++ after →
      Course machine binary request files
        ⟨before.map Event.progress ++ .log (.info "FFmpeg cancelled, killing process") ::
          after.map Event.progress, .error .cancelled, left⟩

variable {machine : Machine} {binary : String} {request : Request} {files : FileSystem}

/-- A process may be killed before any diagnostics are read. -/
private theorem killed_unread {program : FoundProgram} {execute : Executable}
    (hfind : machine.find? files binary = some program) (hrun : program.run? = some execute)
    (left : FileSystem) : Course machine binary request files
      ⟨[.log (.info "FFmpeg cancelled, killing process")], .error .cancelled, left⟩ :=
  @Course.killed machine binary request files program execute [] [] [] left hfind hrun
    List.nil_prefix rfl

/-- The engine that runs a process follows a course. -/
theorem ofProcess_course (machine : Machine) (binary : String) (signalRaised : Bool)
    (request : Request) (files : FileSystem) :
    Course machine binary request files (ofProcess machine binary signalRaised request files) := by
  unfold ofProcess
  cases hfind : machine.find? files binary with
  | none => exact .notFound hfind
  | some program =>
    dsimp only
    cases hrun : program.run? with
    | none => exact .notStarted hfind hrun
    | some execute =>
      dsimp only
      split
      · exact killed_unread hfind hrun files
      · cases hstatus : (execute request.arguments files).status with
        | none => exact killed_unread hfind hrun (execute request.arguments files).files
        | some status => exact .exited hfind hrun hstatus (flatten_readsOf _)

/-- A process never fails for the configuration of a request. -/
theorem Course.kind_ne_configuration {run : Run} (h : Course machine binary request files run)
    {e : MediaError} (he : run.result = .error e) : e.kind ≠ .configuration := by
  cases h with
  | notFound =>
    obtain rfl := Except.error.inj he
    exact FailureKind.noConfusion
  | notStarted =>
    obtain rfl := Except.error.inj he
    exact FailureKind.noConfusion
  | killed =>
    obtain rfl := Except.error.inj he
    exact FailureKind.noConfusion
  | exited =>
    unfold ofExit at he
    dsimp only at he
    split at he
    · cases he
    · obtain rfl := Except.error.inj he
      exact FailureKind.noConfusion

/-- A failure reports diagnostics only of a process that failed: the end of all that was read. -/
theorem Course.diagnostics {run : Run} (h : Course machine binary request files run)
    {e : MediaError} (he : run.result = .error e) {tail : String}
    (ht : e.diagnostics? = some tail) :
    ∃ reads, machine.Fails binary request.arguments files reads.flatten ∧ Keeps reads tail := by
  cases h with
  | notFound =>
    obtain rfl := Except.error.inj he
    cases ht
  | notStarted =>
    obtain rfl := Except.error.inj he
    cases ht
  | killed =>
    obtain rfl := Except.error.inj he
    cases ht
  | @exited program execute status reads hfind hrun hstatus hreads =>
    unfold ofExit at he
    dsimp only at he
    cases hs : status.isSuccess with
    | true =>
      rw [hs] at he
      cases he
    | false =>
      rw [hs] at he
      obtain rfl := Except.error.inj he
      obtain rfl := Option.some.inj ht
      exact ⟨reads, ⟨program, execute, status, hfind, hrun, hstatus, hs, hreads.symm⟩,
        Monitor.keeps_readAll _ reads⟩

end Engine

end Montage
