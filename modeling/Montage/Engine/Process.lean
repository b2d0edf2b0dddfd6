import Montage.Engine.Basic
import Montage.Engine.Progress
import Montage.Engine.Tail
import Montage.Machine
import Montage.Text.Utf8

/-!
# Engines as processes

An engine that starts a program, watches its diagnostics for progress, keeps their tail for failure
reports, and kills the process when a cancel signal is raised.
-/

namespace Montage.Engine

open Montage.Numeric (Binary64)

/-- The characters of diagnostics kept for failure reports (`STDERR_TAIL_CHARS`). -/
def tailLimit : Nat := 2000

/-- The bytes taken in one read. -/
def readSize : Nat := 4096

private def cutInto (size : Nat) : Nat → List UInt8 → List (List UInt8)
  | _, [] => []
  | 0, rest => [rest]
  | fuel + 1, bytes => bytes.take size :: cutInto size fuel (bytes.drop size)

/-- The reads of bytes that are all there: full reads, then the rest. -/
def readsOf (bytes : List UInt8) : List (List UInt8) := cutInto readSize bytes.length bytes

private theorem flatten_cutInto (size fuel : Nat) (bytes : List UInt8) :
    (cutInto size fuel bytes).flatten = bytes := by
  induction fuel generalizing bytes with
  | zero => cases bytes <;> simp [cutInto]
  | succ fuel ih =>
    cases bytes with
    | nil => rfl
    | cons b rest => simp [cutInto, ih]

/-- Reads give all bytes in order. -/
theorem flatten_readsOf (bytes : List UInt8) : (readsOf bytes).flatten = bytes :=
  flatten_cutInto readSize bytes.length bytes

/-- What is known while diagnostics are read: their tail, the progress, and what was reported. -/
structure Monitor where
  tail : Tail
  tracker : Tracker
  reported : List Nat := []

namespace Monitor

def ofTotal (total : Binary64) : Monitor := ⟨{ limit := tailLimit }, { total }, []⟩

/-- Takes one read (`monitor_stderr`): it is decoded on its own, added to the tail, and the tail is
searched for the latest marker. -/
def read (monitor : Monitor) (bytes : List UInt8) : Monitor :=
  let tail := monitor.tail.push (Text.decodeLossy bytes)
  let (percent, tracker) := monitor.tracker.observeText tail.text
  ⟨tail, tracker, monitor.reported ++ percent.toList⟩

/-- Takes reads in order. -/
def readAll (monitor : Monitor) (reads : List (List UInt8)) : Monitor := reads.foldl read monitor

end Monitor

private def failed (status : ExitStatus) (monitor : Monitor) : MediaError :=
  .engineFailed ("FFmpeg exited with " ++ status.text)
    (some (String.ofList monitor.tail.text)) status.code?

/-- What a process that ended by itself came to. -/
def ofExit (total : Binary64) (reads : List (List UInt8)) (status : ExitStatus)
    (files : FileSystem) : Run :=
  let monitor := (Monitor.ofTotal total).readAll reads
  let seen := monitor.reported.map Event.progress
  if status.isSuccess then
    ⟨seen ++ monitor.tracker.finish.1.toList.map Event.progress, .ok (), files⟩
  else
    ⟨seen ++ [.log (.warning "FFmpeg exited with failure")], .error (failed status monitor), files⟩

private def killed (files : FileSystem) : Run :=
  ⟨[.log (.info "FFmpeg cancelled, killing process")], .error .cancelled, files⟩

/-- The engine that starts `binary` (`FfmpegRunner`). When the signal is raised before the process
has ended, the process is killed; a process that does not end by itself is taken to be killed. -/
def ofProcess (machine : Machine) (binary : String) (signalRaised : Bool) : Engine :=
  fun request files =>
    match machine.find? files binary with
    | none => ⟨[], .error (.engineNotFound binary), files⟩
    | some program =>
      match program.run? with
      | none =>
        let reason := program.path.text ++ ": " ++ FileFault.notExecutable.message
        ⟨[], .error (.notStarted reason), files⟩
      | some execute =>
        if signalRaised then killed files
        else
          let result := execute request.arguments files
          match result.status with
          | some status => ofExit request.totalDuration (readsOf result.stderr) status result.files
          | none => killed result.files

end Montage.Engine
