import Montage.FileSystem
import Montage.Log

/-!
# Temporary files

The uploads of a request. Every tracked path gets exactly one removal attempt when the request
ends, by cleaning up or, if that was forgotten, when the set is dropped. Removals that fail are
logged and otherwise have no effect.
-/

namespace Montage

/-- Removes a file, or says why not (`FileRemover`). -/
abbrev Remover := FilePath → FileSystem → Except FileFault FileSystem

/-- The remover of the file system itself (`FsRemover`). -/
def FileSystem.remover : Remover := fun path fs => fs.remove path

/-- Refuses some paths and removes all others. -/
def Remover.denying (denied : List FilePath) : Remover := fun path fs =>
  if denied.any (·.same path) then .error (.denied "denied") else fs.remove path

/-- The paths that a request owns, in the order in which they were tracked (`TempFileSet`). -/
structure TempFiles where
  paths : List FilePath := []

/-- How many removals were attempted, succeeded and failed. -/
structure CleanupReport where
  attempted : Nat := 0
  removed : Nat := 0
  failed : Nat := 0
deriving DecidableEq

/-- What removing the files of a set came to: each attempt with its fault if it failed, and the
files afterwards. -/
structure Cleanup where
  attempts : List (FilePath × Option FileFault)
  files : FileSystem

namespace TempFiles

def size (set : TempFiles) : Nat := set.paths.length

def isEmpty (set : TempFiles) : Bool := set.paths.isEmpty

/-- Tracks a path unless it is tracked already, in whatever spelling (`TempFileSet.track`). -/
def track (set : TempFiles) (path : FilePath) : TempFiles :=
  if set.paths.any (·.same path) then set else ⟨set.paths ++ [path]⟩

private def removeEach (remover : Remover) : List FilePath → FileSystem → Cleanup
  | [], files => ⟨[], files⟩
  | path :: rest, files =>
    match remover path files with
    | .ok files =>
      let others := removeEach remover rest files
      ⟨(path, none) :: others.attempts, others.files⟩
    | .error fault =>
      let others := removeEach remover rest files
      ⟨(path, some fault) :: others.attempts, others.files⟩

/-- Makes one removal attempt for each tracked path, in order (`TempFileSet.cleanup`). -/
def cleanup (set : TempFiles) (remover : Remover) (files : FileSystem) : Cleanup :=
  removeEach remover set.paths files

/-- Dropping a set makes up for a forgotten cleanup (`TempFileSet.drop`). A set that is marked as
cleaned is let go as it is. -/
def drop (set : TempFiles) (cleaned : Bool) (remover : Remover) (files : FileSystem) : Cleanup :=
  if cleaned || set.isEmpty then ⟨[], files⟩ else set.cleanup remover files

/-- A set that was not cleaned up is cleaned up by being dropped. -/
theorem drop_false (set : TempFiles) (remover : Remover) (files : FileSystem) :
    set.drop false remover files = set.cleanup remover files := by
  obtain ⟨paths⟩ := set
  cases paths <;> rfl

theorem drop_true (set : TempFiles) (remover : Remover) (files : FileSystem) :
    set.drop true remover files = ⟨[], files⟩ := rfl

private theorem attempts_removeEach (remover : Remover) (paths : List FilePath)
    (files : FileSystem) : (removeEach remover paths files).attempts.map (·.1) = paths := by
  induction paths generalizing files with
  | nil => rfl
  | cons path rest ih =>
    unfold removeEach
    cases remover path files with
    | ok files => exact congrArg (path :: ·) (ih files)
    | error fault => exact congrArg (path :: ·) (ih files)

/-- Each tracked path gets one attempt, whatever became of the others. -/
theorem attempts_cleanup (set : TempFiles) (remover : Remover) (files : FileSystem) :
    (set.cleanup remover files).attempts.map (·.1) = set.paths :=
  attempts_removeEach remover set.paths files

private theorem removeEach_append (remover : Remover) (xs ys : List FilePath)
    (files : FileSystem) :
    removeEach remover (xs ++ ys) files =
      ⟨(removeEach remover xs files).attempts ++
          (removeEach remover ys (removeEach remover xs files).files).attempts,
        (removeEach remover ys (removeEach remover xs files).files).files⟩ := by
  induction xs generalizing files with
  | nil => rfl
  | cons path rest ih =>
    rw [List.cons_append, removeEach, removeEach]
    cases remover path files with
    | ok files =>
      dsimp only
      rw [ih files, List.cons_append]
    | error fault =>
      dsimp only
      rw [ih files, List.cons_append]

/-- A cleanup can be made in two parts, the second on the files that the first has left. -/
theorem cleanup_append (xs ys : List FilePath) (remover : Remover) (files : FileSystem) :
    cleanup ⟨xs ++ ys⟩ remover files =
      ⟨(cleanup ⟨xs⟩ remover files).attempts ++
          (cleanup ⟨ys⟩ remover (cleanup ⟨xs⟩ remover files).files).attempts,
        (cleanup ⟨ys⟩ remover (cleanup ⟨xs⟩ remover files).files).files⟩ :=
  removeEach_append remover xs ys files

private theorem removeEach_preserves {P : FileSystem → Prop} {remover : Remover}
    {paths : List FilePath} {files : FileSystem} (h : P files)
    (hs : ∀ path ∈ paths, ∀ before after, P before → remover path before = .ok after → P after) :
    P (removeEach remover paths files).files := by
  induction paths generalizing files with
  | nil => exact h
  | cons path rest ih =>
    have hrest : ∀ path ∈ rest, ∀ before after, P before → remover path before = .ok after →
        P after := fun path hm ↦ hs path (List.mem_cons_of_mem _ hm)
    unfold removeEach
    cases hr : remover path files with
    | ok after => exact ih (hs path List.mem_cons_self files after h hr) hrest
    | error fault => exact ih h hrest

/-- What each removal preserves holds after a cleanup. -/
theorem cleanup_preserves {P : FileSystem → Prop} {set : TempFiles} {remover : Remover}
    {files : FileSystem} (h : P files)
    (hs : ∀ path ∈ set.paths, ∀ before after, P before → remover path before = .ok after →
      P after) : P (set.cleanup remover files).files :=
  removeEach_preserves h hs

end TempFiles

namespace Cleanup

def report (cleanup : Cleanup) : CleanupReport :=
  { attempted := cleanup.attempts.length
    removed := cleanup.attempts.countP (·.2.isNone)
    failed := cleanup.attempts.countP (·.2.isSome) }

/-- What is logged of a removal attempt (`log_failure`). -/
def failureEvent : FilePath × Option FileFault → Option LogEvent
  | (_, none) => none
  | (_, some .notFound) => none
  | (_, some fault) => some (.warning ("Failed to remove temp file: " ++ fault.message))

/-- The log of the removals that failed; a file that is gone already is not worth mentioning. -/
def log (cleanup : Cleanup) : List LogEvent := cleanup.attempts.filterMap failureEvent

/-- The log of a set that was dropped without being cleaned up. -/
def logOfDrop (cleanup : Cleanup) : List LogEvent :=
  if cleanup.attempts.isEmpty then []
  else .warning "TempFileSet dropped without cleanup(), removing files synchronously" ::
    cleanup.log

end Cleanup

end Montage
