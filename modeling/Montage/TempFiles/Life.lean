import Montage.TempFiles

/-!
# The life of temporary files

A set is kept until it is dropped. A cleanup marks the set as cleaned when it begins, then makes one
removal attempt at a time. The set is dropped after the last attempt, or before it if the cleanup is
given up on the way.
-/

namespace Montage.TempFiles

/-- Where a set stands: kept, in a cleanup with these attempts to come, or dropped. -/
inductive Standing where
  | kept
  | cleaning (pending : List FilePath)
  | dropped
deriving DecidableEq

/-- What may happen to a set. -/
inductive Event where
  | cleanUp
  | remove
  | drop
deriving DecidableEq

/-- A set in the course of its life, with the attempts made so far and the files they have left. -/
structure Life where
  set : TempFiles
  files : FileSystem
  cleaned : Bool := false
  standing : Standing := .kept
  attempts : List (FilePath × Option FileFault) := []

namespace Life

/-- The attempts of a cleanup are made. -/
def make (life : Life) (cleanup : Cleanup) : Life :=
  { life with files := cleanup.files, attempts := life.attempts ++ cleanup.attempts }

/-- What becomes of a set when something happens to it, if that can happen. -/
def advance (remover : Remover) (life : Life) : Event → Option Life
  | .cleanUp =>
    match life.standing with
    | .kept => some { life with cleaned := true, standing := .cleaning life.set.paths }
    | _ => none
  | .remove =>
    match life.standing with
    | .cleaning (path :: rest) =>
      some { life.make (cleanup ⟨[path]⟩ remover life.files) with standing := .cleaning rest }
    | _ => none
  | .drop =>
    match life.standing with
    | .dropped => none
    | _ => some { life.make (life.set.drop life.cleaned remover life.files) with
        standing := .dropped }

/-- What becomes of a set in a course of events. -/
def run (remover : Remover) (life : Life) (events : List Event) : Option Life :=
  events.foldlM (advance remover) life

end Life

end Montage.TempFiles
