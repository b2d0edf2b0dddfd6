import Montage.Graph.Basic
import Montage.Log
import Montage.MediaError

/-!
# Engines

An engine runs the arguments of a program and writes the output. While it runs it reports progress
and writes to the log; when it ends the files have changed.
-/

namespace Montage.Engine

open Montage.Numeric (Binary64)

/-- One run that is asked of an engine (`EngineRequest`). The total duration is what progress is
measured against. -/
structure Request where
  arguments : List String
  output : FilePath
  totalDuration : Binary64
deriving DecidableEq

/-- What an engine lets know while it runs. -/
inductive Event where
  | progress (percent : Nat)
  | log (event : LogEvent)
deriving DecidableEq

/-- What a run came to: the events in order, the result, and the files afterwards. -/
structure Run where
  events : List Event
  result : Except MediaError Unit
  files : FileSystem

end Montage.Engine

namespace Montage

/-- Runs requests (`EngineRunner`). A run that succeeds has ended with exit status 0. -/
abbrev Engine := Engine.Request → FileSystem → Engine.Run

namespace Engine

def Run.progress (run : Run) : List Nat :=
  run.events.filterMap fun
    | .progress percent => some percent
    | .log _ => none

/-- The request for a program and the file it writes (`FfmpegCommand.into_request`). -/
def Request.ofProgram (program : Graph.Program) (output : FilePath) : Request :=
  ⟨program.arguments output, output, program.totalDuration⟩

end Engine

end Montage
