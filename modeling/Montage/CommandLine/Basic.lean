import Montage.FilePath

/-!
# Command lines

What the words of a command line ask for: a task, some information, or nothing that makes sense.
-/

namespace Montage.CommandLine

/-- The two kinds of request (`SchemaKind`). -/
inductive RequestKind where
  | composition
  | splitScreen
deriving DecidableEq

namespace RequestKind

/-- The name of the command that renders requests of a kind, which also names their schema. -/
def command : RequestKind → String
  | composition => "render"
  | splitScreen => "render-dual"

/-- The kind of request that a command renders. -/
def ofCommand? (name : String) : Option RequestKind :=
  [composition, splitScreen].find? (·.command == name)

end RequestKind

/-- The job file of a render and what to do with it (`JobArgs`). -/
structure JobArguments where
  job : FilePath
  printGraph : Bool := false
  keepUploads : Bool := false
deriving DecidableEq

/-- What the program is told to do (`Command`). -/
inductive Task where
  | render (kind : RequestKind) (arguments : JobArguments)
  | schema (kind : RequestKind)
deriving DecidableEq

/-- What a command line comes to (`Cli`). -/
inductive Invocation where
  | task (task : Task)
  | information (text : String)
  | refused
deriving DecidableEq

end Montage.CommandLine
