import Montage.FileSystem

/-!
# Machines

The programs that a render can start. A program is found by name on the search path or by path in
the file system; what it does is a function of its arguments and the files it finds.
-/

namespace Montage

/-- How a process came to its end. -/
inductive ExitStatus where
  | exited (code : Nat)
  | signalled (number : Nat) (name : String)
deriving DecidableEq

namespace ExitStatus

def isSuccess : ExitStatus → Bool
  | exited code => code == 0
  | signalled .. => false

def code? : ExitStatus → Option Nat
  | exited code => some code
  | signalled .. => none

def text : ExitStatus → String
  | exited code => s!"exit status: {code}"
  | signalled number name => s!"signal: {number} ({name})"

end ExitStatus

/-- What a process did. Without a status it runs until it is killed. -/
structure ProcessRun where
  status : Option ExitStatus
  stdout : List UInt8
  stderr : List UInt8
  files : FileSystem

/-- What a program does, given its arguments and the files it finds. -/
abbrev Executable := List String → FileSystem → ProcessRun

/-- The working directory as it is written in absolute paths, the directory of the search path, and
the programs in it. -/
structure Machine where
  workingDirectory : String
  searchDirectory : String
  programs : List (String × Executable)

/-- A program that was found: where, and what it does unless the file is no program. -/
structure FoundProgram where
  path : FilePath
  run? : Option Executable

namespace Machine

private def componentCount (path : FilePath) : Nat :=
  path.components.length + (if path.isAbsolute then 1 else 0)

/-- The absolute spelling of a path. -/
private def absolutePath (machine : Machine) (path : FilePath) : FilePath :=
  if path.isAbsolute then path
  else ⟨"/".intercalate (machine.workingDirectory :: path.components.dropWhile (· = "."))⟩

/-- Finds a program. A name with separators is a path to an executable file; any other name is
looked up on the search path. -/
def find? (machine : Machine) (fs : FileSystem) (name : String) : Option FoundProgram :=
  let path : FilePath := ⟨name⟩
  if 1 < componentCount path then
    match fs.lookup path with
    | .ok (.file _ true) => some ⟨machine.absolutePath path, none⟩
    | _ => none
  else
    (machine.programs.find? (·.1 = name)).map fun program =>
      ⟨⟨machine.searchDirectory ++ "/" ++ name⟩, some program.2⟩

end Machine

end Montage
