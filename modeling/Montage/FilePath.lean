/-!
# File paths

A path is kept as it was written. Two spellings name the same place when their components agree:
repeated separators, a dot between separators and a separator at the end do not count.
-/

namespace Montage

/-- A path as it was written. -/
structure FilePath where
  text : String
deriving DecidableEq, Inhabited

namespace FilePath

def isEmpty (path : FilePath) : Bool := path.text.isEmpty

def isAbsolute (path : FilePath) : Bool := path.text.toList.head? == some '/'

private def split : List Char → List (List Char)
  | [] => [[]]
  | '/' :: rest => [] :: split rest
  | c :: rest =>
    match split rest with
    | name :: others => (c :: name) :: others
    | [] => [[c]]

/-- The components after the root: the names between separators, where a dot counts only at the
start of a relative path. -/
def components (path : FilePath) : List String :=
  let names := (split path.text.toList).map String.ofList
  let leadingDot := !path.isAbsolute && names.head? == some "."
  let kept := names.filter fun name => name ≠ "" && name ≠ "."
  if leadingDot then "." :: kept else kept

/-- Whether two spellings have the same components from the same root. -/
def same (a b : FilePath) : Bool :=
  a.isAbsolute == b.isAbsolute && a.components == b.components

theorem same_self (path : FilePath) : path.same path = true := by
  simp [same]

theorem same_comm (a b : FilePath) : a.same b = b.same a := by
  unfold same
  rw [BEq.comm, BEq.comm (a := a.components)]

/-- The path of `name` inside the directory `dir`; an absolute name stands for itself. -/
def join (dir name : FilePath) : FilePath :=
  if name.isAbsolute then name
  else if dir.text.isEmpty || dir.text.toList.getLast? == some '/' then ⟨dir.text ++ name.text⟩
  else ⟨dir.text ++ "/" ++ name.text⟩

end FilePath

end Montage
