import Montage.Attempt
import Montage.FilePath

/-!
# File systems

The files that a render reads, writes and removes, as a value. A path is walked from the working
directory or from the root; every name before the last has to be a directory. Each operation says
by a fault why it was not possible.
-/

namespace Montage

/-- Why an operation on a file was not possible. -/
inductive FileFault where
  | notFound
  | denied (text : String)
  | exists
  | notDirectory
  | isDirectory
  | notExecutable
deriving DecidableEq

def FileFault.message : FileFault → String
  | notFound => "No such file or directory (os error 2)"
  | denied text => text
  | .exists => "File exists (os error 17)"
  | notDirectory => "Not a directory (os error 20)"
  | isDirectory => "Is a directory (os error 21)"
  | notExecutable => "Exec format error (os error 8)"

/-- What a name stands for. -/
inductive FileEntry where
  | file (content : List UInt8) (executable : Bool)
  | directory
deriving DecidableEq

/-- The names that lead to a place, the last one first. Absolute places end in the name `/`; the
working directory is the empty list, and the directories above it are named by two dots each. -/
abbrev Place := List String

/-- The entries of a file system by place. The root, the working directory and the directories above
it are always there. -/
structure FileSystem where
  entries : List (Place × FileEntry) := []

namespace FileSystem

/-- Whether a place is the working directory or a directory above it. -/
private def isAbove (place : Place) : Bool := place.all (· = "..")

/-- What is at a place. -/
def entry? (fs : FileSystem) (place : Place) : Option FileEntry :=
  if isAbove place || place = ["/"] then some .directory else fs.entries.lookup place

/-- The file system with something else at a place. -/
def put (fs : FileSystem) (place : Place) (entry : FileEntry) : FileSystem :=
  ⟨(place, entry) :: fs.entries.filter (·.1 ≠ place)⟩

/-- The file system with nothing at a place. -/
def erase (fs : FileSystem) (place : Place) : FileSystem :=
  ⟨fs.entries.filter (·.1 ≠ place)⟩

private def stepInto (fs : FileSystem) (place : Place) (name : String) :
    Except FileFault Place :=
  match fs.entry? place with
  | none => .error .notFound
  | some (.file ..) => .error .notDirectory
  | some .directory =>
    if name = "" ∨ name = "." then .ok place
    else if name = ".." then
      .ok (if place = ["/"] then place else if isAbove place then ".." :: place else place.drop 1)
    else .ok (name :: place)

/-- The names of a path as they are walked; a separator at the end asks for a directory. -/
private def walkedNames (path : FilePath) : List String :=
  let names := path.text.splitOn "/"
  if path.isAbsolute then names.drop 1 else names

private def start (path : FilePath) : Place := if path.isAbsolute then ["/"] else []

/-- The place of a path, which need not exist itself. -/
def locate (fs : FileSystem) (path : FilePath) : Except FileFault Place :=
  if path.isEmpty then .error .notFound
  else (walkedNames path).foldlM (stepInto fs) (start path)

/-- What is at a path. -/
def lookup (fs : FileSystem) (path : FilePath) : Except FileFault FileEntry := do
  match fs.entry? (← fs.locate path) with
  | some entry => return entry
  | none => throw .notFound

def pathExists (fs : FileSystem) (path : FilePath) : Bool := (fs.lookup path).isOk

def isDirectory (fs : FileSystem) (path : FilePath) : Bool :=
  match fs.lookup path with
  | .ok .directory => true
  | _ => false

/-- The bytes of a file. -/
def read (fs : FileSystem) (path : FilePath) : Except FileFault (List UInt8) := do
  match ← fs.lookup path with
  | .file content _ => return content
  | .directory => throw .isDirectory

/-- Writes a file, new or in place of another file. -/
def write (fs : FileSystem) (path : FilePath) (content : List UInt8) :
    Except FileFault FileSystem := do
  let place ← fs.locate path
  match fs.entry? place with
  | some .directory => throw .isDirectory
  | some (.file _ executable) => return fs.put place (.file content executable)
  | none => return fs.put place (.file content false)

/-- Removes a file. Directories stay. -/
def remove (fs : FileSystem) (path : FilePath) : Except FileFault FileSystem := do
  let place ← fs.locate path
  match fs.entry? place with
  | some (.file ..) => return fs.erase place
  | some .directory => throw .isDirectory
  | none => throw .notFound

/-- A path without the separators at its end, which a directory to be made may have. -/
private def withoutEnd (path : FilePath) : FilePath :=
  let cs := (path.text.toList.reverse.dropWhile (· = '/')).reverse
  if cs.isEmpty then path else ⟨String.ofList cs⟩

/-- Makes one directory. -/
def createDirectory (fs : FileSystem) (path : FilePath) : Except FileFault FileSystem := do
  let place ← fs.locate (withoutEnd path)
  match fs.entry? place with
  | some _ => throw .exists
  | none => return fs.put place .directory

/-- The path without its last component, if it has one. -/
private def parent? (path : FilePath) : Option FilePath :=
  match path.components.reverse with
  | [] => none
  | _ :: outer =>
    let text := "/".intercalate outer.reverse
    some ⟨if path.isAbsolute then "/" ++ text else text⟩

/-- A fault that does not matter where there is a directory already. -/
private def unlessDirectory (fs : FileSystem) (path : FilePath) (fault : FileFault) :
    Except FileFault Unit :=
  if fs.isDirectory path then .ok () else .error fault

/-- Makes one directory if there is none. -/
private def createLast (fs : FileSystem) (path : FilePath) : Except FileFault Unit × FileSystem :=
  match fs.createDirectory path with
  | .ok made => (.ok (), made)
  | .error fault => (fs.unlessDirectory path fault, fs)

/-- Makes a directory below at most so many that are missing. -/
private def createBelow (fs : FileSystem) : Nat → FilePath → Except FileFault Unit × FileSystem
  | 0, _ => (.error .notFound, fs)
  | depth + 1, path =>
    if path.isEmpty then (.ok (), fs)
    else
      match fs.createDirectory path with
      | .ok made => (.ok (), made)
      | .error .notFound =>
        match parent? path with
        | none => (.error .notFound, fs)
        | some outer =>
          match createBelow fs depth outer with
          | (.ok (), above) => above.createLast path
          | failed => failed
      | .error fault => (fs.unlessDirectory path fault, fs)

/-- Makes a directory and every directory above it that is missing, from the outside in. Where one
of them cannot be made, those above it stay. -/
def createDirectories (fs : FileSystem) (path : FilePath) : Except FileFault Unit × FileSystem :=
  fs.createBelow (path.text.length + 1) path

/-- Puts an entry at a path, where the directories above it are made if they are missing. -/
def install (fs : FileSystem) (path : FilePath) (entry : FileEntry) :
    Except FileFault FileSystem := do
  let (made, fs) := match parent? path with
    | some above => fs.createDirectories above
    | none => (.ok (), fs)
  made
  return fs.put (← fs.locate (withoutEnd path)) entry

/-- The names of the entries directly inside a place, in order. -/
private def namesIn (fs : FileSystem) (place : Place) : List String :=
  (fs.entries.filterMap fun (at_, _) =>
    match at_ with
    | name :: outer => if outer = place then some name else none
    | [] => none).mergeSort (· ≤ ·)

private def listFrom (fs : FileSystem) : Nat → Place → String → List String
  | 0, _, _ => []
  | depth + 1, place, above =>
    (fs.namesIn place).flatMap fun name =>
      match fs.entry? (name :: place) with
      | some .directory =>
        (above ++ name ++ "/") :: listFrom fs depth (name :: place) (above ++ name ++ "/")
      | _ => [above ++ name]

/-- Everything below the working directory, sorted by name: a directory ends in a separator and is
followed by what it holds. -/
def listing (fs : FileSystem) : List String := fs.listFrom (fs.entries.length + 1) [] ""

/-! ### Laws -/

variable {fs fs' : FileSystem} {place other : Place} {path : FilePath} {entry : FileEntry}

private theorem lookup_filter_of_ne (h : other ≠ place) (entries : List (Place × FileEntry)) :
    (entries.filter (·.1 ≠ place)).lookup other = entries.lookup other := by
  induction entries with
  | nil => rfl
  | cons head rest ih =>
    by_cases hp : head.1 = place
    · have hne : (other == head.1) = false := by simp [hp, h]
      rw [List.filter_cons_of_neg (by simp [hp]), ih, List.lookup_cons, hne]
    · rw [List.filter_cons_of_pos (by simp [hp]), List.lookup_cons, List.lookup_cons, ih]

private theorem lookup_filter_self (place : Place) (entries : List (Place × FileEntry)) :
    (entries.filter (·.1 ≠ place)).lookup place = none := by
  rw [List.lookup_eq_none_iff]
  intro found hm
  have hne := of_decide_eq_true (List.mem_filter.mp hm).2
  simp [Ne.symm hne]

/-- Other places keep what is there. -/
theorem entry?_erase_of_ne (h : other ≠ place) :
    entry? (fs.erase place) other = fs.entry? other := by
  unfold entry? erase
  rw [lookup_filter_of_ne h]

/-- A file that is erased is gone. -/
theorem entry?_erase_self {content : List UInt8} {executable : Bool}
    (h : fs.entry? place = some (.file content executable)) :
    entry? (fs.erase place) place = none := by
  unfold entry? at h
  split at h
  · cases h
  · next hplace =>
    unfold entry? erase
    rw [if_neg hplace, lookup_filter_self]

/-- A new entry takes the place of none. -/
theorem entry?_put_of_none (h : fs.entry? place = none) (he : fs.entry? other = some entry)
    (new : FileEntry) : entry? (fs.put place new) other = some entry := by
  have hne : other ≠ place := by
    intro heq
    rw [heq, h] at he
    cases he
  have hfalse : (other == place) = false := by simp [hne]
  unfold entry? put
  rw [List.lookup_cons, hfalse, lookup_filter_of_ne hne]
  exact he

theorem pathExists_iff : fs.pathExists path = true ↔
    ∃ place entry, fs.locate path = .ok place ∧ fs.entry? place = some entry := by
  unfold pathExists lookup
  cases hl : fs.locate path with
  | error fault => simp [bind, Except.bind, Except.isOk, Except.toBool]
  | ok place =>
    cases he : fs.entry? place with
    | none => simp [bind, Except.bind, he, Except.isOk, Except.toBool]
    | some entry =>
      simp [bind, Except.bind, he, Except.isOk, Except.toBool]
      rfl

/-- A file is no directory to step through, and neither is the place where it was. -/
private theorem stepInto_erase {content : List UInt8} {executable : Bool}
    (h : fs.entry? place = some (.file content executable)) (at_ : Place) (name : String)
    (next : Place) :
    (fs.erase place).stepInto at_ name = .ok next ↔ fs.stepInto at_ name = .ok next := by
  unfold stepInto
  by_cases hp : at_ = place
  · subst hp
    rw [entry?_erase_self h, h]
    constructor <;> intro hn <;> cases hn
  · rw [entry?_erase_of_ne hp]

private theorem foldlM_congr {α β : Type} {f g : β → α → Except FileFault β}
    (h : ∀ b a r, f b a = .ok r ↔ g b a = .ok r) (items : List α) (init r : β) :
    items.foldlM f init = .ok r ↔ items.foldlM g init = .ok r := by
  induction items generalizing init with
  | nil => rfl
  | cons a rest ih =>
    rw [List.foldlM_cons, List.foldlM_cons]
    cases hf : f init a with
    | ok b =>
      rw [(h init a b).mp hf]
      exact ih b
    | error fault =>
      cases hg : g init a with
      | ok b =>
        rw [(h init a b).mpr hg] at hf
        cases hf
      | error fault =>
        constructor <;> intro hn <;> cases hn

/-- Paths lead to the same places after a file is erased. -/
theorem locate_erase {content : List UInt8} {executable : Bool}
    (h : fs.entry? place = some (.file content executable)) (path : FilePath) (found : Place) :
    (fs.erase place).locate path = .ok found ↔ fs.locate path = .ok found := by
  unfold locate
  split
  · rfl
  · exact foldlM_congr (stepInto_erase h) _ _ _

/-- Removing a file erases what is at its place. -/
theorem exists_of_remove_eq_ok (h : fs.remove path = .ok fs') :
    ∃ place content executable, fs.locate path = .ok place ∧
      fs.entry? place = some (.file content executable) ∧ fs' = fs.erase place := by
  unfold remove at h
  obtain ⟨place, hl, h⟩ := exists_of_bind_eq_ok h
  cases he : fs.entry? place with
  | none =>
    rw [he] at h
    cases h
  | some entry =>
    rw [he] at h
    cases entry with
    | directory => cases h
    | file content executable =>
      exact ⟨place, content, executable, hl, he, (Except.ok.inj h).symm⟩

/-- Removing a file takes away only what is at its place. -/
theorem entry?_of_remove (h : fs.remove path = .ok fs') (he : fs.entry? other = some entry) :
    fs'.entry? other = some entry ∨ fs.locate path = .ok other := by
  obtain ⟨place, content, executable, hl, -, rfl⟩ := exists_of_remove_eq_ok h
  by_cases hp : other = place
  · rw [hp]
    exact Or.inr hl
  · rw [entry?_erase_of_ne hp]
    exact Or.inl he

/-- Paths lead to the same places after a file is removed. -/
theorem locate_of_remove (h : fs.remove path = .ok fs') (path' : FilePath) (found : Place) :
    fs'.locate path' = .ok found ↔ fs.locate path' = .ok found := by
  obtain ⟨place, content, executable, -, he, rfl⟩ := exists_of_remove_eq_ok h
  exact locate_erase he path' found

/-- A removed file does not exist. -/
theorem pathExists_of_remove (h : fs.remove path = .ok fs') : fs'.pathExists path = false := by
  obtain ⟨place, content, executable, hl, he, rfl⟩ := exists_of_remove_eq_ok h
  rw [Bool.eq_false_iff]
  intro hexists
  obtain ⟨found, entry, hfound, hentry⟩ := pathExists_iff.mp hexists
  rw [(locate_erase he path found), hl] at hfound
  obtain rfl := Except.ok.inj hfound
  rw [entry?_erase_self he] at hentry
  cases hentry

/-- Removing a file brings nothing into being. -/
theorem pathExists_mono_of_remove (h : fs.remove path = .ok fs') {path' : FilePath}
    (he : fs'.pathExists path' = true) : fs.pathExists path' = true := by
  obtain ⟨place, content, executable, -, hfile, rfl⟩ := exists_of_remove_eq_ok h
  obtain ⟨found, entry, hfound, hentry⟩ := pathExists_iff.mp he
  have hne : found ≠ place := by
    intro heq
    rw [heq, entry?_erase_self hfile] at hentry
    cases hentry
  rw [entry?_erase_of_ne hne] at hentry
  exact pathExists_iff.mpr ⟨found, entry, (locate_erase hfile path' found).mp hfound, hentry⟩

/-- What cannot be removed and is no directory does not exist. -/
theorem pathExists_of_remove_eq_error {fault : FileFault} (h : fs.remove path = .error fault)
    (hd : fs.isDirectory path = false) : fs.pathExists path = false := by
  rw [Bool.eq_false_iff]
  intro hexists
  obtain ⟨place, entry, hl, he⟩ := pathExists_iff.mp hexists
  cases entry with
  | file content executable =>
    simp [remove, hl, he, bind, Except.bind] at h
    cases h
  | directory =>
    simp [isDirectory, lookup, hl, he, bind, Except.bind] at hd
    cases hd

/-! ### Making directories -/

private theorem entry?_of_createDirectory (h : fs.createDirectory path = .ok fs')
    (he : fs.entry? other = some entry) : fs'.entry? other = some entry := by
  unfold createDirectory at h
  obtain ⟨place, -, h⟩ := exists_of_bind_eq_ok h
  cases hp : fs.entry? place with
  | some found =>
    rw [hp] at h
    cases h
  | none =>
    rw [hp] at h
    rw [← Except.ok.inj h]
    exact entry?_put_of_none hp he .directory

private theorem entry?_of_createLast (he : fs.entry? other = some entry) :
    entry? (fs.createLast path).2 other = some entry := by
  unfold createLast
  cases hmade : fs.createDirectory path with
  | ok made => exact entry?_of_createDirectory hmade he
  | error fault => exact he

private theorem entry?_of_createBelow (depth : Nat) (path : FilePath)
    (he : fs.entry? other = some entry) :
    entry? (fs.createBelow depth path).2 other = some entry := by
  induction depth generalizing path with
  | zero => exact he
  | succ depth ih =>
    unfold createBelow
    split
    · exact he
    · split
      · next made hmade => exact entry?_of_createDirectory hmade he
      · split
        · exact he
        · next outer _ =>
          have habove := ih outer
          split
          · next above hb =>
            rw [hb] at habove
            exact entry?_of_createLast habove
          · exact habove
      · exact he

/-- Making directories leaves what is there, whether or not all of them can be made. -/
theorem entry?_of_created {made : Except FileFault Unit}
    (h : fs.createDirectories path = (made, fs')) (he : fs.entry? other = some entry) :
    fs'.entry? other = some entry := by
  have hkept := entry?_of_createBelow (path.text.length + 1) path he
  rw [createDirectories] at h
  rw [h] at hkept
  exact hkept

end FileSystem

end Montage
