import Montage.Environment
import Montage.Text.Alphanumeric
import Montage.Text.Blank

/-!
# Environment files

Assignments such as `NAME=value`, one a line. A quoted value may hold line ends, and a `#` at the
start of a line or after white space begins a comment. `$NAME` stands for the value of a variable;
the name ends before the first character that is no letter or number, unless it stands in braces.
Reading offers the variables one by one and stops at the first line that is no assignment; a
variable that is set already keeps its value.
-/

namespace Montage.EnvironmentFile

open Montage.Text (isAlphanumeric isBlank trimStartChars trimEndChars)

/-! ## Lines -/

/-- Where in a line a character stands, as far as the end of the line depends on it. -/
private inductive LinePlace where
  | plain
  | afterBlank
  | escaped
  | single
  | singleEscaped
  | double
  | doubleEscaped
deriving DecidableEq

private def LinePlace.next (place : LinePlace) (c : Char) : LinePlace :=
  let opened : LinePlace :=
    if c = '\\' then .escaped else if c = '"' then .double else if c = '\'' then .single else .plain
  match place with
  | plain => if isBlank c && c ≠ '\n' && c ≠ '\r' then afterBlank else opened
  | afterBlank => opened
  | escaped => plain
  | single => if c = '\\' then singleEscaped else if c = '\'' then plain else single
  | singleEscaped => single
  | double => if c = '\\' then doubleEscaped else if c = '"' then plain else double
  | doubleEscaped => double

private def isComment (cs : List Char) : Bool := (trimStartChars cs).head? == some '#'

/-- The lines of a text, each with the place it ends in; a line that ends in any other place than
the plain one is cut short. Comments are left out. `line` holds the characters of the current line
in reverse, and `skipping` passes over the rest of a comment. -/
private def linesFrom : LinePlace → List Char → Bool → List Char → List (List Char × LinePlace)
  | place, line, skipping, [] =>
    if line.isEmpty || skipping then [] else [(line.reverse, place)]
  | place, line, true, c :: rest =>
    if c = '\n' then linesFrom .plain [] false rest else linesFrom place line true rest
  | place, line, false, c :: rest =>
    if line.isEmpty && isComment ((c :: rest).takeWhile (· ≠ '\n')) then
      if c = '\n' then linesFrom .plain [] false rest else linesFrom .plain [] true rest
    else if place = .afterBlank && c = '#' then
      (line.reverse, .plain) :: linesFrom .plain [] true rest
    else
      let place := place.next c
      if c = '\n' && place = .plain then
        (line.reverse, .plain) :: linesFrom .plain [] false rest
      else linesFrom place (c :: line) false rest

/-! ## Values -/

/-- Where in a value a character stands. Outside single quotes, `quoted` says whether it stands in
double quotes; a name that is being read is kept. -/
private inductive ValuePlace where
  | text (quoted : Bool)
  | literal
  | escaped (quoted : Bool)
  | name (quoted : Bool) (read : List Char)
  | bracedName (quoted : Bool) (read : List Char)
  | finished

/-- The text of a value from a place on, or nothing if it is not well formed. -/
private def readValue (value : List Char → List Char) :
    ValuePlace → List Char → Option (List Char)
  | .text quoted, [] => if quoted then none else some []
  | .literal, [] => none
  | .escaped quoted, [] => if quoted then none else some []
  | .name quoted read, [] => if quoted then none else some (value read)
  | .bracedName .., [] => none
  | .finished, [] => some []
  | .text quoted, c :: rest =>
    if c = '$' then readValue value (.name quoted []) rest
    else if c = '\\' then readValue value (.escaped quoted) rest
    else if c = '"' then readValue value (.text (!quoted)) rest
    else if c = '\'' && !quoted then readValue value .literal rest
    else if (c = ' ' || c = '\t') && !quoted then readValue value .finished rest
    else (c :: ·) <$> readValue value (.text quoted) rest
  | .literal, c :: rest =>
    if c = '\'' then readValue value (.text false) rest
    else (c :: ·) <$> readValue value .literal rest
  | .escaped quoted, c :: rest =>
    if c ∈ ['\\', '\'', '"', '$', ' '] then (c :: ·) <$> readValue value (.text quoted) rest
    else if c = 'n' then ('\n' :: ·) <$> readValue value (.text quoted) rest
    else none
  | .name quoted read, c :: rest =>
    if isAlphanumeric c then readValue value (.name quoted (read ++ [c])) rest
    else if c = '\x7b' && read.isEmpty then readValue value (.bracedName quoted []) rest
    else if c = '$' then (value read ++ ·) <$> readValue value (.name quoted []) rest
    else (value read ++ c :: ·) <$> readValue value (.text quoted) rest
  | .bracedName quoted read, c :: rest =>
    if c = '\x7d' then (value read ++ ·) <$> readValue value (.text quoted) rest
    else readValue value (.bracedName quoted (read ++ [c])) rest
  | .finished, c :: rest =>
    if c = ' ' || c = '\t' then readValue value .finished rest
    else if c = '#' then some []
    else none

/-! ## Assignments -/

/-- What a line says. -/
inductive Line where
  | nothing
  | assignment (name value : String)
  | fault
deriving DecidableEq

private def isNameStart (c : Char) : Bool := c.isAlpha || c = '_'

private def isNameChar (c : Char) : Bool := c.isAlphanum || c = '_' || c = '.'

/-- A name at the start of a text, and what follows it after white space. -/
private def name? : List Char → Option (String × List Char)
  | [] => none
  | c :: rest =>
    if isNameStart c then
      some (String.ofList (c :: rest.takeWhile isNameChar),
        trimStartChars (rest.dropWhile isNameChar))
    else none

/-- The name that is assigned to, and the text after the equals sign. The word `export` may stand
before the name. -/
private def target? (cs : List Char) : Option (String × List Char) := do
  let (name, rest) ← name? cs
  match rest with
  | '=' :: rest => return (name, rest)
  | rest =>
    if name ≠ "export" then none
    else
      let (name, rest) ← name? rest
      match rest with
      | '=' :: rest => return (name, rest)
      | _ => none

/-- Reads a line, given the values of variables. -/
def readLine (environment : Environment) (line : List Char) : Line :=
  let cs := trimStartChars (trimEndChars line)
  if cs.isEmpty || cs.head? == some '#' then .nothing
  else
    let value (name : List Char) : List Char :=
      (environment.valueOrEmpty (String.ofList name)).toList
    match target? cs with
    | none => .fault
    | some (name, rest) =>
      let rest := trimStartChars rest
      if rest.isEmpty || rest.head? == some '#' then .assignment name ""
      else
        match readValue value (.text false) rest with
        | some value => .assignment name (String.ofList value)
        | none => .fault

private def loadLines : List (List Char × LinePlace) → Environment → Environment
  | [], environment => environment
  | (line, place) :: rest, environment =>
    if place ≠ .plain then environment
    else
      match readLine environment line with
      | .nothing => loadLines rest environment
      | .assignment name value => loadLines rest (environment.offer name value)
      | .fault => environment

/-- The text of bytes up to the first line that is not UTF-8. The bytes of the current line come in
reverse. -/
private def readableText : List UInt8 → List UInt8 → String
  | line, [] => (String.fromUTF8? ⟨line.reverse.toArray⟩).getD ""
  | line, b :: rest =>
    if b = 10 then
      match String.fromUTF8? ⟨(b :: line).reverse.toArray⟩ with
      | some text => text ++ readableText [] rest
      | none => ""
    else readableText (b :: line) rest

/-- The environment with the variables that a file offers. -/
def load (content : List UInt8) (environment : Environment) : Environment :=
  let cs := match (readableText [] content).toList with
    | '\uFEFF' :: rest => rest
    | cs => cs
  loadLines (linesFrom .plain [] false cs) environment

end Montage.EnvironmentFile
