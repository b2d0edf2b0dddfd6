import Montage.CommandLine.Help

/-!
# Reading command lines

Words are read from left to right, and the first that asks for help or makes no sense decides. A
word that starts with a hyphen is an option; after `--` every word is an argument.
-/

namespace Montage.CommandLine

/-- One word of a command. -/
inductive Token where
  | help
  | option (name : String)
  | argument (text : String)
deriving DecidableEq

private def isShortOption (letter : Char) (word : String) : Bool :=
  match word.toList with
  | '-' :: c :: _ => c = letter
  | _ => false

/-- A hyphen alone is an argument. Of short options in one word the first counts. -/
private def tokenOf (word : String) : Token :=
  if word = "--help" || isShortOption 'h' word then .help
  else if word ≠ "-" && word.toList.head? == some '-' then .option word
  else .argument word

/-- The words after the name of a command. -/
def tokens : List String → List Token
  | [] => []
  | word :: rest => if word = "--" then rest.map .argument else tokenOf word :: tokens rest

private structure JobWords where
  job : Option FilePath := none
  printGraph : Bool := false
  keepUploads : Bool := false

/-- Takes a word of a render command. Options and the argument may stand once each. -/
private def JobWords.take (kind : RequestKind) (words : JobWords) :
    Token → Except Invocation JobWords
  | .help => .error (.information (Help.render kind))
  | .option name =>
    if name = "--print-graph" && !words.printGraph then .ok { words with printGraph := true }
    else if name = "--keep-uploads" && !words.keepUploads then
      .ok { words with keepUploads := true }
    else .error .refused
  | .argument text =>
    if text.isEmpty || words.job.isSome then .error .refused
    else .ok { words with job := some ⟨text⟩ }

private def takeSchemaWord (chosen : Option RequestKind) :
    Token → Except Invocation (Option RequestKind)
  | .help => .error (.information Help.schema)
  | .option _ => .error .refused
  | .argument text =>
    match chosen, RequestKind.ofCommand? text with
    | none, some kind => .ok (some kind)
    | _, _ => .error .refused

private def decided : Except Invocation Invocation → Invocation
  | .ok invocation => invocation
  | .error invocation => invocation

private def readRender (kind : RequestKind) (words : List String) : Invocation :=
  decided do
    let read ← (tokens words).foldlM (JobWords.take kind) {}
    match read.job with
    | some job => return .task (.render kind ⟨job, read.printGraph, read.keepUploads⟩)
    | none => return .refused

private def readSchema (words : List String) : Invocation :=
  decided do
    let chosen ← (tokens words).foldlM takeSchemaWord none
    return .task (.schema (chosen.getD .composition))

private def readHelp (words : List String) : Invocation :=
  match Help.on? words with
  | some text => .information text
  | none => .refused

/-- Reads the words of a command line. -/
def read : List String → Invocation
  | [] => .refused
  | word :: rest =>
    if word = "--help" || isShortOption 'h' word then .information Help.general
    else if word = "--version" || isShortOption 'V' word then .information Help.version
    else if word = "help" then readHelp rest
    else if word = "schema" then readSchema rest
    else
      match RequestKind.ofCommand? word with
      | some kind => readRender kind rest
      | none => .refused

end Montage.CommandLine
