import Montage.CompileError
import Montage.FileSystem
import Montage.Json.Decoder

/-!
# Failures

What can go wrong with a render, from the request to the finished file, which kind of failure each
cause is, and the payload that callers receive.
-/

namespace Montage

open Json

/-- The kinds of failure that callers tell apart. -/
inductive FailureKind where
  | configuration
  | spawn
  | encode
  | cancelled
  | internal
deriving DecidableEq

namespace FailureKind

def named : List (String × FailureKind) :=
  [("configuration", configuration), ("spawn", spawn), ("encode", encode),
   ("cancelled", cancelled), ("internal", internal)]

def name : FailureKind → String
  | configuration => "configuration"
  | spawn => "spawn"
  | encode => "encode"
  | cancelled => "cancelled"
  | internal => "internal"

def decode : Decoder FailureKind := decodeChoice named

end FailureKind

/-- What goes wrong while compiling or rendering. -/
inductive MediaError where
  | invalidComposition (reason : String)
  | invalidGraph (reason : String)
  | fileNotFound (path : FilePath)
  | engineNotFound (binary : String)
  | proberNotFound (binary : String)
  | notStarted (reason : String)
  | engineFailed (reason : String) (diagnostics : Option String) (exitCode : Option Nat)
  | missingOutput (path : FilePath)
  | proberFailed (reason : String) (diagnostics : Option String)
  | cancelled
  | io (reason : String)
  | json (fault : Json.Fault)
  | internal (reason : String)

namespace MediaError

def message : MediaError → String
  | invalidComposition reason => "Invalid composition: " ++ reason
  | invalidGraph reason => "Invalid filter graph: " ++ reason
  | fileNotFound path => "File not found: " ++ path.text
  | engineNotFound binary => "FFmpeg not found: " ++ binary
  | proberNotFound binary => "FFprobe not found: " ++ binary
  | notStarted reason => "Failed to start FFmpeg: " ++ reason
  | engineFailed reason _ _ => "FFmpeg command failed: " ++ reason
  | missingOutput path => "FFmpeg reported success but no output exists at " ++ path.text
  | proberFailed reason _ => "FFprobe command failed: " ++ reason
  | cancelled => "Operation cancelled"
  | io reason => "IO error: " ++ reason
  | json fault => "JSON parse error: " ++ fault.message
  | internal reason => "Internal error: " ++ reason

def kind : MediaError → FailureKind
  | invalidComposition _ | invalidGraph _ | fileNotFound _ | proberNotFound _ | proberFailed ..
  | json _ => .configuration
  | engineNotFound _ | notStarted _ => .spawn
  | engineFailed .. | missingOutput _ => .encode
  | cancelled => .cancelled
  | io _ | internal _ => .internal

/-- The diagnostics of the engine or the prober, when it ran (`MediaError.stderr_tail`). -/
def diagnostics? : MediaError → Option String
  | engineFailed _ diagnostics _ => diagnostics
  | proberFailed _ diagnostics => diagnostics
  | _ => none

def ofCompile (e : CompileError) : MediaError :=
  if e.isGraphDefect then invalidGraph e.reason else invalidComposition e.reason

end MediaError

/-- What goes wrong with a render request (`WorkerError`). -/
inductive RenderError where
  | invalidRequest (reason : String)
  | media (e : MediaError)
  | io (reason : String)

/-- The failure that callers receive. -/
structure RenderFailure where
  kind : FailureKind
  message : String
  diagnostics : Option String := none
deriving DecidableEq

namespace RenderError

def message : RenderError → String
  | invalidRequest reason => "Invalid request: " ++ reason
  | media e => "Media error: " ++ e.message
  | io reason => "IO error: " ++ reason

def kind : RenderError → FailureKind
  | invalidRequest _ => .configuration
  | media e => e.kind
  | io _ => .internal

def diagnostics? : RenderError → Option String
  | media e => e.diagnostics?
  | _ => none

/-- A compiler's failure as that of a render. -/
def ofCompile (e : CompileError) : RenderError := media (.ofCompile e)

/-- The failure as callers receive it (`WorkerError.to_failure`). -/
def toFailure (e : RenderError) : RenderFailure := ⟨e.kind, e.message, e.diagnostics?⟩

end RenderError

namespace RenderFailure

private def fields : List (RecordField RenderFailure) :=
  [.required "kind" FailureKind.decode fun value f => { f with kind := value },
   .required "message" decodeString fun value f => { f with message := value },
   .defaulted "stderrTail" (decodeOption decodeString)
     fun value f => { f with diagnostics := value }]

def decode : Decoder RenderFailure := decodeRecord ⟨.internal, "", none⟩ fields

/-- The failure as a document. Without diagnostics the field is left out. -/
def toJson (failure : RenderFailure) : Json :=
  .record <|
    [("kind", .string failure.kind.name), ("message", .string failure.message)] ++
      match failure.diagnostics with
      | some text => [("stderrTail", .string text)]
      | none => []

end RenderFailure

end Montage
