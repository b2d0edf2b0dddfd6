import Montage.Graph.Basic

/-!
# Checking programs

A program is sound when every label is written once and before it is read, no label is read twice,
pads belong to declared inputs, and the outputs are written and left unread.
-/

namespace Montage.Graph

/-- Why a program is not sound. Stages are numbered from zero. -/
inductive Defect where
  | noFilters (stage : Nat)
  | undeclaredInput (stage : Nat) (label : Label)
  | readTooEarly (stage : Nat) (label : Label)
  | readTwice (label : Label)
  | writtenPad (stage : Nat) (label : Label)
  | writtenTwice (label : Label)
  | outputMissing (label : Label)
  | outputRead (label : Label)
deriving DecidableEq

def Defect.message : Defect → String
  | noFilters stage => s!"Stage {stage} has no filters"
  | undeclaredInput stage label => s!"Stage {stage} reads undeclared input " ++ label.text
  | readTooEarly stage label =>
    s!"Stage {stage} reads " ++ label.text ++ " before it is produced"
  | readTwice label => "Label " ++ label.text ++ " is consumed more than once"
  | writtenPad stage label => s!"Stage {stage} writes to input pad " ++ label.text
  | writtenTwice label => "Label " ++ label.text ++ " is produced more than once"
  | outputMissing label => "Output " ++ label.text ++ " is never produced"
  | outputRead label => "Output " ++ label.text ++ " is consumed inside the graph"

/-- The labels written and the labels read by the stages so far. -/
structure Usage where
  written : List Label := []
  read : List Label := []

namespace Usage

/-- Reads a label in a stage of a program with `inputCount` files. -/
def readLabel (inputCount stage : Nat) (usage : Usage) (label : Label) : Except Defect Usage :=
  match label with
  | .pad input _ =>
    if input < inputCount then .ok usage else .error (.undeclaredInput stage label)
  | .signal .. =>
    if label ∉ usage.written then .error (.readTooEarly stage label)
    else if label ∈ usage.read then .error (.readTwice label)
    else .ok { usage with read := label :: usage.read }

/-- Writes a label in a stage. -/
def writeLabel (stage : Nat) (usage : Usage) (label : Label) : Except Defect Usage :=
  if label.isPad then .error (.writtenPad stage label)
  else if label ∈ usage.written then .error (.writtenTwice label)
  else .ok { usage with written := label :: usage.written }

/-- Runs one stage: it reads its inputs, then writes its outputs. -/
def runStage (inputCount index : Nat) (usage : Usage) (stage : Stage) : Except Defect Usage := do
  if stage.filters.isEmpty then throw (.noFilters index)
  let usage ← stage.inputs.foldlM (readLabel inputCount index) usage
  stage.outputs.foldlM (writeLabel index) usage

/-- Runs the stages in order, numbered from `index`. -/
def runStages (inputCount : Nat) : Nat → Usage → List Stage → Except Defect Usage
  | _, usage, [] => .ok usage
  | index, usage, stage :: rest => do
    runStages inputCount (index + 1) (← usage.runStage inputCount index stage) rest

/-- Looks at a label that leaves the program. -/
def checkOutput (usage : Usage) (label : Label) : Except Defect Unit :=
  if label ∉ usage.written then .error (.outputMissing label)
  else if label ∈ usage.read then .error (.outputRead label)
  else .ok ()

end Usage

/-- Looks for the first defect of a program (`CompiledProgram.validate`). -/
def Program.check (program : Program) : Except Defect Unit := do
  let usage ← Usage.runStages program.inputs.length 0 {} program.stages
  usage.checkOutput program.videoOut
  program.audioOut.forM usage.checkOutput

end Montage.Graph
