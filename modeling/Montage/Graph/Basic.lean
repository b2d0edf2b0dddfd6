import Montage.FilePath
import Montage.Graph.Expression
import Montage.Graph.Label
import Montage.Quality

/-!
# Filter graphs

A graph is a list of stages, each a chain of filters between labels. Together with the input files
and the encoding it makes the program that the engine runs.
-/

namespace Montage.Graph

open Montage.Numeric (Binary64)

/-- An option of a filter, with a key or by position. -/
structure FilterOption where
  key : Option String
  value : String
deriving DecidableEq

/-- A filter with its options. -/
structure Filter where
  name : String
  options : List FilterOption := []
deriving DecidableEq

/-- A chain of filters between the labels it reads and the labels it writes (`FilterStage`). -/
structure Stage where
  inputs : List Label
  filters : List Filter
  outputs : List Label
deriving DecidableEq

/-- Stages together with the label that carries their result. -/
structure Fragment where
  stages : List Stage
  output : Label
deriving DecidableEq

/-- A file the engine reads, with the options that stand before it. -/
structure InputFile where
  path : FilePath
  options : List String := []
deriving DecidableEq

/-- A complete program for the engine (`CompiledProgram`). The total duration is what progress is
measured against. -/
structure Program where
  inputs : List InputFile
  stages : List Stage
  videoOut : Label
  audioOut : Option Label
  encoding : Encoding
  totalDuration : Binary64
deriving DecidableEq

namespace FilterOption

def render (option : FilterOption) : String :=
  match option.key with
  | some key => key ++ "=" ++ option.value
  | none => option.value

end FilterOption

/-- A keyed option (`Filter.arg`). -/
def opt (key value : String) : FilterOption := ⟨some key, value⟩

/-- A positional option (`Filter.positional`). -/
def pos (value : String) : FilterOption := ⟨none, value⟩

namespace Filter

/-- The value of the first option with this key (`Filter.param`). -/
def param? (filter : Filter) (key : String) : Option String :=
  (filter.options.find? (·.key == some key)).map (·.value)

/-- The filter as `name=option:option`. -/
def render (filter : Filter) : String :=
  if filter.options.isEmpty then filter.name
  else filter.name ++ "=" ++ ":".intercalate (filter.options.map (·.render))

end Filter

namespace Stage

/-- A chain with one input and one output (`FilterStage.chain`). -/
def chain (input : Label) (filters : List Filter) (output : Label) : Stage :=
  ⟨[input], filters, [output]⟩

/-- A generator (`FilterStage.source`): a filter without input. -/
def generator (filter : Filter) (output : Label) : Stage := ⟨[], [filter], [output]⟩

def uses (stage : Stage) (name : String) : Bool := stage.filters.any (·.name == name)

/-- The first filter with this name (`FilterStage.filter`). -/
def filter? (stage : Stage) (name : String) : Option Filter :=
  stage.filters.find? (·.name == name)

/-- The stage as `[in]filter,filter[out]`. -/
def render (stage : Stage) : String :=
  String.join (stage.inputs.map (·.bracketed)) ++
    ",".intercalate (stage.filters.map (·.render)) ++
    String.join (stage.outputs.map (·.bracketed))

end Stage

namespace Fragment

/-- No stages: the result is the input. -/
def passthrough (input : Label) : Fragment := ⟨[], input⟩

/-- One stage with one output (`Fragment.single`). -/
def single (stage : Stage) (output : Label) : Fragment := ⟨[stage], output⟩

end Fragment

namespace Program

/-- The whole graph as text (`CompiledProgram.filter_graph`). -/
def filterGraph (program : Program) : String :=
  ";".intercalate (program.stages.map (·.render))

/-- The stages that use a filter, in order (`CompiledProgram.stages_using`). -/
def stagesUsing (program : Program) (name : String) : List Stage :=
  program.stages.filter (·.uses name)

private def inputArguments (input : InputFile) : List String :=
  input.options ++ ["-i", input.path.text]

private def mapArguments (label : Label) : List String := ["-map", label.bracketed]

/-- The arguments for the engine (`FfmpegCommand.from_program`): inputs, graph, stream maps,
encoding, output. -/
def arguments (program : Program) (output : FilePath) : List String :=
  ["-hide_banner", "-y"] ++ program.inputs.flatMap inputArguments ++
    ["-filter_complex", program.filterGraph] ++
    mapArguments program.videoOut ++ program.audioOut.toList.flatMap mapArguments ++
    program.encoding.arguments program.audioOut.isSome ++ [output.text]

end Program

end Montage.Graph
