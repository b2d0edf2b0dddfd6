import Montage.Graph.Basic

/-!
# Engine invocations

How the engine reads its arguments: an option belongs to the next file, be it an input or, at the
end, the output. Read in this way, the arguments of a program are the files with the options that
the program has for each of them.
-/

namespace Montage

open Montage.Graph

namespace Engine

/-- An option with its value. -/
abbrev Setting := String × String

/-- A file of an invocation, with the options that apply to it. -/
structure Operand where
  settings : List Setting := []
  file : String
deriving DecidableEq

/-- The arguments as the engine understands them. -/
structure Invocation where
  inputs : List Operand := []
  output : Option Operand := none
deriving DecidableEq

/-- Whether an option takes no value and applies to the whole invocation. -/
def isFlag (word : String) : Bool := word == "-hide_banner" || word == "-y"

namespace Setting

/-- A setting as it is written. -/
def words (setting : Setting) : List String := [setting.1, setting.2]

/-- Whether a setting is neither a flag nor names an input. -/
def IsPlain (setting : Setting) : Prop := isFlag setting.1 = false ∧ setting.1 ≠ "-i"

end Setting

namespace Invocation

/-- An invocation that reads another input first. -/
def withInput (input : Operand) (invocation : Invocation) : Invocation :=
  { invocation with inputs := input :: invocation.inputs }

/-- Reads arguments. The pending settings are those that no file has taken yet. -/
def read (pending : List Setting) : List String → Invocation
  | [] => {}
  | [file] => { output := some ⟨pending, file⟩ }
  | word :: value :: rest =>
    if isFlag word then read pending (value :: rest)
    else if word = "-i" then (read [] rest).withInput ⟨pending, value⟩
    else read (pending ++ [(word, value)]) rest

theorem read_flag {word : String} (h : isFlag word = true) (pending : List Setting)
    {rest : List String} (hr : rest ≠ []) : read pending (word :: rest) = read pending rest := by
  obtain ⟨value, rest, rfl⟩ := List.exists_cons_of_ne_nil hr
  rw [read, if_pos h]

theorem read_input (pending : List Setting) (file : String) (rest : List String) :
    read pending ("-i" :: file :: rest) = (read [] rest).withInput ⟨pending, file⟩ := by
  rw [read, if_neg (by decide), if_pos rfl]

theorem read_settings {settings : List Setting} (h : ∀ setting ∈ settings, setting.IsPlain)
    (pending : List Setting) (rest : List String) :
    read pending (settings.flatMap Setting.words ++ rest) = read (pending ++ settings) rest := by
  induction settings generalizing pending with
  | nil => rw [List.append_nil, List.flatMap_nil, List.nil_append]
  | cons setting settings ih =>
    obtain ⟨hplain, hrest⟩ := List.forall_mem_cons.mp h
    have hwords : (setting :: settings).flatMap Setting.words ++ rest =
        setting.1 :: setting.2 :: (settings.flatMap Setting.words ++ rest) := rfl
    rw [hwords, read, if_neg (by simp [hplain.1]), if_neg hplain.2, ih hrest, List.append_assoc]
    rfl

theorem foldr_withInput (inputs : List Operand) (output : Option Operand) :
    inputs.foldr withInput { output } = { inputs, output } := by
  induction inputs with
  | nil => rfl
  | cons input inputs ih =>
    rw [List.foldr_cons, ih]
    rfl

end Invocation

namespace Operand

/-- An input as it is written: its settings, then the file. -/
def words (input : Operand) : List String :=
  input.settings.flatMap Setting.words ++ ["-i", input.file]

theorem read_words {inputs : List Operand}
    (h : ∀ input ∈ inputs, ∀ setting ∈ input.settings, setting.IsPlain) (rest : List String) :
    Invocation.read [] (inputs.flatMap words ++ rest) =
      inputs.foldr Invocation.withInput (Invocation.read [] rest) := by
  induction inputs with
  | nil => rfl
  | cons input inputs ih =>
    obtain ⟨hinput, hrest⟩ := List.forall_mem_cons.mp h
    rw [List.flatMap_cons, words, List.append_assoc, List.append_assoc,
      Invocation.read_settings hinput, List.nil_append]
    exact (Invocation.read_input ..).trans (congrArg _ (ih hrest))

/-- The values of the settings with this name, in order. -/
def values (operand : Operand) (name : String) : List String :=
  (operand.settings.filter (·.1 == name)).map (·.2)

end Operand

end Engine

open Engine

/-- The settings of an encoding. -/
def Encoding.settings (encoding : Encoding) (withAudio : Bool) : List Setting :=
  [("-c:v", encoding.codec), ("-preset", encoding.preset), ("-crf", toString encoding.crf),
   ("-b:v", encoding.bitrate), ("-maxrate", encoding.bitrate), ("-bufsize", encoding.bufferSize),
   ("-r", toString encoding.frameRate), ("-pix_fmt", encoding.pixelFormat),
   ("-movflags", "+faststart")] ++
  if withAudio then [("-c:a", encoding.audioCodec), ("-b:a", encoding.audioBitrate)] else []

theorem Encoding.words_settings (encoding : Encoding) (withAudio : Bool) :
    (encoding.settings withAudio).flatMap Setting.words = encoding.arguments withAudio := by
  cases withAudio <;> rfl

namespace Graph.Program

/-- The settings of the file that a program writes: the graph, the streams that leave it, and the
encoding. -/
def settings (program : Program) : List Setting :=
  ("-filter_complex", program.filterGraph) ::
    ((program.videoOut :: program.audioOut.toList).map fun label ↦ ("-map", label.bracketed)) ++
    program.encoding.settings program.audioOut.isSome

theorem isPlain_of_mem_settings (program : Program) :
    ∀ setting ∈ program.settings, setting.IsPlain := by
  intro setting hs
  have hnames : ∀ name ∈ program.settings.map (·.1), isFlag name = false ∧ name ≠ "-i" := by
    cases haudio : program.audioOut <;>
      simp [settings, Encoding.settings, haudio, isFlag]
  exact hnames setting.1 (List.mem_map_of_mem hs)

theorem words_settings (program : Program) :
    program.settings.flatMap Setting.words =
      ["-filter_complex", program.filterGraph] ++ ["-map", program.videoOut.bracketed] ++
        program.audioOut.toList.flatMap (fun label ↦ ["-map", label.bracketed]) ++
        program.encoding.arguments program.audioOut.isSome := by
  rw [settings, List.flatMap_append, Encoding.words_settings]
  cases program.audioOut <;> rfl

/-- The words for the files that a program reads. -/
def inputWords (program : Program) : List String :=
  program.inputs.flatMap fun input ↦ input.options ++ ["-i", input.path.text]

theorem arguments_eq (program : Program) (output : FilePath) :
    program.arguments output = ["-hide_banner", "-y"] ++ (program.inputWords ++
      (program.settings.flatMap Setting.words ++ [output.text])) := by
  have harguments : program.arguments output =
      ["-hide_banner", "-y"] ++ program.inputWords ++
        ["-filter_complex", program.filterGraph] ++ ["-map", program.videoOut.bracketed] ++
        program.audioOut.toList.flatMap (fun label ↦ ["-map", label.bracketed]) ++
        program.encoding.arguments program.audioOut.isSome ++ [output.text] := rfl
  rw [harguments, words_settings]
  simp only [List.append_assoc]

/-- The arguments of a program are read as its files: the inputs with their settings, then the
output with those of the program. -/
theorem read_arguments {program : Program} {inputs : List Operand}
    (hplain : ∀ input ∈ inputs, ∀ setting ∈ input.settings, setting.IsPlain)
    (hinputs : inputs.flatMap Operand.words = program.inputWords) (output : FilePath) :
    Invocation.read [] (program.arguments output) =
      ⟨inputs, some ⟨program.settings, output.text⟩⟩ := by
  have hne : program.settings.flatMap Setting.words ++ [output.text] ≠ [] := by simp
  rw [arguments_eq, ← hinputs, List.cons_append, List.singleton_append,
    Invocation.read_flag rfl _ (List.cons_ne_nil _ _),
    Invocation.read_flag rfl _ (List.append_ne_nil_of_right_ne_nil _ hne),
    Operand.read_words hplain, Invocation.read_settings program.isPlain_of_mem_settings]
  exact Invocation.foldr_withInput ..

/-- Each input stands in the arguments as it is written, with nothing between its words. -/
theorem words_infix_arguments {program : Program} {inputs : List Operand}
    (hinputs : inputs.flatMap Operand.words = program.inputWords)
    {input : Operand} (hi : input ∈ inputs) (output : FilePath) :
    input.words <:+: program.arguments output := by
  have hwords : input.words <:+: inputs.flatMap Operand.words := by
    obtain ⟨before, after, rfl⟩ := List.append_of_mem hi
    rw [List.flatMap_append, List.flatMap_cons, ← List.append_assoc]
    exact List.infix_append ..
  rw [arguments_eq, ← hinputs, ← List.append_assoc]
  exact hwords.trans (List.infix_append ..)

/-- The last argument is the file that is written. -/
theorem getLast?_arguments (program : Program) (output : FilePath) :
    (program.arguments output).getLast? = some output.text :=
  List.getLast?_concat

/-- The streams that the engine is told to write are those that leave the program. -/
theorem values_map_settings (program : Program) (file : String) :
    Operand.values ⟨program.settings, file⟩ "-map" =
      (program.videoOut :: program.audioOut.toList).map Label.bracketed := by
  cases haudio : program.audioOut <;>
    simp [settings, Encoding.settings, Operand.values, haudio]

/-- Sound is encoded exactly if it leaves the program. -/
theorem values_audio_settings (program : Program) (file : String) :
    Operand.values ⟨program.settings, file⟩ "-c:a" =
        (program.audioOut.map fun _ ↦ program.encoding.audioCodec).toList ∧
      Operand.values ⟨program.settings, file⟩ "-b:a" =
        (program.audioOut.map fun _ ↦ program.encoding.audioBitrate).toList := by
  cases haudio : program.audioOut <;>
    simp [settings, Encoding.settings, Operand.values, haudio]

end Graph.Program

end Montage
