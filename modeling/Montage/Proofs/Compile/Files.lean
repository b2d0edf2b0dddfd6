import Montage.Proofs.Compile.Linearity
import Montage.Proofs.Engine.Invocation

/-!
# Files and pads

The engine knows its input files by their position only. The positions at which a program reads
them are those at which its arguments name them: the clips in order, then the music.
-/

namespace Montage

open Montage.Numeric (num)
open Montage.Graph
open Montage.Engine (Invocation Operand Setting)

namespace Graph

/-- Whether a stage reads this label. -/
def Stage.reads (l : Label) (stage : Stage) : Bool := stage.inputs.any (· == l)

/-- The filters of a stage with this name. -/
def Stage.filtersNamed (name : String) (stage : Stage) : List Filter :=
  stage.filters.filter (·.name == name)

/-- In a linear program the stage that reads a pad is the only one. -/
theorem Program.Linear.filter_reads {program : Program} (h : program.Linear) {stage : Stage}
    (hs : stage ∈ program.stages) {l : Label} (hp : l.isPad = true) (hl : l ∈ stage.inputs) :
    program.stages.filter (·.reads l) = [stage] := by
  have hcount : (labelsRead program.stages).count l = 1 :=
    Nat.le_antisymm (h.pads_once l hp)
      (List.count_pos_iff.mpr (List.mem_flatMap.mpr ⟨stage, hs, hl⟩))
  have hone := countP_any_inputs_of_countP hcount
  rw [List.countP_eq_length_filter] at hone
  obtain ⟨only, honly⟩ := List.length_eq_one_iff.mp hone
  have hmem : stage ∈ program.stages.filter (fun stage ↦ stage.inputs.any (· == l)) :=
    List.mem_filter.mpr ⟨hs, List.any_eq_true.mpr ⟨l, hl, beq_self_eq_true l⟩⟩
  rw [honly, List.mem_singleton] at hmem
  rw [hmem]
  exact honly

end Graph

namespace Composition

/-- The setting that repeats the music. -/
def loopSetting : Setting := ("-stream_loop", "-1")

/-- The input files of a composition as they are given to the engine. -/
def operands (composition : Composition) : List Operand :=
  composition.clips.map (fun clip ↦ { file := clip.source.text }) ++
    (composition.music.map fun music ↦ ⟨[loopSetting], music.source.text⟩).toList

/-- The files that the arguments name are those that the graph reads, at the same positions. -/
structure FilesInStep (composition : Composition) (program : Program) (output : FilePath) :
    Prop where
  /-- The video of a clip is read by one stage, which trims it as the clip says. -/
  video : ∀ (index : Nat) (clip : Clip), composition.clips[index]? = some clip →
    ∃ stage, program.stages.filter (·.reads (.ofVideo index)) = [stage] ∧
      stage.filtersNamed "trim" =
        [⟨"trim", [opt "start" (num clip.trimStart), opt "duration" (num clip.duration)]⟩]
  /-- The only audio in the graph is that of the music, which comes after the clips. -/
  audio : ∀ file, (∃ stage ∈ program.stages, .ofAudio file ∈ stage.inputs ++ stage.outputs) ↔
    composition.music.isSome = true ∧ file = composition.clips.length
  audioOut : program.audioOut.isSome = composition.music.isSome
  /-- The input files are the paths of the composition, and only the music has settings. -/
  paths : (Invocation.read [] (program.arguments output)).inputs.map (·.file) =
    composition.inputPaths.map (·.text)
  settings : (Invocation.read [] (program.arguments output)).inputs.map (·.settings) =
    composition.clips.map (fun _ ↦ []) ++ (composition.music.map fun _ ↦ [loopSetting]).toList
  looped : ∀ music ∈ composition.music,
    ["-stream_loop", "-1", "-i", music.source.text] <:+: program.arguments output
  /-- After the inputs come the graph, the streams that leave it and the encoding. -/
  written : ∃ operand, (Invocation.read [] (program.arguments output)).output = some operand ∧
    operand.settings.head? = some ("-filter_complex", program.filterGraph) ∧
    operand.values "-map" = (program.videoOut :: program.audioOut.toList).map Label.bracketed ∧
    operand.values "-c:a" = (program.audioOut.map fun _ ↦ program.encoding.audioCodec).toList ∧
    operand.values "-b:a" = (program.audioOut.map fun _ ↦ program.encoding.audioBitrate).toList
  last : (program.arguments output).getLast? = some output.text

variable {composition : Composition}

theorem isPlain_of_mem_operands (composition : Composition) :
    ∀ input ∈ composition.operands, ∀ setting ∈ input.settings, setting.IsPlain := by
  intro input hi setting hs
  rcases List.mem_append.mp hi with hclip | hmusic
  · obtain ⟨clip, -, rfl⟩ := List.mem_map.mp hclip
    cases hs
  · obtain ⟨music, -, rfl⟩ := Option.map_eq_some_iff.mp (Option.mem_toList.mp hmusic)
    rw [List.mem_singleton.mp hs]
    exact ⟨rfl, by decide⟩

theorem words_operands (composition : Composition) (parts : Parts) :
    composition.operands.flatMap Operand.words =
      (parts.program composition).inputs.flatMap fun input ↦
        input.options ++ ["-i", input.path.text] := by
  unfold operands
  rw [Parts.program, List.flatMap_append, List.flatMap_append, List.flatMap_map, List.flatMap_map]
  cases composition.music <;> rfl

theorem file_operands (composition : Composition) :
    composition.operands.map (·.file) = composition.inputPaths.map (·.text) := by
  unfold operands inputPaths
  cases composition.music <;> simp

theorem settings_operands (composition : Composition) :
    composition.operands.map (·.settings) =
      composition.clips.map (fun _ ↦ []) ++
        (composition.music.map fun _ ↦ [loopSetting]).toList := by
  unfold operands
  rw [List.map_append, List.map_map]
  cases composition.music <;> rfl

end Composition

/-- The stage that trims a clip and fits it to the canvas. -/
def trimStage (canvas : Canvas) (index : Nat) (clip : Clip) : Stage :=
  .chain (.ofVideo index)
    (trimFilters clip ++ fitFilters canvas.width canvas.area.height canvas.background)
    (.numbered .clip index)

theorem filtersNamed_trimStage (canvas : Canvas) (index : Nat) (clip : Clip) :
    (trimStage canvas index clip).filtersNamed "trim" =
      [⟨"trim", [opt "start" (num clip.trimStart), opt "duration" (num clip.duration)]⟩] := rfl

namespace Parts.Fit

variable {fonts : FontResolver} {composition : Composition} {parts : Parts}

theorem linear (h : parts.Fit fonts composition) (hn : composition.clips ≠ []) :
    (parts.program composition).Linear := by
  obtain ⟨requests, hs⟩ := h.segment hn
  exact (h.wiring hn).linear (hs.pads_eq ▸ composition.pads_nodup)

theorem trimStage_mem (parts : Parts) {index : Nat} {clip : Clip}
    (hc : composition.clips[index]? = some clip) :
    trimStage (composition.canvas parts.background) index clip ∈
      (parts.program composition).stages := by
  have hplaced : placedFragment (composition.canvas parts.background) index clip ∈
      placedFragments (composition.canvas parts.background) 0 composition.clips :=
    List.mem_map.mpr ⟨(clip, index), List.mk_mem_zipIdx_iff_getElem?.mpr hc, rfl⟩
  simp only [program, List.mem_append]
  exact .inl (.inl (.inl (.inl (List.mem_flatMap.mpr ⟨_, hplaced, List.mem_cons_self⟩))))

/-- A stage handles audio of an input file only if it makes the soundtrack. -/
theorem exists_ofAudio_iff (h : parts.Fit fonts composition) (hn : composition.clips ≠ [])
    (file : Nat) :
    (∃ stage ∈ (parts.program composition).stages,
        .ofAudio file ∈ stage.inputs ++ stage.outputs) ↔
      composition.music.isSome = true ∧ file = composition.clips.length := by
  obtain ⟨requests, hs⟩ := h.segment hn
  have hread : (∃ stage ∈ (parts.program composition).stages,
      .ofAudio file ∈ stage.inputs ++ stage.outputs) ↔ Label.ofAudio file ∈ composition.pads := by
    rw [← hs.pads_eq, padsRead_eq_filter, List.mem_filter, labelsRead, List.mem_flatMap]
    constructor
    · rintro ⟨stage, hm, hl⟩
      -- what a stage writes is a signal, so the pad is one of its inputs
      refine ⟨⟨stage, hm, (List.mem_append.mp hl).resolve_right fun ho ↦ ?_⟩, rfl⟩
      cases (h.wiring hn).written_signal _ (List.mem_flatMap.mpr ⟨stage, hm, ho⟩)
    · rintro ⟨⟨stage, hm, hl⟩, -⟩
      exact ⟨stage, hm, List.mem_append_left _ hl⟩
  rw [hread]
  cases hm : composition.music <;>
    simp [Composition.pads, Label.ofAudio, Label.ofVideo, hm, eq_comm]

/-- The files that a composition is given are those that its graph reads. -/
theorem filesInStep (h : parts.Fit fonts composition) (hn : composition.clips ≠ [])
    (output : FilePath) : composition.FilesInStep (parts.program composition) output := by
  have hread := Program.read_arguments composition.isPlain_of_mem_operands
    (composition.words_operands parts) output
  constructor
  case video =>
    intro index clip hc
    exact ⟨_, (h.linear hn).filter_reads (trimStage_mem parts hc) rfl List.mem_cons_self,
      filtersNamed_trimStage ..⟩
  case audio => exact h.exists_ofAudio_iff hn
  case audioOut =>
    rw [program, Composition.soundtrack, Option.isSome_map, Option.isSome_map]
  case paths =>
    rw [hread]
    exact composition.file_operands
  case settings =>
    rw [hread]
    exact composition.settings_operands
  case looped =>
    intro music hm
    have hinput : ⟨[Composition.loopSetting], music.source.text⟩ ∈ composition.operands := by
      rw [Composition.operands, Option.mem_def.mp hm]
      exact List.mem_append_right _ List.mem_cons_self
    exact Program.words_infix_arguments (composition.words_operands parts) hinput output
  case written =>
    exact ⟨_, congrArg Invocation.output hread, rfl, Program.values_map_settings ..,
      Program.values_audio_settings ..⟩
  case last => exact Program.getLast?_arguments _ output

end Parts.Fit

/-- An accepted composition is compiled unless its badges have no place, and the files that its
program is given are those that its graph reads. -/
theorem compile_filesInStep {composition : Composition} (h : composition.check = .ok ())
    (fonts : FontResolver) :
    (composition.BadgesInRange → ∃ program, composition.compile fonts = .ok program) ∧
      ∀ program, composition.compile fonts = .ok program →
        ∀ output, composition.FilesInStep program output := by
  refine ⟨Composition.exists_program_of_check h fonts, fun program hp ↦ ?_⟩
  obtain ⟨ha, parts, hfit, rfl⟩ := Composition.exists_parts_of_compile hp
  exact hfit.filesInStep ha.clips_ne_nil

/-- Three clips with music that fades out. -/
def fadingClips : Composition :=
  { threeClips with music := some { source := ⟨"song.mp3"⟩, fadeOut := true } }

theorem compile_filesInStep_fadingClips :
    fadingClips.check = .ok () ∧
      ∃ program, fadingClips.compile (fun _ _ ↦ none) = .ok program ∧
        fadingClips.FilesInStep program ⟨"out.mp4"⟩ ∧
        ∃ stage, program.stages.filter (·.reads (.ofVideo 1)) = [stage] ∧
          stage.filtersNamed "trim" =
            [⟨"trim", [opt "start" (num 0), opt "duration" (num 6)]⟩] := by
  have hcheck : fadingClips.check = .ok () := (Composition.check_eq_ok_iff fadingClips).mpr
    (Composition.accepted_of_toOption (by decide +kernel))
  obtain ⟨hcompiles, hstep⟩ := compile_filesInStep hcheck fun _ _ ↦ none
  obtain ⟨program, hp⟩ := hcompiles (by decide)
  have hfiles := hstep program hp ⟨"out.mp4"⟩
  exact ⟨hcheck, program, hp, hfiles, hfiles.video 1 ⟨⟨"b.mp4"⟩, 0, 6⟩ rfl⟩

end Montage
