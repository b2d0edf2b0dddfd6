import Mathlib.Data.List.Count
import Montage.Proofs.Engine.Invocation
import Montage.Proofs.Graph.WellFormed

/-!
# Mapped streams

The stages of a program use labels, and the engine is told which labels to map to the output. A
program that passes its check maps no label that a stage reads. The check looks at the two labels
that leave the program one at a time, so it does not see whether they are the same.
-/

namespace Montage.Graph

open Engine

namespace Program

/-- The arguments for the output: all behind the flags and the inputs. -/
def outputArguments (program : Program) (output : FilePath) : List String :=
  (program.arguments output).drop (2 + program.inputWords.length)

/-- The streams that the engine is told to map to the output. -/
def mapped (program : Program) (output : FilePath) : List String :=
  (Invocation.read [] (program.outputArguments output)).output.toList.flatMap (·.values "-map")

/-- How often a label is used: by the stages that read it, and as a stream of the output. -/
def uses (program : Program) (output : FilePath) (l : Label) : Nat :=
  (labelsRead program.stages).count l + (program.mapped output).count l.bracketed

/-- What is mapped is what leaves the program. -/
theorem mapped_eq (program : Program) (output : FilePath) :
    program.mapped output = program.outs.map Label.bracketed := by
  have hwords : program.outputArguments output =
      program.settings.flatMap Setting.words ++ [output.text] := by
    rw [outputArguments, arguments_eq, ← List.drop_drop]
    exact List.drop_left
  have hread : Invocation.read [] (program.outputArguments output) =
      { output := some ⟨program.settings, output.text⟩ } := by
    rw [hwords, Invocation.read_settings program.isPlain_of_mem_settings]
    rfl
  rw [mapped, hread]
  exact (List.append_nil _).trans (program.values_map_settings output.text)

private theorem bracketed_injective : Function.Injective Label.bracketed := by
  intro a b h
  refine Label.text_injective ?_
  rw [← String.toList_inj] at h ⊢
  simpa [Label.bracketed, String.toList_append] using h

private theorem uses_eq (program : Program) (output : FilePath) (l : Label) :
    program.uses output l = (labelsRead program.stages).count l + program.outs.count l := by
  rw [uses, mapped_eq, List.count_map_of_injective _ _ bracketed_injective]

/-- A label leaves a program once for the picture and once for the sound. -/
private theorem count_outs (program : Program) (l : Label) :
    program.outs.count l =
      (if program.videoOut = l then 1 else 0) + if program.audioOut = some l then 1 else 0 := by
  cases haudio : program.audioOut with
  | none => simp [outs, haudio, List.count_singleton]
  | some sound =>
    simp [outs, haudio, List.count_cons]
    omega

/-- A label that a stage writes is read at most once, and not at all if it leaves the program. -/
private theorem WellFormed.uses_le {program : Program} (h : program.WellFormed)
    (output : FilePath) (l : Label) (hl : l ∈ written program.stages) :
    program.uses output l ≤ max 1 (program.outs.count l) := by
  rw [uses_eq]
  by_cases hout : l ∈ program.outs
  · rw [List.count_eq_zero_of_not_mem (h.outs_unread l hout)]
    omega
  · rw [List.count_eq_zero_of_not_mem hout]
    by_cases hread : l ∈ labelsRead program.stages
    · rw [h.read_once l hread (h.written_signal l hl)]
      omega
    · rw [List.count_eq_zero_of_not_mem hread]
      omega

/-- In a program that passes its check, every label that is written is used at most once exactly if
the picture and the sound leave it by different labels. A label that is mapped is read by no stage,
and only one label can be used more than once: twice, for the picture and for the sound. -/
theorem written_used_once_iff {program : Program} (h : program.check = .ok ())
    (output : FilePath) :
    ((∀ l ∈ written program.stages, program.uses output l ≤ 1) ↔
        program.audioOut ≠ some program.videoOut) ∧
      (∀ l : Label, l.bracketed ∈ program.mapped output → l ∉ labelsRead program.stages) ∧
      ∀ l ∈ written program.stages, 1 < program.uses output l →
        l = program.videoOut ∧ program.audioOut = some l ∧ program.uses output l = 2 := by
  obtain ⟨hadmits, houts⟩ := check_eq_ok_iff_admitsAll.mp h
  have hform : program.WellFormed := wellFormed_of_admitsAll hadmits houts
  have htwice : ∀ l ∈ written program.stages, 1 < program.uses output l →
      l = program.videoOut ∧ program.audioOut = some l ∧ program.uses output l = 2 := by
    intro l hl huses
    have hle := hform.uses_le output l hl
    have hcount := program.count_outs l
    by_cases hv : program.videoOut = l <;> by_cases ha : program.audioOut = some l <;>
      simp only [hv, ha, if_true, if_false] at hcount
    · exact ⟨hv.symm, ha, by omega⟩
    all_goals omega
  refine ⟨⟨fun honce heq ↦ ?_, fun hne l hl ↦ ?_⟩, fun l hl ↦ ?_, htwice⟩
  · have hvideo : program.videoOut ∈ program.outs := List.mem_cons_self
    have huses := honce program.videoOut (hform.outs_written _ hvideo)
    rw [uses_eq, count_outs, if_pos rfl, if_pos heq] at huses
    omega
  · by_contra huses
    obtain ⟨rfl, heq, -⟩ := htwice l hl (by omega)
    exact hne heq
  · rw [mapped_eq, List.mem_map_of_injective bracketed_injective] at hl
    exact hform.outs_unread l hl

/-- The picture and the sound of a file, with one of the two labels as the sound of the output. -/
def passingOn (sound : Role) : Program where
  inputs := [⟨⟨"a.mp4"⟩, []⟩]
  stages :=
    [.chain (.ofVideo 0) [⟨"null", []⟩] (.signal ⟨.videoOut, none⟩ 0),
     .chain (.ofAudio 0) [⟨"anull", []⟩] (.signal ⟨.audioOut, none⟩ 0)]
  videoOut := .signal ⟨.videoOut, none⟩ 0
  audioOut := some (.signal ⟨sound, none⟩ 0)
  encoding := Quality.p1080.encoding
  totalDuration := .nan

theorem written_used_once_twoStreams :
    (passingOn .audioOut).check = .ok () ∧
      ∀ l ∈ written (passingOn .audioOut).stages, (passingOn .audioOut).uses ⟨"out.mp4"⟩ l ≤ 1 := by
  have hcheck : (passingOn .audioOut).check = .ok () := by decide
  exact ⟨hcheck, (written_used_once_iff hcheck ⟨"out.mp4"⟩).1.mpr (by decide)⟩

/-- The picture is mapped twice when it is given as the sound too, and the check passes. -/
theorem picture_used_twice_as_sound :
    (passingOn .videoOut).check = .ok () ∧
      .signal ⟨.videoOut, none⟩ 0 ∈ written (passingOn .videoOut).stages ∧
      (passingOn .videoOut).uses ⟨"out.mp4"⟩ (.signal ⟨.videoOut, none⟩ 0) = 2 := by
  refine ⟨by decide, by decide, ?_⟩
  rw [uses_eq]
  decide

end Program

end Montage.Graph
