import Montage.Proofs.Compile.SplitLayout
import Montage.Proofs.Graph.Linear

/-!
# No dangling streams

Compiled programs are linear, and each of their input files is used: a composition reads the video
of each clip and the audio of its music, a split screen both videos and the sources that are heard.
-/

namespace Montage

open Montage.Numeric (Binary64)
open Montage.Graph

/-- Only pads belong to a file. -/
private theorem countP_input?_labelsRead (stages : List Stage) (file : Nat) :
    (labelsRead stages).countP (fun l ↦ l.input? == some file) =
      (padsRead stages).countP fun l ↦ l.input? == some file := by
  rw [padsRead_eq_filter, List.countP_filter]
  congr 1
  funext l
  cases l with
  | pad input track => simp [Label.isPad]
  | signal request copy => simp [Label.input?]

namespace Composition

theorem pads_nodup (composition : Composition) : composition.pads.Nodup := by
  have hv : ((List.range composition.clips.length).map Label.ofVideo).Nodup := by
    refine List.Nodup.map (fun i j h ↦ ?_) List.nodup_range
    exact (Label.pad.inj h).1
  refine List.Nodup.append hv ?_ ?_
  · cases composition.music <;> simp
  · intro l hl hm
    obtain ⟨i, -, rfl⟩ := List.mem_map.mp hl
    obtain ⟨music, -, h⟩ := Option.map_eq_some_iff.mp (Option.mem_toList.mp hm)
    cases h

/-- Every input file has one pad that is read. -/
private theorem countP_pads (composition : Composition) {file : Nat}
    (h : file < composition.clips.length + composition.music.toList.length) :
    composition.pads.countP (fun l ↦ l.input? == some file) = 1 := by
  have hv : ((List.range composition.clips.length).map Label.ofVideo).countP
      (fun l ↦ l.input? == some file) = (List.range composition.clips.length).count file := by
    rw [List.countP_map, List.count]
    rfl
  rw [pads, List.countP_append, hv]
  by_cases hf : file < composition.clips.length
  · rw [List.count_eq_one_of_mem List.nodup_range (List.mem_range.mpr hf)]
    have hne : composition.clips.length ≠ file := Nat.ne_of_gt hf
    cases composition.music <;> simp [Label.ofAudio, Label.input?, hne]
  · rw [List.count_eq_zero.mpr fun hm ↦ hf (List.mem_range.mp hm)]
    cases hm : composition.music with
    | none =>
      rw [hm] at h
      exact absurd h hf
    | some music =>
      rw [hm] at h
      have he : composition.clips.length = file := by
        simp only [Option.toList_some, List.length_singleton] at h
        omega
      simp [Label.ofAudio, Label.input?, he]

end Composition

private theorem Soundtrack.SourceAudio.isAudible_iff (source : SourceAudio) :
    source.isAudible = true ↔ source.hasAudio = true ∧ 0 < source.volume := by
  rw [isAudible, Bool.and_eq_true, decide_eq_true_eq]

private theorem SplitScreen.pads_nodup (screen : SplitScreen) (primary secondary : SourceInfo) :
    (screen.pads primary secondary).Nodup := by
  unfold SplitScreen.pads Soundtrack.audiblePads
  cases (screen.primaryAudio primary).isAudible <;>
    cases (screen.secondaryAudio secondary).isAudible <;> decide

/-- Compiled programs are linear. A composition reads each of its files in one stage, the clips
through their video and the music through its audio. A split screen reads both videos and the audio
of the sources that are heard. -/
theorem compile_linear :
    (∀ (fonts : FontResolver) (composition : Composition) (program : Program),
      composition.compile fonts = .ok program →
        program.Linear ∧
        program.inputs.map (·.path) = composition.inputPaths ∧
        padsRead program.stages = (List.range composition.clips.length).map .ofVideo ++
          (composition.music.map fun _ ↦ Label.ofAudio composition.clips.length).toList ∧
        ∀ file < program.inputs.length, program.stages.countP (·.readsFile file) = 1) ∧
    ∀ (screen : SplitScreen) (primary secondary : SourceInfo) (program : Program),
      screen.compile primary secondary = .ok program →
        program.Linear ∧
        program.inputs.map (·.path) = [screen.primary, screen.secondary] ∧
        padsRead program.stages = [.ofVideo 0, .ofVideo 1] ++
          ((if primary.hasAudio ∧ 0 < screen.primaryVolume then [.ofAudio 0] else []) ++
            (if secondary.hasAudio ∧ 0 < screen.secondaryVolume then [.ofAudio 1] else [])) := by
  refine ⟨fun fonts composition program h ↦ ?_, fun screen primary secondary program h ↦ ?_⟩
  · obtain ⟨ha, parts, hfit, rfl⟩ := Composition.exists_parts_of_compile h
    obtain ⟨requests, hs⟩ := hfit.segment ha.clips_ne_nil
    have hlinear := (hfit.wiring ha.clips_ne_nil).linear (hs.pads_eq ▸ composition.pads_nodup)
    refine ⟨hlinear, ?_, hs.pads_eq, fun file hf ↦ ?_⟩
    · cases hm : composition.music <;>
        simp [Parts.program, Composition.inputPaths, Soundtrack.musicInput, hm]
    · have hfile : file < composition.clips.length + composition.music.toList.length := by
        cases hm : composition.music <;> simpa [Parts.program, hm] using hf
      apply countP_any_inputs_of_countP
      rw [countP_input?_labelsRead, hs.pads_eq]
      exact composition.countP_pads hfile
  · obtain ⟨defect, -, he⟩ | ⟨-, he | ⟨background, -, hp⟩⟩ :=
      screen.compile_eq_or primary secondary
    · rw [he] at h
      cases h
    · rw [he] at h
      cases h
    · rw [hp] at h
      obtain rfl := Except.ok.inj h
      obtain ⟨requests, hs⟩ := screen.program_segment primary secondary background
        (primary.duration.min secondary.duration)
      have hlinear := (screen.program_wiring primary secondary background
        (primary.duration.min secondary.duration)).linear
          (hs.pads_eq ▸ screen.pads_nodup primary secondary)
      refine ⟨hlinear, rfl, ?_⟩
      rw [hs.pads_eq]
      simp only [SplitScreen.pads, Soundtrack.audiblePads, Soundtrack.SourceAudio.isAudible_iff,
        SplitScreen.primaryAudio, SplitScreen.secondaryAudio]

theorem compile_linear_threeClips :
    ∃ program, threeClips.compile (fun _ _ ↦ none) = .ok program ∧ program.Linear ∧
      program.stages.countP (·.readsFile 2) = 1 := by
  obtain ⟨parts, -, hp⟩ := accepted_threeClips.compile_eq_ok (by decide) fun _ _ ↦ none
  obtain ⟨hlinear, -, -, hfile⟩ := compile_linear.1 _ _ _ hp
  have hlen : (parts.program threeClips).inputs.length = 3 := rfl
  exact ⟨_, hp, hlinear, hfile 2 (by omega)⟩

end Montage
