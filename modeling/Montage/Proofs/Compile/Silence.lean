import Montage.Proofs.Compile.Files
import Montage.Proofs.Compile.Likeness
import Montage.Proofs.Compile.TotalLength

/-!
# Music and silence

A composition with music compiles to the program of the silent composition with a soundtrack put
in: one more input file, one more stage and one more output. Nothing else in the program can tell
that there is music, or which.
-/

namespace Montage

open Montage.Graph

/-- The composition without its music. -/
def Composition.silent (composition : Composition) : Composition :=
  { composition with music := none }

/-- The program is the silent one with this music put in. The music is the last input file. One
more stage stands right before the last one and turns it into the audio output, and no stage of the
silent program has a label of that stage. -/
structure Graph.Program.AddsMusic (program silent : Program) (music : Music) : Prop where
  inputs : program.inputs = silent.inputs ++ [Soundtrack.musicInput music]
  stages : ∃ before last sound output, silent.stages = before ++ [last] ∧
    program.stages = before ++ [sound, last] ∧ program.audioOut = some output ∧
    sound.inputs = [.ofAudio silent.inputs.length] ∧ sound.outputs = [output] ∧
    ∀ stage ∈ silent.stages, ∀ label ∈ sound.inputs ++ sound.outputs,
      label ∉ stage.inputs ++ stage.outputs
  videoOut : program.videoOut = silent.videoOut
  silence : silent.audioOut = none
  encoding : program.encoding = silent.encoding
  totalDuration : program.totalDuration = silent.totalDuration

namespace Composition

theorem Accepted.silent {composition : Composition} (h : composition.Accepted) :
    composition.silent.Accepted := by
  refine { h with music := ?_ }
  rintro music ⟨⟩

end Composition

namespace Parts

variable {fonts : FontResolver} {composition : Composition} {parts : Parts} {music : Music}

/-- The parts take no notice of the music. -/
theorem Fit.silent (h : parts.Fit fonts composition) : parts.Fit fonts composition.silent :=
  ⟨h.background, h.joined, h.captions, h.overlays, h.title, h.badges⟩

/-- What the program of the parts has before the soundtrack. -/
def picture (parts : Parts) (composition : Composition) : List Stage :=
  (placedFragments (composition.canvas parts.background) 0 composition.clips).flatMap (·.stages) ++
    parts.joined.stages ++
    (parts.captions.stages ++ parts.overlays.stages ++ parts.title.stages ++ parts.badges.stages)

/-- The last stage of the program of the parts. -/
def formatStage (parts : Parts) : Stage :=
  .chain parts.badges.output [pixelFormatFilter] (.named .videoOut)

private theorem stages_silent (parts : Parts) (composition : Composition) :
    (parts.program composition.silent).stages =
      parts.picture composition ++ [parts.formatStage] := by
  have hnone : stagesOf composition.silent.soundtrack = [] := rfl
  rw [program, hnone, List.append_nil]
  rfl

private theorem stages_of_music (parts : Parts) (hm : composition.music = some music) :
    (parts.program composition).stages = parts.picture composition ++
      [Soundtrack.musicStage music composition.clips.length composition.timeline.totalDuration
        (.named .audioOut), parts.formatStage] := by
  have hsome : stagesOf composition.soundtrack = [Soundtrack.musicStage music
      composition.clips.length composition.timeline.totalDuration (.named .audioOut)] := by
    rw [Composition.soundtrack, hm]
    rfl
  rw [program, hsome, List.append_assoc]
  rfl

/-- No stage of the silent program has a label of the soundtrack. -/
private theorem Fit.apart (h : parts.Fit fonts composition) (hn : composition.clips ≠ [])
    (hm : composition.music = some music) :
    ∀ stage ∈ (parts.program composition.silent).stages,
      ∀ label ∈ [Label.ofAudio composition.clips.length, .named .audioOut],
        label ∉ stage.inputs ++ stage.outputs := by
  intro stage hs label hl
  rcases List.mem_pair.mp hl with rfl | rfl
  · intro hmem
    obtain ⟨hsome, -⟩ := (h.silent.exists_ofAudio_iff hn composition.clips.length).mp
      ⟨stage, hs, hmem⟩
    cases hsome
  · have hw := h.wiring hn
    have hout : Label.named .audioOut ∈ (parts.program composition).outs := by
      rw [Program.outs, program, Composition.soundtrack, hm]
      exact List.mem_cons_of_mem _ List.mem_cons_self
    rw [stages_silent, List.mem_append, List.mem_singleton] at hs
    have hstage : stage ∈ (parts.program composition).stages := by
      rw [parts.stages_of_music hm, List.mem_append]
      exact hs.imp_right fun heq ↦ List.mem_cons_of_mem _ (List.mem_singleton.mpr heq)
    rw [List.mem_append, not_or]
    constructor
    · intro hread
      exact hw.notMem_signals_of_mem_outs hstage hout (List.mem_filter.mpr ⟨hread, rfl⟩)
    · -- the soundtrack writes the audio output, and labels are written once
      have hnodup := hw.written_nodup
      rw [written, parts.stages_of_music hm, List.flatMap_append, List.flatMap_cons] at hnodup
      rcases hs with hs | rfl
      · intro hwritten
        exact (List.disjoint_of_nodup_append hnodup) (List.mem_flatMap.mpr ⟨stage, hs, hwritten⟩)
          (List.mem_append_left _ List.mem_cons_self)
      · intro hwritten
        cases List.mem_singleton.mp hwritten

/-- The program of fitting parts adds its music to the silent one. -/
theorem Fit.addsMusic (h : parts.Fit fonts composition) (hn : composition.clips ≠ [])
    (hm : composition.music = some music) :
    (parts.program composition).AddsMusic (parts.program composition.silent) music := by
  have hlength : (parts.program composition.silent).inputs.length = composition.clips.length := by
    simp [program, Composition.silent]
  constructor
  case inputs => simp [program, Composition.silent, hm]
  case stages =>
    refine ⟨_, _, _, _, parts.stages_silent composition, parts.stages_of_music hm, ?_, ?_, rfl,
      h.apart hn hm⟩
    · rw [program, Composition.soundtrack, hm]
      rfl
    · rw [hlength]
      rfl
  case videoOut => rfl
  case silence => rfl
  case encoding => rfl
  case totalDuration => rfl

end Parts

/-- An accepted composition with music is compiled unless its badges have no place. Its program is
that of the silent composition with its music put in, and so is that of every other composition that
is the same without music: none of the settings of the music reaches the picture. -/
theorem compile_addsMusic {composition : Composition} {music : Music}
    (h : composition.check = .ok ()) (hm : composition.music = some music)
    (fonts : FontResolver) :
    (composition.BadgesInRange → ∃ program, composition.compile fonts = .ok program) ∧
      ∀ program, composition.compile fonts = .ok program →
        ∃ silent, composition.silent.compile fonts = .ok silent ∧ program.AddsMusic silent music ∧
          ∀ (other : Composition) (score : Music), other.silent = composition.silent →
            other.music = some score → other.check = .ok () →
            ∃ scored, other.compile fonts = .ok scored ∧ scored.AddsMusic silent score := by
  refine ⟨Composition.exists_program_of_check h fonts, fun program hp ↦ ?_⟩
  obtain ⟨ha, parts, hfit, rfl⟩ := Composition.exists_parts_of_compile hp
  have hr := Composition.badgesInRange_of_compile hp
  have hsilent : composition.silent.BadgesInRange := hr
  obtain ⟨parts', hfit', hq⟩ := ha.silent.compile_eq_ok hsilent fonts
  obtain rfl := hfit.silent.unique hfit'
  refine ⟨_, hq, hfit.addsMusic ha.clips_ne_nil hm, fun other score hs hscore ho ↦ ?_⟩
  have hao := (Composition.check_eq_ok_iff other).mp ho
  have hro : other.silent.BadgesInRange := hs ▸ hsilent
  obtain ⟨scored, hscored, hcompiled⟩ := hao.compile_eq_ok hro fonts
  obtain rfl := (hs ▸ hscored.silent).unique hfit'
  exact ⟨_, hcompiled, hs ▸ hscored.addsMusic hao.clips_ne_nil hscore⟩

/-- With quieter music that fades out, the picture of the clips stays the same. -/
theorem compile_addsMusic_scoredClips :
    ∃ program silent quieter, scoredClips.compile (fun _ _ ↦ none) = .ok program ∧
      scoredClips.silent.compile (fun _ _ ↦ none) = .ok silent ∧
      program.AddsMusic silent ⟨⟨"song.mp3"⟩, 1, false, false⟩ ∧
      { scoredClips with music := some ⟨⟨"other.mp3"⟩, 0.25, false, true⟩ }.compile
        (fun _ _ ↦ none) = .ok quieter ∧
      quieter.AddsMusic silent ⟨⟨"other.mp3"⟩, 0.25, false, true⟩ := by
  have hcheck : scoredClips.check = .ok () := (Composition.check_eq_ok_iff scoredClips).mpr
    (Composition.accepted_of_toOption (by decide +kernel))
  obtain ⟨hcompiles, hadded⟩ := compile_addsMusic hcheck rfl fun _ _ ↦ none
  obtain ⟨program, hp⟩ := hcompiles (by decide)
  obtain ⟨silent, hs, hadds, hother⟩ := hadded program hp
  obtain ⟨quieter, hq, hquieter⟩ := hother
    { scoredClips with music := some ⟨⟨"other.mp3"⟩, 0.25, false, true⟩ } _ rfl rfl
    ((Composition.check_eq_ok_iff _).mpr (Composition.accepted_of_toOption (by decide +kernel)))
  exact ⟨program, silent, quieter, hp, hs, hadds, hq, hquieter⟩

end Montage
