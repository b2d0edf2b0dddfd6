import Montage.Proofs.Compile.Readability
import Montage.Proofs.Decoration.Texts

/-!
# The texts of a composition

What the engine reads as the texts of a compiled graph: the texts of the layers, in order, each as
it was meant. Quotes are gone when the options are read, so white space at the ends of a text is
lost.
-/

namespace Montage

open Montage.Graph
open Montage.Decoration (Wording)

/-- The texts of the layers, in the order in which they are drawn. -/
def Composition.wordings (composition : Composition) : List Wording :=
  composition.layers.flatMap (·.wordings composition.clips.length)

private theorem flatMap_drawnTexts_eq_nil {stages : List Stage}
    (h : ∀ stage ∈ stages, stage.DrawsNoText) :
    stages.flatMap (·.reading.drawnTexts) = [] :=
  List.flatMap_eq_nil_iff.mpr fun stage hs ↦ (h stage hs).drawnTexts_reading

/-- From the graph of a program of fitting parts the texts of the layers are read. -/
theorem Parts.Fit.drawnTexts_filterGraph {fonts : FontResolver} {composition : Composition}
    {parts : Parts} (h : parts.Fit fonts composition) (hn : composition.clips ≠ []) :
    Reader.drawnTexts (parts.program composition).filterGraph =
      some (composition.wordings.map fun wording ↦ some wording.shown) := by
  have hsize : (composition.scene fonts).timeline.size = composition.clips.length :=
    Composition.Accepted.size_timeline composition
  obtain ⟨before, after, hstages, hbefore, hafter⟩ := h.exists_stages_eq
  obtain ⟨drawn, hdrawn, hdecorated, -⟩ := h.draws
  have htexts := Decoration.drawnTexts_of_forall₂ hdrawn
  rw [hsize, ← hdecorated] at htexts
  rw [Reader.drawnTexts, Program.readings_filterGraph (by simp [Parts.program]) (h.readable hn),
    Option.map_some, List.flatMap_map, hstages, List.flatMap_append, List.flatMap_append,
    flatMap_drawnTexts_eq_nil hbefore, flatMap_drawnTexts_eq_nil hafter, List.nil_append,
    List.append_nil, htexts]
  rfl

/-- An accepted composition is compiled unless its badges have no place, and the texts read from its
graph are those of its layers. A text without backslashes is read without the white space at its
ends, so exactly the texts that have none there are read character for character. -/
theorem drawnTexts_of_check {composition : Composition} (h : composition.check = .ok ())
    (fonts : FontResolver) :
    (composition.BadgesInRange → ∃ program, composition.compile fonts = .ok program) ∧
      (∀ program, composition.compile fonts = .ok program →
        Reader.drawnTexts program.filterGraph =
          some (composition.wordings.map fun wording ↦ some wording.shown)) ∧
      ∀ wording ∈ composition.wordings, '\\' ∉ wording.text.toList →
        wording.shown = String.ofList (Reader.trimmed wording.text.toList) ∧
        (wording.shown = wording.text ↔ Reader.Tight wording.text.toList) := by
  refine ⟨Composition.exists_program_of_check h fonts, fun program hp ↦ ?_, fun wording _ hb ↦ ?_⟩
  · obtain ⟨ha, parts, hfit, rfl⟩ := Composition.exists_parts_of_compile hp
    exact hfit.drawnTexts_filterGraph ha.clips_ne_nil
  · have hshown : wording.shown = String.ofList (Reader.trimmed wording.text.toList) :=
      wording.escaper.shown_of_notMem hb
    refine ⟨hshown, ?_⟩
    rw [hshown, ← trimmed_eq_self_iff, ← String.toList_inj, String.toList_ofList]

theorem drawnTexts_of_check_decoratedClips :
    ∃ program, decoratedClips.compile FontResolver.byName = .ok program ∧
      Reader.drawnTexts program.filterGraph =
        some [some "last", some "first", some "live", some "LOGO", some "Best of", some "3",
          some "2", some "1"] := by
  have hcheck : decoratedClips.check = .ok () := (Composition.check_eq_ok_iff _).mpr
    (Composition.accepted_of_toOption (by decide +kernel))
  obtain ⟨hcompiles, htexts, -⟩ := drawnTexts_of_check hcheck FontResolver.byName
  obtain ⟨program, hp⟩ := hcompiles (by decide +kernel)
  have hshown : (decoratedClips.wordings.map fun wording ↦ some wording.shown) =
      [some "last", some "first", some "live", some "LOGO", some "Best of", some "3",
        some "2", some "1"] := by decide +kernel
  exact ⟨program, hp, (htexts program hp).trans (congrArg some hshown)⟩

/-- A clip with a caption that begins with a space. -/
def indentedCaption : Composition where
  clips := [⟨⟨"a.mp4"⟩, 0, 4⟩]
  captions := [{ clipIndex := 0, text := " hi" }]

/-- The space at its start is lost. -/
theorem drawnTexts_indentedCaption :
    indentedCaption.check = .ok () ∧
      ∃ program, indentedCaption.compile FontResolver.byName = .ok program ∧
        Reader.drawnTexts program.filterGraph = some [some "hi"] := by
  have ha : indentedCaption.Accepted := Composition.accepted_of_toOption (by decide +kernel)
  obtain ⟨parts, hfit, hp⟩ := ha.compile_eq_ok (by decide) FontResolver.byName
  have hshown : (indentedCaption.wordings.map fun wording ↦ some wording.shown) =
      [some "hi"] := by decide +kernel
  exact ⟨(Composition.check_eq_ok_iff _).mpr ha, _, hp,
    (hfit.drawnTexts_filterGraph ha.clips_ne_nil).trans (congrArg some hshown)⟩

end Montage
