import Montage.Proofs.Compile.Spelling

/-!
# Compiled programs are read as they are

Every value that a builder writes is bare, or quoted with its specials protected. So the engine
reads from the text of a compiled program exactly its stages, labels, filters and options, whatever
the texts, fonts and paths of the composition hold.
-/

namespace Montage

open Montage.Graph

/-- Every stage of a program of fitting parts is readable. -/
theorem Parts.Fit.readable {fonts : FontResolver} {composition : Composition} {parts : Parts}
    (h : parts.Fit fonts composition) (hn : composition.clips ≠ []) :
    ∀ stage ∈ (parts.program composition).stages, stage.Readable := fun stage hs ↦
  (h.spelled hn (Composition.spelledIn_ofSizes fun _ _ _ _ ↦ trivial) stage hs).readable

/-- The text of a compiled program is read back as the stages, labels, filters and option keys of
the program, whatever the composition and its fonts hold. -/
theorem outlines_filterGraph_of_compile {fonts : FontResolver} {composition : Composition}
    {program : Program} (h : composition.compile fonts = .ok program) :
    Reader.outlines program.filterGraph = some (program.stages.map (·.outline)) := by
  obtain ⟨ha, parts, hfit, rfl⟩ := Composition.exists_parts_of_compile h
  exact Program.outlines_filterGraph (by simp [Parts.program]) (hfit.readable ha.clips_ne_nil)

/-- A clip whose texts and font family are full of what the engine gives a meaning to. -/
def specials : Composition where
  clips := [⟨⟨"a.mp4"⟩, 0, 4⟩]
  transition := some ⟨"x';[a]", 0.5⟩
  title := some { text := "it's; [v] \\", style := { fontFamily := "O'Neil, Sans:x=1" } }
  captions := [{ clipIndex := 0, text := "a:b='c'\\'\n[0:v];null" }]

theorem outlines_filterGraph_of_compile_specials :
    ∃ program, specials.compile (fun _ bold ↦ if bold then some ⟨"/it's:[b].ttf"⟩ else none) =
        .ok program ∧
      Reader.outlines program.filterGraph = some (program.stages.map (·.outline)) := by
  have ha : specials.Accepted := Composition.accepted_of_toOption (by decide +kernel)
  obtain ⟨parts, -, h⟩ := ha.compile_eq_ok (by decide) _
  exact ⟨_, h, outlines_filterGraph_of_compile h⟩

end Montage
