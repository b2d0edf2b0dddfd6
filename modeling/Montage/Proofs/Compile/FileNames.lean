import Montage.Proofs.Compile.DrawingOrder
import Montage.Proofs.Compile.Likeness
import Montage.RenderRequest

/-!
# Names of files and fonts

What the names of the files and the installed fonts leave in a program: the paths of its input
files, and one option of each text that it draws. So uploads may be put into their roles before a
composition is compiled or after.
-/

namespace Montage

open Montage.Graph

/-! ### Erasing names -/

/-- The clip without the name of its file. -/
def Clip.unnamed (clip : Clip) : Clip := { clip with source := ⟨""⟩ }

/-- The music without the name of its file. -/
def Music.unnamed (music : Music) : Music := { music with source := ⟨""⟩ }

/-- The composition without the names of its files. -/
def Composition.unnamed (composition : Composition) : Composition :=
  { composition with
    clips := composition.clips.map (·.unnamed)
    music := composition.music.map (·.unnamed) }

/-- The input file with another path. -/
def Graph.InputFile.withPath (input : InputFile) (path : FilePath) : InputFile :=
  { input with path }

namespace Graph.Program

/-- The program without the names of its files. -/
def unnamed (program : Program) : Program :=
  { program with inputs := program.inputs.map (·.withPath ⟨""⟩) }

/-- The program with these paths in place of those of its files. -/
def withPaths (program : Program) (paths : List FilePath) : Program :=
  { program with inputs := program.inputs.zipWith InputFile.withPath paths }

/-- The program without the options that choose the fonts of its texts. -/
def eraseFonts (program : Program) : Program :=
  { program with stages := program.stages.map (·.mapFilters Filter.eraseFont) }

/-- Programs that differ in the names of their files differ in nothing else. -/
theorem withPaths_of_unnamed_eq {program other : Program} (h : program.unnamed = other.unnamed) :
    program.withPaths (other.inputs.map (·.path)) = other := by
  obtain ⟨hinputs, hstages, hvideo, haudio, hencoding, htotal⟩ := Program.mk.inj h
  have hpaths : program.inputs.zipWith InputFile.withPath (other.inputs.map (·.path)) =
      other.inputs := by
    calc program.inputs.zipWith InputFile.withPath (other.inputs.map (·.path))
      _ = (program.inputs.map (·.withPath ⟨""⟩)).zipWith InputFile.withPath
          (other.inputs.map (·.path)) := by rw [List.zipWith_map_left]; rfl
      _ = (other.inputs.map (·.withPath ⟨""⟩)).zipWith InputFile.withPath
          (other.inputs.map (·.path)) := by rw [hinputs]
      _ = other.inputs := by
        rw [List.zipWith_map, List.zipWith_self]
        exact List.map_id _
  rw [withPaths, hpaths, hstages, hvideo, haudio, hencoding, htotal]

end Graph.Program

namespace Composition

/-- The names of files have nothing to do with the place of badges. -/
theorem BadgesInRange.of_unnamed_eq {composition other : Composition}
    (h : composition.BadgesInRange) (hsame : composition.unnamed = other.unnamed) :
    other.BadgesInRange := by
  have hunnamed : composition.unnamed.BadgesInRange := h
  rw [hsame] at hunnamed
  exact hunnamed

theorem durations_unnamed (composition : Composition) :
    composition.unnamed.durations = composition.durations := List.map_map

theorem timeline_unnamed (composition : Composition) :
    composition.unnamed.timeline = composition.timeline := by
  rw [timeline, durations_unnamed, timeline]

theorem scene_unnamed (fonts : FontResolver) (composition : Composition) :
    composition.unnamed.scene fonts = composition.scene fonts := by
  rw [scene, timeline_unnamed, scene]
  rfl

end Composition

theorem placedFragments_unnamed (canvas : Canvas) (index : Nat) (clips : List Clip) :
    placedFragments canvas index (clips.map (·.unnamed)) = placedFragments canvas index clips := by
  induction clips generalizing index with
  | nil => rfl
  | cons clip rest ih =>
    rw [List.map_cons, placedFragments_cons, placedFragments_cons, ih]
    rfl

namespace Parts

variable {fonts : FontResolver} {composition other : Composition} {parts parts' : Parts}

/-- The parts take no notice of the names of the files. -/
theorem Fit.unnamed (h : parts.Fit fonts composition) : parts.Fit fonts composition.unnamed where
  background := h.background
  joined := by
    have hlabels : placedLabels 1 composition.unnamed.clips.tail =
        placedLabels 1 composition.clips.tail := by
      simp [Composition.unnamed, placedLabels]
    rw [Composition.timeline_unnamed, hlabels]
    exact h.joined
  captions := composition.scene_unnamed fonts ▸ h.captions
  overlays := composition.scene_unnamed fonts ▸ h.overlays
  title := composition.scene_unnamed fonts ▸ h.title
  badges := composition.scene_unnamed fonts ▸ h.badges

/-- The names of its files are in the paths of a program and nowhere else. -/
theorem program_unnamed (parts : Parts) (composition : Composition) :
    parts.program composition.unnamed = (parts.program composition).unnamed := by
  have hlength : composition.unnamed.clips.length = composition.clips.length := List.length_map _
  have hsound : composition.unnamed.soundtrack = composition.soundtrack := by
    rw [Composition.soundtrack, hlength, Composition.timeline_unnamed, Composition.soundtrack]
    exact Option.map_map ..
  have hplaced : placedFragments (composition.unnamed.canvas parts.background) 0
      composition.unnamed.clips =
        placedFragments (composition.canvas parts.background) 0 composition.clips :=
    placedFragments_unnamed _ 0 composition.clips
  have hinputs : (parts.program composition.unnamed).inputs =
      (parts.program composition).inputs.map (·.withPath ⟨""⟩) := by
    cases hm : composition.music <;>
      simp [program, Composition.unnamed, hm, Clip.unnamed, Music.unnamed,
        Soundtrack.musicInput, InputFile.withPath]
  rw [Program.unnamed, ← hinputs, program, hplaced, hsound, Composition.timeline_unnamed]
  rfl

theorem path_inputs (parts : Parts) (composition : Composition) :
    (parts.program composition).inputs.map (·.path) = composition.inputPaths := by
  unfold program Composition.inputPaths
  cases composition.music <;> simp [Soundtrack.musicInput, Function.comp_def]

/-- Parts that are alike without their fonts make programs that are. -/
theorem eraseFonts_program
    (h : parts.mapFilters Filter.eraseFont = parts'.mapFilters Filter.eraseFont) :
    (parts.program composition).eraseFonts = (parts'.program composition).eraseFonts := by
  obtain ⟨hbackground, hjoined, hcaptions, hoverlays, htitle, hbadges⟩ := Parts.mk.inj h
  obtain ⟨hjoined, -⟩ := Fragment.mk.inj hjoined
  obtain ⟨hcaptions, -⟩ := Fragment.mk.inj hcaptions
  obtain ⟨hoverlays, -⟩ := Fragment.mk.inj hoverlays
  obtain ⟨htitle, -⟩ := Fragment.mk.inj htitle
  obtain ⟨hbadges, hlast⟩ := Fragment.mk.inj hbadges
  simp only [Program.eraseFonts, program, List.map_append, hbackground, hjoined, hcaptions,
    hoverlays, htitle, hbadges, hlast]

end Parts

/-! ### Fonts in place -/

/-- Every text that a program of fitting parts draws has its font in place. -/
theorem Parts.Fit.fontsInPlace {fonts : FontResolver} {composition : Composition} {parts : Parts}
    (h : parts.Fit fonts composition) :
    ∀ stage ∈ (parts.program composition).stages, stage.FontsInPlace := by
  have hcaptions := Fragment.Threads.forall_stages (fun hc ↦ hc.fontsInPlace) h.captions
  have hoverlays := Fragment.Threads.forall_stages (fun ho ↦ ho.fontsInPlace) h.overlays
  have hdecorated : ∀ stage ∈ parts.decorated.stages, stage.FontsInPlace := by
    simp only [Parts.decorated, List.forall_mem_append]
    exact ⟨⟨⟨hcaptions, hoverlays⟩, h.title.fontsInPlace⟩, h.badges.fontsInPlace⟩
  obtain ⟨before, after, hstages, hbefore, hafter⟩ := h.exists_stages_eq
  rw [hstages]
  exact List.forall_mem_append.mpr ⟨List.forall_mem_append.mpr
    ⟨fun stage hs ↦ (hbefore stage hs).fontsInPlace, hdecorated⟩,
    fun stage hs ↦ (hafter stage hs).fontsInPlace⟩

/-! ### Uploads -/

namespace RenderRequest

private theorem map_unnamed_of_bindClips {clips bound : List Clip} {files : List FilePath}
    (h : bindClips clips files = .ok bound) : bound.map (·.unnamed) = clips.map (·.unnamed) := by
  unfold bindClips at h
  split at h
  · rw [Except.ok.inj h]
  · split at h
    · cases h
    · next hlength =>
      obtain rfl := Except.ok.inj h
      have hle : clips.length ≤ files.length := (not_not.mp hlength).ge
      calc (clips.zipWith (fun clip file ↦ { clip with source := file }) files).map (·.unnamed)
        _ = (clips.zip files).map fun p ↦ p.1.unnamed := by
          rw [List.map_zipWith, List.map_zip_eq_zipWith]
          rfl
        _ = ((clips.zip files).map Prod.fst).map (·.unnamed) := by
          rw [List.map_map]
          rfl
        _ = clips.map (·.unnamed) := by rw [List.map_fst_zip hle]

private theorem map_unnamed_of_bindMusic {music bound : Option Music} {file : Option FilePath}
    (h : bindMusic music file = .ok bound) : bound.map (·.unnamed) = music.map (·.unnamed) := by
  unfold bindMusic at h
  split at h
  · rw [Except.ok.inj h]
  · obtain rfl := Except.ok.inj h
    rfl
  · cases h

/-- Putting uploads into their roles changes the names of files and nothing else. -/
theorem unnamed_of_bound {request : RenderRequest} {bound : Composition}
    (h : request.bound = .ok bound) : bound.unnamed = request.composition.unnamed := by
  obtain ⟨clips, hclips, h⟩ := exists_of_bind_eq_ok h
  obtain ⟨music, hmusic, h⟩ := exists_of_bind_eq_ok h
  obtain rfl := Except.ok.inj h
  rw [Composition.unnamed, map_unnamed_of_bindClips hclips, map_unnamed_of_bindMusic hmusic]
  rfl

end RenderRequest

/-- Accepted compositions that differ in the names of their files compile, unless their badges have
no place, with any fonts to programs that are the same but for the paths of the input files and the
fonts of the texts; and each text has its font in the same one of its options. So it makes no
difference whether uploads are put into their roles before compiling or after. -/
theorem compile_unnamed :
    (∀ (composition other : Composition) (fonts otherFonts : FontResolver),
      composition.check = .ok () → other.check = .ok () → composition.unnamed = other.unnamed →
      (composition.BadgesInRange → ∃ program, composition.compile fonts = .ok program) ∧
      ∀ program, composition.compile fonts = .ok program →
        ∃ otherProgram, other.compile otherFonts = .ok otherProgram ∧
          program.unnamed.eraseFonts = otherProgram.unnamed.eraseFonts ∧
          (∀ stage ∈ program.stages, stage.FontsInPlace) ∧
          ∀ stage ∈ otherProgram.stages, stage.FontsInPlace) ∧
    ∀ (request : RenderRequest) (bound : Composition) (fonts : FontResolver),
      request.bound = .ok bound → bound.check = .ok () → request.composition.check = .ok () →
      (request.composition.BadgesInRange →
        ∃ program, request.composition.compile fonts = .ok program) ∧
      ∀ program, request.composition.compile fonts = .ok program →
        program.inputs.length = bound.inputPaths.length ∧
          bound.compile fonts = .ok (program.withPaths bound.inputPaths) := by
  constructor
  · intro composition other fonts otherFonts h ho hsame
    refine ⟨Composition.exists_program_of_check h fonts, fun program hp ↦ ?_⟩
    obtain ⟨-, parts, hfit, rfl⟩ := Composition.exists_parts_of_compile hp
    have hr := Composition.badgesInRange_of_compile hp
    obtain ⟨parts', hfit', hp'⟩ :=
      ((Composition.check_eq_ok_iff other).mp ho).compile_eq_ok (hr.of_unnamed_eq hsame) otherFonts
    have halike : parts.mapFilters Filter.eraseFont = parts'.mapFilters Filter.eraseFont :=
      hfit.unnamed.alike (hsame ▸ hfit'.unnamed) (Decoration.ignoresFonts_eraseFont _ otherFonts)
    refine ⟨_, hp', ?_, hfit.fontsInPlace, hfit'.fontsInPlace⟩
    rw [← parts.program_unnamed, ← parts'.program_unnamed, ← hsame]
    exact Parts.eraseFonts_program halike
  · intro request bound fonts hb h hrequest
    refine ⟨Composition.exists_program_of_check hrequest fonts, fun program hp ↦ ?_⟩
    have hsame := RenderRequest.unnamed_of_bound hb
    obtain ⟨-, parts, hfit, rfl⟩ := Composition.exists_parts_of_compile hp
    have hr := Composition.badgesInRange_of_compile hp
    obtain ⟨parts', hfit', hp'⟩ :=
      ((Composition.check_eq_ok_iff bound).mp h).compile_eq_ok (hr.of_unnamed_eq hsame.symm) fonts
    obtain rfl := hfit.unnamed.unique (hsame ▸ hfit'.unnamed)
    have hunnamed :
        (parts.program request.composition).unnamed = (parts.program bound).unnamed := by
      rw [← parts.program_unnamed, ← parts.program_unnamed, hsame]
    have hlength := congrArg (fun program : Program ↦ program.inputs.length) hunnamed
    simp only [Program.unnamed, List.length_map] at hlength
    constructor
    · rw [hlength, ← parts.path_inputs, List.length_map]
    · rw [← parts.path_inputs bound, Program.withPaths_of_unnamed_eq hunnamed]
      exact hp'

/-- Three decorated clips with other files, and an upload for each of them. -/
theorem compile_unnamed_decoratedClips :
    let files := [⟨"x.mp4"⟩, ⟨"y.mp4"⟩, ⟨"z.mp4"⟩]
    let bound := { decoratedClips with
      clips := [⟨⟨"x.mp4"⟩, 0, 4⟩, ⟨⟨"y.mp4"⟩, 0, 6⟩, ⟨⟨"z.mp4"⟩, 0, 3⟩] }
    ∃ program otherProgram : Program,
      decoratedClips.compile FontResolver.byName = .ok program ∧
      bound.compile FontPlatform.linux.resolve = .ok otherProgram ∧
      program.unnamed.eraseFonts = otherProgram.unnamed.eraseFonts ∧
      (∀ stage ∈ program.stages, stage.FontsInPlace) ∧
      RenderRequest.bound { composition := decoratedClips, clipFiles := files } = .ok bound ∧
      bound.compile FontResolver.byName = .ok (program.withPaths files) := by
  intro files bound
  have hcheck : decoratedClips.check = .ok () := (Composition.check_eq_ok_iff _).mpr
    (Composition.accepted_of_toOption (by decide +kernel))
  have hbound : bound.check = .ok () := (Composition.check_eq_ok_iff _).mpr
    (Composition.accepted_of_toOption (by decide +kernel))
  obtain ⟨hcompiles, hunnamed⟩ := compile_unnamed.1 decoratedClips bound FontResolver.byName
    FontPlatform.linux.resolve hcheck hbound rfl
  obtain ⟨program, hp⟩ := hcompiles (by decide +kernel)
  obtain ⟨otherProgram, ho, hsame, hfonts, -⟩ := hunnamed program hp
  obtain ⟨-, huploaded⟩ := compile_unnamed.2 { composition := decoratedClips, clipFiles := files }
    bound FontResolver.byName rfl hbound hcheck
  exact ⟨program, otherProgram, hp, ho, hsame, hfonts, rfl, (huploaded program hp).2⟩

end Montage
