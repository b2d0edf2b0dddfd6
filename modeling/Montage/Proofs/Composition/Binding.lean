import Montage.Proofs.Compile.FileNames

/-!
# Putting uploads into their roles

Uploads are listed for their removal, bound into a composition and read back as its input files,
each time on a way of its own. The three agree: every upload is read in its role, and binding
changes sources only. Apart from sources that are missing, a check finds the same defect as before.
-/

namespace Montage

/-! ### Checks of named sources -/

namespace Composition

/-- The composition with one file for all its sources. -/
def allFrom (file : FilePath) (composition : Composition) : Composition :=
  { composition with
    clips := composition.clips.map fun clip ↦ { clip with source := file }
    music := composition.music.map fun music ↦ { music with source := file } }

theorem allFrom_unnamed (file : FilePath) (composition : Composition) :
    composition.unnamed.allFrom file = composition.allFrom file := by
  simp [allFrom, unnamed, Function.comp_def, Clip.unnamed, Music.unnamed]

/-- A list is checked like its image under a change that no check of an item takes notice of. -/
theorem checkEach_map {α : Type} {check : Nat → α → Except Defect Unit} {change : α → α}
    {items : List α} (h : ∀ item ∈ items, ∀ index, check index (change item) = check index item)
    (index : Nat) : checkEach check index (items.map change) = checkEach check index items := by
  induction items generalizing index with
  | nil => rfl
  | cons item rest ih =>
    have hitem := h item List.mem_cons_self index
    have hrest := ih (fun other ho ↦ h other (List.mem_cons_of_mem _ ho)) (index + 1)
    rw [List.map_cons, checkEach, checkEach, hitem, hrest]

/-- Which file a source is makes no difference to the check, if there is one. -/
theorem check_allFrom {file : FilePath} {composition : Composition}
    (hfile : file.isEmpty = false)
    (h : ∀ path ∈ composition.inputPaths, path.isEmpty = false) :
    (composition.allFrom file).check = composition.check := by
  obtain ⟨hclips, hmusic⟩ := List.forall_mem_append.mp h
  have heach : checkEach checkClip 0 (composition.allFrom file).clips =
      checkEach checkClip 0 composition.clips := by
    apply checkEach_map
    intro clip hc index
    rw [checkClip, checkClip, hfile, hclips _ (List.mem_map_of_mem hc)]
  have htotal : (composition.allFrom file).totalDuration = composition.totalDuration := by
    simp [totalDuration, durations, allFrom, Function.comp_def]
  have hcount : (composition.allFrom file).clips.length = composition.clips.length :=
    List.length_map _
  have hempty : (composition.allFrom file).clips.isEmpty = composition.clips.isEmpty :=
    List.isEmpty_map
  have hsound : (composition.allFrom file).music.forM checkMusic =
      composition.music.forM checkMusic := by
    cases hm : composition.music with
    | none => rw [allFrom, hm]; rfl
    | some music =>
      rw [hm] at hmusic
      have hsource : music.source.isEmpty = false := hmusic _ (List.mem_singleton.mpr rfl)
      rw [allFrom, hm]
      show checkMusic _ = checkMusic music
      rw [checkMusic, checkMusic, hfile, hsource]
  rw [check, check, heach, htotal, hcount, hempty, hsound]
  rfl

/-- Compositions that differ in the names of their files, all of which are there, have the same
defects. -/
theorem check_eq_of_unnamed_eq {composition other : Composition}
    (hsame : composition.unnamed = other.unnamed)
    (h : ∀ path ∈ composition.inputPaths, path.isEmpty = false)
    (ho : ∀ path ∈ other.inputPaths, path.isEmpty = false) : composition.check = other.check := by
  have hfile : FilePath.isEmpty ⟨"-"⟩ = false := by decide
  calc composition.check
    _ = (composition.unnamed.allFrom ⟨"-"⟩).check := by
      rw [allFrom_unnamed, check_allFrom hfile h]
    _ = (other.unnamed.allFrom ⟨"-"⟩).check := by rw [hsame]
    _ = other.check := by rw [allFrom_unnamed, check_allFrom hfile ho]

end Composition

/-! ### Binding -/

namespace RenderRequest

variable {request : RenderRequest} {bound : Composition}

/-- Clips are bound to no files, or each to one. -/
theorem bindClips_eq_ok_iff {clips bound : List Clip} {files : List FilePath} :
    bindClips clips files = .ok bound ↔ files = [] ∧ bound = clips ∨
      files ≠ [] ∧ files.length = clips.length ∧
        bound = clips.zipWith (fun clip file ↦ { clip with source := file }) files := by
  unfold bindClips
  by_cases hf : files = []
  · simp [hf, eq_comm]
  · rw [if_neg (fun hempty ↦ hf (List.isEmpty_iff.mp hempty))]
    by_cases hl : files.length = clips.length
    · rw [if_neg (not_not.mpr hl), Except.ok.injEq, eq_comm]
      simp [hf, hl]
    · simp [hf, hl]

/-- Music is bound to no file, or to one if there are settings for it. -/
theorem bindMusic_eq_ok_iff {music bound : Option Music} {file : Option FilePath} :
    bindMusic music file = .ok bound ↔ file = none ∧ bound = music ∨
      ∃ path settings, file = some path ∧ music = some settings ∧
        bound = some { settings with source := path } := by
  cases file <;> cases music <;> simp [bindMusic, eq_comm]

theorem bound_eq_ok_iff : request.bound = .ok bound ↔ ∃ clips music,
    bindClips request.composition.clips request.clipFiles = .ok clips ∧
      bindMusic request.composition.music request.musicFile = .ok music ∧
      bound = { request.composition with clips, music } := by
  constructor
  · intro h
    obtain ⟨clips, hclips, h⟩ := exists_of_bind_eq_ok h
    obtain ⟨music, hmusic, h⟩ := exists_of_bind_eq_ok h
    exact ⟨clips, music, hclips, hmusic, (Except.ok.inj h).symm⟩
  · rintro ⟨clips, music, hclips, hmusic, rfl⟩
    unfold RenderRequest.bound
    rw [hclips, hmusic]
    rfl

/-- Uploads can be bound if there are none for the clips or one for each, and none for the music
unless there are settings for it. -/
theorem exists_bound_iff : (∃ bound, request.bound = .ok bound) ↔
    (request.clipFiles = [] ∨ request.clipFiles.length = request.composition.clips.length) ∧
      (request.musicFile = none ∨ request.composition.music.isSome = true) := by
  have hclips : (∃ clips, bindClips request.composition.clips request.clipFiles = .ok clips) ↔
      request.clipFiles = [] ∨ request.clipFiles.length = request.composition.clips.length := by
    by_cases hf : request.clipFiles = [] <;> simp [bindClips_eq_ok_iff, hf]
  have hmusic : (∃ music, bindMusic request.composition.music request.musicFile = .ok music) ↔
      request.musicFile = none ∨ request.composition.music.isSome = true := by
    cases request.musicFile <;> simp [bindMusic_eq_ok_iff, Option.isSome_iff_exists]
  rw [← hclips, ← hmusic]
  constructor
  · rintro ⟨bound, h⟩
    obtain ⟨clips, music, hc, hm, -⟩ := bound_eq_ok_iff.mp h
    exact ⟨⟨clips, hc⟩, ⟨music, hm⟩⟩
  · rintro ⟨⟨clips, hc⟩, ⟨music, hm⟩⟩
    exact ⟨_, bound_eq_ok_iff.mpr ⟨clips, music, hc, hm, rfl⟩⟩

/-- What binding comes to. Nothing but the names of files has changed; the clips have their uploads
in order if there are any, and the music has its own. -/
structure Binds (request : RenderRequest) (bound : Composition) : Prop where
  unnamed : bound.unnamed = request.composition.unnamed
  clips : bound.clips.map (·.source) =
    if request.clipFiles = [] then request.composition.clips.map (·.source) else request.clipFiles
  music : bound.music.map (·.source) =
    (request.musicFile <|> request.composition.music.map (·.source))

theorem binds_of_bound (h : request.bound = .ok bound) : request.Binds bound where
  unnamed := unnamed_of_bound h
  clips := by
    obtain ⟨clips, music, hclips, -, rfl⟩ := bound_eq_ok_iff.mp h
    rcases bindClips_eq_ok_iff.mp hclips with ⟨hnone, rfl⟩ | ⟨hsome, hlength, rfl⟩
    · rw [if_pos hnone]
    · calc (request.composition.clips.zipWith (fun clip file ↦ { clip with source := file })
            request.clipFiles).map (·.source)
        _ = (request.composition.clips.zip request.clipFiles).map Prod.snd := by
          rw [List.map_zipWith, List.map_zip_eq_zipWith]
          rfl
        _ = request.clipFiles := List.map_snd_zip hlength.le
        _ = _ := (if_neg hsome).symm
  music := by
    obtain ⟨clips, music, -, hmusic, rfl⟩ := bound_eq_ok_iff.mp h
    rcases bindMusic_eq_ok_iff.mp hmusic with ⟨hnone, rfl⟩ | ⟨path, settings, hfile, -, rfl⟩
    · rw [hnone]
      rfl
    · rw [hfile]
      rfl

/-- The place among the input files that an upload is for: that of its clip, or behind all clips for
the music. -/
def role (request : RenderRequest) (index : Nat) : Nat :=
  if index < request.clipFiles.length then index else request.composition.clips.length

namespace Binds

theorem length_clips (h : request.Binds bound) :
    bound.clips.length = request.composition.clips.length := by
  have hlength := congrArg (fun composition : Composition ↦ composition.clips.length) h.unnamed
  simpa [Composition.unnamed] using hlength

/-- Every upload is read in its role. -/
theorem inputPaths_role (h : request.Binds bound) {index : Nat} {path : FilePath}
    (hu : request.uploads[index]? = some path) :
    bound.inputPaths[request.role index]? = some path := by
  unfold role
  by_cases hi : index < request.clipFiles.length
  · have hsome : request.clipFiles ≠ [] := List.ne_nil_of_length_pos (Nat.zero_lt_of_lt hi)
    rw [uploads, List.getElem?_append_left hi] at hu
    rw [if_pos hi, Composition.inputPaths, h.clips, if_neg hsome, List.getElem?_append_left hi, hu]
  · rw [uploads, List.getElem?_append_right (Nat.le_of_not_lt hi)] at hu
    have hfile : request.musicFile = some path :=
      Option.mem_toList.mp (List.mem_of_getElem? hu)
    have hlength : (bound.clips.map (·.source)).length = request.composition.clips.length := by
      rw [List.length_map, h.length_clips]
    rw [if_neg hi, Composition.inputPaths, h.music, hfile,
      List.getElem?_append_right hlength.le, hlength, Nat.sub_self]
    rfl

/-- What is read is an upload, or was to be read before. -/
theorem mem_of_mem_inputPaths (h : request.Binds bound) {path : FilePath}
    (hp : path ∈ bound.inputPaths) : path ∈ request.composition.inputPaths ++ request.uploads := by
  simp only [Composition.inputPaths, h.clips, h.music, uploads, List.mem_append] at hp ⊢
  rcases hp with hclip | hmusic
  · split at hclip
    · exact Or.inl (Or.inl hclip)
    · exact Or.inr (Or.inl hclip)
  · cases hfile : request.musicFile with
    | none =>
      rw [hfile] at hmusic
      exact Or.inl (Or.inr hmusic)
    | some file =>
      rw [hfile] at hmusic
      exact Or.inr (Or.inr hmusic)

end Binds

/-- Binding succeeds exactly if the uploads fit their roles. It changes nothing but the names of
files, and these as `Binds` says. So every upload that is removed in the end is read, in its role;
and if no file is without a name, the check finds the defect that it finds before binding. -/
theorem bound_in_roles (request : RenderRequest) :
    ((∃ bound, request.bound = .ok bound) ↔
      (request.clipFiles = [] ∨ request.clipFiles.length = request.composition.clips.length) ∧
        (request.musicFile = none ∨ request.composition.music.isSome = true)) ∧
    ∀ bound, request.bound = .ok bound →
      request.Binds bound ∧
      (∀ index path, request.uploads[index]? = some path →
        bound.inputPaths[request.role index]? = some path) ∧
      ((∀ path ∈ request.composition.inputPaths ++ request.uploads, path.isEmpty = false) →
        bound.check = request.composition.check) := by
  refine ⟨exists_bound_iff, fun bound h ↦ ?_⟩
  have hbinds := binds_of_bound h
  refine ⟨hbinds, fun index path ↦ hbinds.inputPaths_role, fun hnamed ↦ ?_⟩
  apply Composition.check_eq_of_unnamed_eq hbinds.unnamed
  · intro path hp
    exact hnamed path (hbinds.mem_of_mem_inputPaths hp)
  · intro path hp
    exact hnamed path (List.mem_append_left _ hp)

/-- Two clips with music, and an upload for each of the three. -/
def threeUploads : RenderRequest where
  composition :=
    { clips := [⟨⟨"a.mp4"⟩, 0, 4⟩, ⟨⟨"b.mp4"⟩, 1, 6⟩]
      music := some { source := ⟨"c.mp3"⟩, fadeIn := true } }
  clipFiles := [⟨"x.mp4"⟩, ⟨"y.mp4"⟩]
  musicFile := some ⟨"z.mp3"⟩

/-- The music of the composition gets the last upload, which is read last. -/
theorem bound_in_roles_threeUploads : ∃ bound, threeUploads.bound = .ok bound ∧
    threeUploads.Binds bound ∧ bound.inputPaths[2]? = some ⟨"z.mp3"⟩ ∧
    bound.check = threeUploads.composition.check := by
  obtain ⟨hsucceeds, hbound⟩ := bound_in_roles threeUploads
  obtain ⟨bound, h⟩ := hsucceeds.mpr ⟨Or.inr rfl, Or.inr rfl⟩
  obtain ⟨hbinds, hroles, hcheck⟩ := hbound bound h
  exact ⟨bound, h, hbinds, hroles 2 ⟨"z.mp3"⟩ rfl, hcheck (by decide)⟩

end RenderRequest

end Montage
