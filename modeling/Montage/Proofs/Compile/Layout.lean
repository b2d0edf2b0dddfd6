import Montage.Proofs.Compile.Clips
import Montage.Proofs.Composition.Timeline
import Montage.Proofs.Decoration.Badges
import Montage.Proofs.Decoration.Drawing
import Montage.Proofs.Graph.WellFormed
import Montage.Proofs.Numeric.Order

/-!
# The layout of a program

Which program an accepted composition is compiled to, part by part. The parts are segments with
labels of their own, so the program they make is wired and passes its check.
-/

namespace Montage

open Montage.Numeric (Binary64)
open Montage.Graph

namespace Composition

/-- The timeline of the clips. -/
def timeline (composition : Composition) : Timeline :=
  ⟨Timeline.windowsOf 0 composition.durations⟩

/-- What the decorations are drawn on. -/
def scene (fonts : FontResolver) (composition : Composition) : Scene :=
  ⟨composition.quality.encoding.width, composition.quality.encoding.height, composition.timeline,
    fonts⟩

/-- The frame that the clips are placed on. -/
def canvas (composition : Composition) (background : String) : Canvas where
  width := composition.quality.encoding.width
  height := composition.quality.encoding.height
  area := Geometry.videoArea composition.videoHeightFraction composition.quality.encoding.height
  background

/-- The fragment that fits the music to the composition. -/
def soundtrack (composition : Composition) : Option Fragment :=
  composition.music.map fun music ↦
    .single (Soundtrack.musicStage music composition.clips.length
      composition.timeline.totalDuration (.named .audioOut)) (.named .audioOut)

end Composition

/-- The parts of a program that the pool and the colors take part in. -/
structure Parts where
  background : String
  joined : Fragment
  captions : Fragment
  overlays : Fragment
  title : Fragment
  badges : Fragment

namespace Parts

/-- The program made of the parts. -/
def program (parts : Parts) (composition : Composition) : Program where
  inputs := composition.clips.map (fun clip ↦ ⟨clip.source, []⟩) ++
    (composition.music.map Soundtrack.musicInput).toList
  stages :=
    (placedFragments (composition.canvas parts.background) 0 composition.clips).flatMap
        (·.stages) ++ parts.joined.stages ++
      (parts.captions.stages ++ parts.overlays.stages ++ parts.title.stages ++
        parts.badges.stages) ++ stagesOf composition.soundtrack ++
      [.chain parts.badges.output [pixelFormatFilter] (.named .videoOut)]
  videoOut := .named .videoOut
  audioOut := composition.soundtrack.map (·.output)
  encoding := composition.quality.encoding
  totalDuration := composition.timeline.totalDuration

/-- What joins the clips is part of the program. -/
theorem mem_stages_of_mem_joined (parts : Parts) {composition : Composition} :
    ∀ stage ∈ parts.joined.stages, stage ∈ (parts.program composition).stages := by
  intro stage hs
  simp only [program, List.mem_append]
  exact Or.inl (Or.inl (Or.inl (Or.inr hs)))

/-- The parts are those of the composition, each starting from the result of the one before. -/
structure Fit (fonts : FontResolver) (composition : Composition) (parts : Parts) : Prop where
  background : engineColor composition.backgroundColor = .ok parts.background
  joined : ClipsJoined composition.transition composition.timeline (.numbered .placed 0)
    (placedLabels 1 composition.clips.tail) parts.joined
  captions : Fragment.Threads (Decoration.CaptionDrawn (composition.scene fonts)) 0
    composition.captions parts.joined.output parts.captions
  overlays : Fragment.Threads (Decoration.OverlayDrawn (composition.scene fonts)) 0
    composition.overlays parts.captions.output parts.overlays
  title : Decoration.TitleDrawn (composition.scene fonts) composition.title
    parts.overlays.output parts.title
  badges : Decoration.BadgesDrawn (composition.scene fonts) composition.ranking
    parts.title.output parts.badges

variable {fonts : FontResolver} {composition : Composition} {parts : Parts}

end Parts

namespace Composition

variable {x : Binary64}

theorem isNaN_of_isPositive (h : isPositive x = true) : x.isNaN = false :=
  Binary64.isNaN_of_isFinite (isPositive_iff.mp h).1

private theorem isNonNegative_of_isPositive (h : isPositive x = true) :
    isNonNegative x = true := by
  obtain ⟨hfinite, hpos⟩ := isPositive_iff.mp h
  rw [isNonNegative, Bool.and_eq_true, decide_eq_true_eq]
  exact ⟨hfinite, Binary64.le_of_lt hpos⟩

end Composition

theorem videoOut_yields {α : Type} (f : Label → α) :
    Builder.Yields (named .videoOut >>= fun videoOut ↦ pure (f videoOut))
      (requestsFor [.videoOut]) (f (.named .videoOut)) := by
  refine Builder.Yields.mono (Builder.Yields.bind_pure (Builder.yields_named .videoOut) f) ?_
  rintro r rfl
  exact List.mem_singleton.mpr rfl

namespace Composition.Accepted

variable {composition : Composition}

theorem duration_pos (h : composition.Accepted) :
    ∀ duration ∈ composition.durations, duration.isFinite = true ∧ 0 < duration := by
  intro duration hd
  obtain ⟨clip, hc, rfl⟩ := List.mem_map.mp hd
  exact isPositive_iff.mp (h.clips clip hc).duration

theorem ofDurations_eq_ok (h : composition.Accepted) :
    Timeline.ofDurations composition.durations = .ok composition.timeline := by
  apply Timeline.ofDurations_eq_ok
  intro duration hd
  obtain ⟨clip, hc, rfl⟩ := List.mem_map.mp hd
  exact isNonNegative_of_isPositive (h.clips clip hc).duration

theorem size_timeline (composition : Composition) :
    composition.timeline.size = composition.clips.length := by
  rw [timeline, Timeline.size, Timeline.length_windowsOf, durations, List.length_map]

/-- The decorations in front of the badges are drawn if the composition is accepted. -/
private theorem overlays_and_title_yield (h : composition.Accepted) (fonts : FontResolver)
    (input : Label) :
    ∃ captions overlays title : Fragment,
      ((Decoration.captions (composition.scene fonts) composition.captions input).Yields
          (requestsFor [.caption]) captions ∧
        (Decoration.overlays (composition.scene fonts) composition.overlays
          captions.output).Yields (requestsFor [.overlay, .overlaySource]) overlays ∧
        (Decoration.title (composition.scene fonts) composition.title overlays.output).Yields
          (requestsFor [.title]) title) ∧
      Fragment.Threads (Decoration.CaptionDrawn (composition.scene fonts)) 0
        composition.captions input captions ∧
      Fragment.Threads (Decoration.OverlayDrawn (composition.scene fonts)) 0
        composition.overlays captions.output overlays ∧
      Decoration.TitleDrawn (composition.scene fonts) composition.title overlays.output title := by
  have hcaptions : ∀ caption ∈ composition.captions,
      caption.Accepted (composition.scene fonts).timeline.size := by
    rw [scene, size_timeline]
    exact h.captions
  obtain ⟨captions, hcy, hc⟩ := Decoration.captions_yields _ hcaptions input
  obtain ⟨overlays, hoy, ho⟩ :=
    Decoration.overlays_yields (composition.scene fonts) h.overlays captions.output
  obtain ⟨title, hty, ht⟩ :=
    Decoration.title_yields (composition.scene fonts) h.title overlays.output
  exact ⟨captions, overlays, title, ⟨hcy, hoy, hty⟩, hc, ho, ht⟩

/-- The decorations of an accepted composition are drawn if its badges have a place. -/
private theorem decorate_yields (h : composition.Accepted) (hr : composition.BadgesInRange)
    (fonts : FontResolver) (input : Label) :
    ∃ captions overlays title badges : Fragment,
      (decorate (composition.scene fonts) composition input).Yields
        (requestsFor [.caption, .overlay, .overlaySource, .title, .badge])
        ⟨captions.stages ++ overlays.stages ++ title.stages ++ badges.stages, badges.output⟩ ∧
      Fragment.Threads (Decoration.CaptionDrawn (composition.scene fonts)) 0
        composition.captions input captions ∧
      Fragment.Threads (Decoration.OverlayDrawn (composition.scene fonts)) 0
        composition.overlays captions.output overlays ∧
      Decoration.TitleDrawn (composition.scene fonts) composition.title overlays.output title ∧
      Decoration.BadgesDrawn (composition.scene fonts) composition.ranking title.output badges := by
  obtain ⟨captions, overlays, title, ⟨hcy, hoy, hty⟩, hc, ho, ht⟩ :=
    h.overlays_and_title_yield fonts input
  have hplace : ∀ settings ∈ composition.ranking, settings.enabled = true →
      ∃ badge, Decoration.badgePlace (composition.scene fonts) settings = some badge :=
    fun settings hs he ↦ ((h.ranking settings hs).exists_badge_iff _).mpr (hr settings hs he)
  obtain ⟨badges, hby, hb⟩ := Decoration.badges_yields h.ranking hplace title.output
  refine ⟨captions, overlays, title, badges, ?_, hc, ho, ht, hb⟩
  unfold decorate
  have hbadges := hby.bind_pure fun badges ↦ Fragment.mk
    (captions.stages ++ overlays.stages ++ title.stages ++ badges.stages) badges.output
  exact hcy.bind_roles (hoy.bind_roles (hty.bind_roles hbadges (by decide)) (by decide))
    (by decide)

/-- Nothing is drawn where badges have no place. -/
private theorem decorate_halts (h : composition.Accepted) (hr : ¬ composition.BadgesInRange)
    (fonts : FontResolver) (input : Label) :
    (decorate (composition.scene fonts) composition input).Halts
      (requestsFor [.caption, .overlay, .overlaySource, .title]) .overflow := by
  obtain ⟨captions, overlays, title, ⟨hcy, hoy, hty⟩, -⟩ := h.overlays_and_title_yield fonts input
  unfold BadgesInRange at hr
  push Not at hr
  obtain ⟨settings, hs, he, hfar⟩ := hr
  have hplace : Decoration.badgePlace (composition.scene fonts) settings = none := by
    rw [Option.eq_none_iff_forall_ne_some]
    intro badge hb
    exact hfar (((h.ranking settings hs).exists_badge_iff _).mp ⟨badge, hb⟩)
  have hbadges := (Decoration.badges_halts hs he hplace title.output).bind fun badges ↦
    pure (Fragment.mk
      (captions.stages ++ overlays.stages ++ title.stages ++ badges.stages) badges.output)
  unfold decorate
  exact hcy.halts_roles (hoy.halts_roles (hty.halts_roles hbadges (by decide)) (by decide))
    (by decide)

private theorem soundtrack_yields (composition : Composition) :
    (musicFragment composition.music composition.clips.length
      composition.timeline.totalDuration).Yields (requestsFor [.audioOut])
      composition.soundtrack := by
  unfold Composition.soundtrack
  cases composition.music with
  | none => exact Builder.yields_pure _ _
  | some settings =>
    refine Builder.Yields.map (Builder.Yields.mono
      (Builder.Yields.bind_pure (Builder.yields_named .audioOut) _) ?_) _
    rintro r rfl
    exact List.mem_singleton.mpr rfl

private theorem placeAll_yields (canvas : Canvas) (clips : List Clip) :
    (placeClips canvas 0 clips).Yields (requestsFor [.clip, .canvas, .placed])
      (placedFragments canvas 0 clips) :=
  (placeClips_yields canvas 0 clips).mono (requestsFrom_subset (requestsOf_subset _) 0)

private theorem labels_placed (h : composition.Accepted) (background : String) :
    (placedFragments (composition.canvas background) 0 composition.clips).map (·.output) =
      .numbered .placed 0 :: placedLabels 1 composition.clips.tail := by
  obtain ⟨clip, rest, hclips⟩ := List.exists_cons_of_ne_nil h.clips_ne_nil
  rw [map_output_placedFragments, hclips]
  rfl

/-- The builder of an accepted composition whose badges have a place yields the program of fitting
parts. -/
theorem buildProgram_yields (h : composition.Accepted) (hr : composition.BadgesInRange)
    (fonts : FontResolver) :
    ∃ parts : Parts, parts.Fit fonts composition ∧ ∃ requests,
      (buildProgram fonts composition composition.timeline).Yields requests
        (parts.program composition) := by
  obtain ⟨background, hbackground⟩ := engineColor_eq_ok h.backgroundColor
  obtain ⟨joined, hjy, hj⟩ := joinClips_yields composition.transition composition.timeline
    (.numbered .placed 0) (placedLabels 1 composition.clips.tail)
  obtain ⟨captions, overlays, title, badges, hdy, hc, ho, ht, hb⟩ :=
    h.decorate_yields hr fonts joined.output
  refine ⟨⟨background, joined, captions, overlays, title, badges⟩,
    ⟨hbackground, hj, hc, ho, ht, hb⟩, ?_⟩
  unfold buildProgram
  apply Exists.intro
  apply Builder.Yields.lift_bind hbackground
  apply Builder.Yields.bind_roles
    (placeAll_yields (composition.canvas background) composition.clips)
  · rw [h.labels_placed]
    exact hjy.bind_roles (hdy.bind_roles ((soundtrack_yields composition).bind_roles
      (videoOut_yields _) (by decide)) (by decide)) (by decide)
  · decide

/-- The builder of an accepted composition with a badge that has no place halts. -/
theorem buildProgram_halts (h : composition.Accepted) (hr : ¬ composition.BadgesInRange)
    (fonts : FontResolver) :
    ∃ requests, (buildProgram fonts composition composition.timeline).Halts requests .overflow := by
  obtain ⟨background, hbackground⟩ := engineColor_eq_ok h.backgroundColor
  obtain ⟨joined, hjy, -⟩ := joinClips_yields composition.transition composition.timeline
    (.numbered .placed 0) (placedLabels 1 composition.clips.tail)
  unfold buildProgram
  apply Exists.intro
  apply Builder.Halts.lift_bind hbackground
  apply Builder.Yields.halts_roles
    (placeAll_yields (composition.canvas background) composition.clips)
  · rw [h.labels_placed]
    exact hjy.halts_roles ((h.decorate_halts hr fonts joined.output).bind _) (by decide)
  · decide

end Composition.Accepted

/-! ### The program of fitting parts is wired -/

/-- The pads that a composition reads: the video of each clip, then the audio of the music. -/
def Composition.pads (composition : Composition) : List Label :=
  (List.range composition.clips.length).map .ofVideo ++
    (composition.music.map fun _ ↦ Label.ofAudio composition.clips.length).toList

theorem placed_segment (canvas : Canvas) (clips : List Clip) :
    Segment (requestsFor [.clip, .canvas, .placed]) ((List.range clips.length).map .ofVideo) []
      ((placedFragments canvas 0 clips).flatMap (·.stages)) (placedLabels 0 clips) := by
  rw [List.range_eq_range']
  exact (placedFragments_segment canvas 0 clips).mono (requestsFrom_subset (requestsOf_subset _) 0)

theorem isPad_of_mem_placedLabels {index : Nat} {clips : List Clip} {l : Label}
    (h : l ∈ placedLabels index clips) : l.isPad = false := by
  obtain ⟨i, -, rfl⟩ := List.mem_map.mp h
  rfl

theorem soundtrack_segment (composition : Composition) :
    Segment (requestsFor [.audioOut])
      (composition.music.map fun _ ↦ Label.ofAudio composition.clips.length).toList []
      (stagesOf composition.soundtrack) (composition.soundtrack.map (·.output)).toList := by
  unfold Composition.soundtrack
  cases composition.music with
  | none => exact .nil _ _
  | some music =>
    have hstage : Segment {⟨.audioOut, none⟩} _ _
        [Soundtrack.musicStage music composition.clips.length
          composition.timeline.totalDuration (.named .audioOut)] _ :=
      .single rfl (by simp [Soundtrack.musicStage, Stage.chain])
    refine hstage.mono ?_
    rintro r rfl
    exact List.mem_singleton.mpr rfl

theorem videoOut_segment {input : Label} (hi : input.isPad = false) :
    Segment (requestsFor [.videoOut]) [] [input]
      [.chain input [pixelFormatFilter] (.named .videoOut)] [.named .videoOut] := by
  refine (Decoration.chained_segment ⟨.videoOut, none⟩ hi (List.cons_ne_nil _ _)).mono ?_
  rintro r rfl
  exact List.mem_singleton.mpr rfl

namespace Parts.Fit

variable {fonts : FontResolver} {composition : Composition} {parts : Parts}

/-- The decorations take the joined stream to the last badge. -/
private theorem decorations_segment (h : parts.Fit fonts composition)
    (hi : parts.joined.output.isPad = false) :
    Segment (requestsFor [.caption, .overlay, .overlaySource, .title, .badge]) []
      [parts.joined.output]
      (parts.captions.stages ++ parts.overlays.stages ++ parts.title.stages ++
        parts.badges.stages) [parts.badges.output] := by
  have hinput : ∀ {input : Label}, input.isPad = false → ∀ l ∈ [input], l.isPad = false := by
    intro input hi l hl
    rw [List.mem_singleton.mp hl]
    exact hi
  have hcaptions := Decoration.threads_segment Decoration.CaptionDrawn.segment hi h.captions
  have hc := hcaptions.isPad_of_mem_after (hinput hi) List.mem_cons_self
  have hoverlays := Decoration.threads_segment Decoration.OverlayDrawn.segment hc h.overlays
  have ho := hoverlays.isPad_of_mem_after (hinput hc) List.mem_cons_self
  have htitle := h.title.segment ho
  have ht := htitle.isPad_of_mem_after (hinput ho) List.mem_cons_self
  have hbadges := h.badges.segment ht
  have huntitled := hcaptions.append_roles hoverlays (by decide)
  exact (huntitled.append_roles htitle (by decide)).append_roles hbadges (by decide)

/-- The program of fitting parts is one segment from nothing to its outputs. -/
theorem segment (h : parts.Fit fonts composition) (hn : composition.clips ≠ []) :
    ∃ requests, Segment requests composition.pads [] (parts.program composition).stages
      (parts.program composition).outs := by
  obtain ⟨clip, rest, hclips⟩ := List.exists_cons_of_ne_nil hn
  have hplaced := placed_segment (composition.canvas parts.background) composition.clips
  have hlabels : placedLabels 0 composition.clips =
      .numbered .placed 0 :: placedLabels 1 composition.clips.tail := by
    rw [hclips]
    rfl
  have hjoined := h.joined.segment rfl fun l ↦ isPad_of_mem_placedLabels
  rw [hlabels] at hplaced
  have hstart := hplaced.append_roles hjoined (by decide)
  have hj := hstart.isPad_of_mem_after (by simp) List.mem_cons_self
  have hdrawn := hstart.append_roles (h.decorations_segment hj) (by decide)
  have hb := hdrawn.isPad_of_mem_after (by simp) List.mem_cons_self
  have hsound := hdrawn.append_roles
    ((soundtrack_segment composition).frame_left [parts.badges.output]) (by decide)
  have hout := hsound.append_roles ((videoOut_segment hb).frame _) (by decide)
  simp only [List.append_nil] at hout
  exact ⟨_, hout⟩

/-- The program of fitting parts is wired. -/
theorem wiring (h : parts.Fit fonts composition) (hn : composition.clips ≠ []) :
    (parts.program composition).Wiring := by
  obtain ⟨requests, hs⟩ := h.segment hn
  refine hs.wiring fun l hl i hi ↦ ?_
  have hlen : (parts.program composition).inputs.length =
      composition.clips.length + composition.music.toList.length := by
    cases hm : composition.music <;> simp [program, hm]
  rw [hlen]
  rcases List.mem_append.mp hl with hl | hl
  · obtain ⟨j, hj, rfl⟩ := List.mem_map.mp hl
    have hji : j = i := Option.some.inj hi
    have := List.mem_range.mp hj
    omega
  · obtain ⟨music, hm, rfl⟩ := Option.map_eq_some_iff.mp (Option.mem_toList.mp hl)
    have hni : composition.clips.length = i := Option.some.inj hi
    rw [hm, Option.toList_some, List.length_singleton]
    omega

end Parts.Fit

theorem checked_eq_ok {program : Program} (h : program.check = .ok ()) :
    checked program = .ok program := by
  rw [checked, h]
  rfl

namespace Composition

variable {fonts : FontResolver} {composition : Composition}

/-- An accepted composition whose badges have a place compiles to the program of fitting parts. -/
theorem Accepted.compile_eq_ok (h : composition.Accepted) (hr : composition.BadgesInRange)
    (fonts : FontResolver) :
    ∃ parts : Parts, parts.Fit fonts composition ∧
      composition.compile fonts = .ok (parts.program composition) := by
  obtain ⟨parts, hfit, requests, hy⟩ := h.buildProgram_yields hr fonts
  refine ⟨parts, hfit, ?_⟩
  have hcheck := (check_eq_ok_iff composition).mpr h
  have hprogram := (hfit.wiring h.clips_ne_nil).check_eq_ok
  simp only [compile, hcheck, h.ofDurations_eq_ok, Except.mapError, bind, Except.bind, liftM_ok,
    hy.run', checked_eq_ok hprogram]

theorem exists_program_of_check (h : composition.check = .ok ()) (fonts : FontResolver)
    (hr : composition.BadgesInRange) : ∃ program, composition.compile fonts = .ok program := by
  obtain ⟨parts, -, hp⟩ := ((check_eq_ok_iff composition).mp h).compile_eq_ok hr fonts
  exact ⟨_, hp⟩

/-- The compilation of an accepted composition with a badge that has no place overflows. -/
theorem Accepted.compile_eq_overflow (h : composition.Accepted) (hr : ¬ composition.BadgesInRange)
    (fonts : FontResolver) : composition.compile fonts = .error .overflow := by
  obtain ⟨requests, hh⟩ := h.buildProgram_halts hr fonts
  have hcheck := (check_eq_ok_iff composition).mpr h
  simp only [compile, hcheck, h.ofDurations_eq_ok, Except.mapError, bind, Except.bind, liftM_ok,
    hh.run']

/-- A composition that its check refuses is refused by the compiler for the same defect. -/
theorem compile_eq_failure {defect : Defect} (h : composition.check = .error defect)
    (fonts : FontResolver) :
    composition.compile fonts = .error (.failure (.composition defect)) := by
  simp only [compile, h, Except.mapError, bind, Except.bind]

/-- What compiling a composition comes to: the check refuses it, a badge has no place, or there is
the program of fitting parts. -/
theorem compile_eq_or (fonts : FontResolver) (composition : Composition) :
    (∃ defect, composition.check = .error defect ∧
      composition.compile fonts = .error (.failure (.composition defect))) ∨
    composition.Accepted ∧
      (¬ composition.BadgesInRange ∧ composition.compile fonts = .error .overflow ∨
        composition.BadgesInRange ∧ ∃ parts : Parts, parts.Fit fonts composition ∧
          composition.compile fonts = .ok (parts.program composition)) := by
  cases hc : composition.check with
  | error defect => exact Or.inl ⟨defect, rfl, compile_eq_failure hc fonts⟩
  | ok =>
    have ha := (check_eq_ok_iff composition).mp hc
    by_cases hr : composition.BadgesInRange
    · exact Or.inr ⟨ha, Or.inr ⟨hr, ha.compile_eq_ok hr fonts⟩⟩
    · exact Or.inr ⟨ha, Or.inl ⟨hr, ha.compile_eq_overflow hr fonts⟩⟩

/-- Only for the defect that its check finds is a composition refused. -/
theorem compile_eq_failure_iff {e : CompileError} :
    composition.compile fonts = .error (.failure e) ↔
      ∃ defect, composition.check = .error defect ∧ e = .composition defect := by
  constructor
  · intro h
    rcases compile_eq_or fonts composition with
      ⟨defect, hc, hd⟩ | ⟨-, ⟨-, ho⟩ | ⟨-, parts, -, hp⟩⟩
    · exact ⟨defect, hc, Halt.failure_inj (h.symm.trans hd)⟩
    · cases h.symm.trans ho
    · cases h.symm.trans hp
  · rintro ⟨defect, hc, rfl⟩
    exact compile_eq_failure hc fonts

/-- Only the badges of a composition can make its compilation overflow. -/
theorem compile_eq_overflow_iff : composition.compile fonts = .error .overflow ↔
    composition.Accepted ∧ ¬ composition.BadgesInRange := by
  refine ⟨fun h ↦ ?_, fun ⟨ha, hr⟩ ↦ ha.compile_eq_overflow hr fonts⟩
  rcases compile_eq_or fonts composition with ⟨defect, -, hd⟩ | ⟨ha, ⟨hr, -⟩ | ⟨-, parts, -, hp⟩⟩
  · cases h.symm.trans hd
  · exact ⟨ha, hr⟩
  · cases h.symm.trans hp

/-- Only accepted compositions compile, each to the program of fitting parts. -/
theorem exists_parts_of_compile {program : Program}
    (h : composition.compile fonts = .ok program) :
    composition.Accepted ∧
      ∃ parts : Parts, parts.Fit fonts composition ∧ program = parts.program composition := by
  rcases compile_eq_or fonts composition with
    ⟨defect, -, hd⟩ | ⟨ha, ⟨-, ho⟩ | ⟨-, parts, hfit, hp⟩⟩
  · cases h.symm.trans hd
  · cases h.symm.trans ho
  · exact ⟨ha, parts, hfit, Except.ok.inj (h.symm.trans hp)⟩

/-- The badges of what compiles have a place. -/
theorem badgesInRange_of_compile {program : Program}
    (h : composition.compile fonts = .ok program) : composition.BadgesInRange := by
  by_contra hr
  cases h.symm.trans ((exists_parts_of_compile h).1.compile_eq_overflow hr fonts)

end Composition

/-- A reel of three clips with a fade at both boundaries. -/
def threeClips : Composition where
  clips := [⟨⟨"a.mp4"⟩, 0, 4⟩, ⟨⟨"b.mp4"⟩, 0, 6⟩, ⟨⟨"c.mp4"⟩, 0, 3⟩]
  transition := some ⟨"fade", 0.5⟩

theorem accepted_threeClips : threeClips.Accepted :=
  Composition.accepted_of_toOption (by decide +kernel)

end Montage
