import Montage.Proofs.Compile.Blends
import Montage.Proofs.Compile.OneTotal
import Montage.Proofs.Compile.Spelling

/-!
# Programs without infinities

While the clips of a composition add up to a finite total, everything that its program is written
with is finite, and no word for infinity or not-a-number gets into the graph.
-/

namespace Montage

open Montage.Numeric (Binary64 num)
open Montage.Graph
open Montage.Decoration (Layer)

namespace Numeric.Binary64

variable {x y : Binary64}

theorem isFinite_min (hx : x.isFinite = true) (hy : y.isFinite = true) :
    (x.min y).isFinite = true := by
  rcases min_eq_or (y := y) (.inl (isNaN_of_isFinite hx)) with ⟨h, -⟩ | ⟨h, -⟩
  · rwa [h]
  · rwa [h]

theorem isFinite_max (hx : x.isFinite = true) (hy : y.isFinite = true) :
    (x.max y).isFinite = true := by
  unfold Binary64.max
  split
  · exact hy
  · split
    · exact hx
    · split
      · exact hx
      · exact hy

end Numeric.Binary64

/-- The vocabulary in which only finite numbers are written. -/
def Graph.Vocabulary.finite : Vocabulary where
  number x := x.isFinite = true
  length _ := True
  divisor _ := True
  gate _ := True
  size _ := True

namespace Composition.Accepted

variable {composition : Composition}

private theorem isFinite_boundary (h : composition.Accepted)
    (hf : composition.timeline.totalDuration.isFinite = true) (clip : ℕ) :
    (composition.boundary clip).isFinite = true := by
  refine h.areLengths.isFinite_startOf ?_ clip
  rwa [Timeline.startOf_length]

private theorem windowIn_of_window? (h : composition.Accepted)
    (hf : composition.timeline.totalDuration.isFinite = true) {clip : ℕ} {window : TimeWindow}
    (hw : composition.timeline.window? clip = some window) :
    Decoration.WindowIn .finite window := by
  obtain ⟨hstart, hstop⟩ := eq_boundary_of_window? hw
  refine ⟨?_, ?_, trivial⟩
  · rw [hstart]
    exact h.isFinite_boundary hf clip
  · rw [hstop]
    exact h.isFinite_boundary hf (clip + 1)

private theorem windowIn_overlayWindow (h : composition.Accepted) (fonts : FontResolver)
    {overlay : Overlay} (ho : overlay ∈ composition.overlays) :
    Decoration.WindowIn .finite
      (Decoration.overlayWindow (composition.scene fonts) overlay) := by
  have hoverlay := h.overlays overlay ho
  obtain ⟨hstart, -⟩ := Bool.and_eq_true_iff.mp hoverlay.start
  have hstop := hoverlay.stop
  rw [← h.totalDuration_timeline] at hstop
  exact ⟨Binary64.isFinite_max hstart (by decide +kernel), hstop, trivial⟩

private theorem blendIn_finite (h : composition.Accepted)
    (hf : composition.timeline.totalDuration.isFinite = true) {boundary : ℕ}
    (hb : boundary + 1 < composition.clips.length)
    (hd : ¬ composition.blendDuration boundary ≤ 0) :
    BlendIn .finite (composition.blendDuration boundary) (composition.blendOffset boundary) := by
  have hleft := (h.isFinite_windowLength hf (Nat.lt_of_succ_lt hb)).2
  obtain ⟨hlt, hfinite⟩ :=
    Transition.clampDuration_lt (Binary64.isNaN_of_isFinite hleft) hd
  have hpos := Binary64.units_pos_of_pos (Binary64.pos_of_not_le_zero hfinite hd)
  exact ⟨hfinite, trivial, trivial,
    (Binary64.sub_of_units_le hleft hfinite hpos.le (Binary64.units_lt_units hlt).le).1⟩

private theorem musicIn_finite (h : composition.Accepted)
    (hf : composition.timeline.totalDuration.isFinite = true) {music : Music}
    (hm : music ∈ composition.music) :
    MusicIn .finite music composition.timeline.totalDuration := by
  have hfade : Soundtrack.fadeLength.isFinite = true := by decide +kernel
  have hmin := Binary64.isFinite_min hfade hf
  obtain ⟨hvolume, -⟩ := Bool.and_eq_true_iff.mp (h.music music hm).volume
  have hnonneg : 0 ≤ (Soundtrack.fadeLength.min composition.timeline.totalDuration).units := by
    rcases Binary64.min_eq_or (y := composition.timeline.totalDuration)
      (.inl (Binary64.isNaN_of_isFinite hfade)) with ⟨heq, -⟩ | ⟨heq, -⟩
    · rw [heq]
      decide +kernel
    · rw [heq, ← boundary_length]
      exact (h.isLength_boundary _).nonneg
  have hle := Binary64.units_le_units (Binary64.min_le_right
    (x := Soundtrack.fadeLength) (Binary64.isNaN_of_isFinite hf))
  exact ⟨hvolume, hf, trivial, ⟨hfade, trivial⟩, ⟨hmin, trivial⟩,
    Binary64.isFinite_max (Binary64.sub_of_units_le hf hmin hnonneg hle).1 (by decide +kernel)⟩

/-- While the total is finite, so is everything that the program is written with. -/
theorem spelledIn_finite (h : composition.Accepted)
    (hf : composition.timeline.totalDuration.isFinite = true) (fonts : FontResolver) :
    composition.SpelledIn .finite fonts where
  ramp := ⟨(by decide +kernel : Decoration.rampLength.isFinite = true), trivial⟩
  clips clip hc := by
    have hclip := h.clips clip hc
    exact ⟨(Bool.and_eq_true_iff.mp hclip.trimStart).1, (Bool.and_eq_true_iff.mp hclip.duration).1,
      trivial⟩
  blends _ _ hb hd := h.blendIn_finite hf hb hd
  layers := by
    refine forall_mem_layers.mpr ⟨fun _ caption _ ↦ ⟨?_, fun _ _ ↦ trivial, ?_⟩,
      fun _ overlay ho ↦ ⟨?_, fun _ _ ↦ trivial, fun _ ↦ ⟨hf, trivial, trivial⟩⟩,
      fun _ _ _ ↦ ⟨List.forall_mem_nil _, fun _ _ ↦ trivial, ?_⟩,
      fun _ _ _ clip _ ↦ ⟨?_, fun _ _ ↦ trivial, ?_⟩⟩
    · exact fun window hw ↦ h.windowIn_of_window? hf (Option.mem_toList.mp hw)
    · exact fun hbar ↦ Bool.noConfusion hbar
    · intro window hw
      obtain ⟨-, rfl⟩ := Layer.mem_windows_overlay.mp hw
      exact h.windowIn_overlayWindow fonts (List.mem_of_getElem? ho)
    · exact fun hbar ↦ Bool.noConfusion hbar
    · exact fun window hw ↦ h.windowIn_of_window? hf (Option.mem_toList.mp hw)
    · exact fun hbar ↦ Bool.noConfusion hbar
  music _ hm := h.musicIn_finite hf hm

end Composition.Accepted

/-- In a program with a finite total every option is definite, but for the texts and fonts of the
composition. -/
theorem Parts.Fit.definite {fonts : FontResolver} {composition : Composition} {parts : Parts}
    (h : parts.Fit fonts composition) (ha : composition.Accepted)
    (hf : composition.timeline.totalDuration.isFinite = true) :
    ∀ option ∈ (parts.program composition).options,
      (∀ key ∈ option.key, key ∉ textKeys) → Definite option.value := by
  have hspelled := h.spelled ha.clips_ne_nil (ha.spelledIn_finite hf fonts)
  refine List.forall_mem_flatMap.mpr fun stage hs option ho hk ↦ ?_
  exact ((hspelled stage hs).options option ho).definite (fun _ hx ↦ hx) hk

/-! ### Proper windows -/

/-- Clips with finite, positive lengths always have a timeline, whose windows begin at zero, follow
each other without gaps and do not end before they begin. They are all finite exactly if the total
is, and proper exactly if moreover no running sum absorbs the length of a clip, which it does not
where the total is less than `2 ^ 53` times that length. While the total is finite no word for
infinity or not-a-number is written into a program of such clips. -/
theorem windows_proper_iff {durations : List Binary64} (hn : durations ≠ [])
    (h : ∀ duration ∈ durations, duration.isFinite = true ∧ 0 < duration) :
    ∃ timeline, Timeline.ofDurations durations = .ok timeline ∧ timeline.Tiles durations ∧
      ((∀ window ∈ timeline.windows,
          window.start.isFinite = true ∧ window.stop.isFinite = true) ↔
        timeline.totalDuration.isFinite = true) ∧
      (timeline.Proper ↔ timeline.totalDuration.isFinite = true ∧
        ∀ clip duration, durations[clip]? = some duration →
          (Timeline.startOf durations clip + duration).same
            (Timeline.startOf durations clip) = false) ∧
      (timeline.totalDuration.isFinite = true →
        (∀ duration ∈ durations, timeline.totalDuration.value < 2 ^ 53 * duration.value) →
        timeline.Proper) ∧
      ∀ (fonts : FontResolver) (composition : Composition) (program : Program),
        composition.durations = durations → composition.compile fonts = .ok program →
        timeline.totalDuration.isFinite = true →
        ∀ option ∈ program.options, (∀ key ∈ option.key, key ∉ textKeys) →
          Definite option.value := by
  have hlengths : Timeline.AreLengths durations := h
  have hok : Timeline.ofDurations durations = .ok ⟨Timeline.windowsOf 0 durations⟩ := by
    refine Timeline.ofDurations_eq_ok fun duration hd ↦ ?_
    obtain ⟨hfinite, hpos⟩ := h duration hd
    rw [Composition.isNonNegative, hfinite, Bool.true_and, decide_eq_true_eq]
    exact Binary64.le_of_lt hpos
  refine ⟨_, hok, hlengths.tiles, hlengths.finite_iff hn, hlengths.proper_iff hn, ?_, ?_⟩
  · intro hf hlarge
    refine (hlengths.proper_iff hn).mpr ⟨hf, fun clip duration hd ↦ ?_⟩
    rw [← Timeline.startOf_length] at hf hlarge
    exact hlengths.same_eq_false hf hd (hlarge duration (List.mem_of_getElem? hd))
  · rintro fonts composition program rfl hp hf
    obtain ⟨ha, parts, hfit, rfl⟩ := Composition.exists_parts_of_compile hp
    exact hfit.definite ha hf

/-- The windows of three clips. -/
theorem windows_proper_threeClips :
    threeClips.durations ≠ [] ∧
      (∀ duration ∈ threeClips.durations, duration.isFinite = true ∧ 0 < duration) ∧
      ∃ timeline, Timeline.ofDurations threeClips.durations = .ok timeline ∧
        timeline.Proper := by
  have hn : threeClips.durations ≠ [] := by decide
  have h := accepted_threeClips.duration_pos
  obtain ⟨timeline, hok, -, -, hproper, -⟩ := windows_proper_iff hn h
  have htimeline := hok.symm.trans accepted_threeClips.ofDurations_eq_ok
  refine ⟨hn, h, timeline, hok, hproper.mpr ?_⟩
  obtain rfl := Except.ok.inj htimeline
  refine ⟨by decide +kernel, fun clip duration hd ↦ ?_⟩
  have hlt : clip < 3 := (List.getElem?_eq_some_iff.mp hd).1
  have hall : ∀ clip < 3, ∀ duration ∈ threeClips.durations[clip]?,
      (Timeline.startOf threeClips.durations clip + duration).same
        (Timeline.startOf threeClips.durations clip) = false := by
    decide +kernel
  exact hall clip hlt duration hd

/-- A window without an end has a gate that is not definite. -/
private theorem not_definite_enable {window : TimeWindow} (h : num window.stop = "inf") :
    ¬ Definite (Decoration.enable window).value := by
  intro hdefinite
  refine hdefinite "inf" List.mem_cons_self ?_
  rw [value_enable, render_gate, h]
  refine ⟨("'gte(t," ++ num window.start ++ ")*lt(t,").toList, ")'".toList, ?_⟩
  simp [String.toList_append]

/-- Two clips whose lengths no double can hold together, with badges. -/
def vastClips : Composition where
  clips := [⟨⟨"a.mp4"⟩, 0, 1e308⟩, ⟨⟨"b.mp4"⟩, 0, 1e308⟩]
  ranking := some {}

/-- The composition is accepted, but its second window has no end, and the word for infinity stands
in the gate of its badge. A sum that is finite may still absorb a clip, whose window is empty. -/
theorem windows_improper_vastClips :
    vastClips.check = .ok () ∧
      (∃ timeline program, Timeline.ofDurations vastClips.durations = .ok timeline ∧
        vastClips.compile (fun _ _ ↦ none) = .ok program ∧ ¬ timeline.Proper ∧
        timeline.totalDuration.isFinite = false ∧
        ∃ option ∈ program.options, option.key = some "enable" ∧ ¬ Definite option.value) ∧
      ∃ timeline, Timeline.ofDurations [9007199254740992, 1] = .ok timeline ∧
        ¬ timeline.Proper ∧ ∃ window ∈ timeline.windows, ¬ window.start < window.stop := by
  have ha : vastClips.Accepted := Composition.accepted_of_toOption (by decide +kernel)
  refine ⟨(Composition.check_eq_ok_iff _).mpr ha, ?_, ?_⟩
  · obtain ⟨parts, hfit, hp⟩ := ha.compile_eq_ok (by decide +kernel) fun _ _ ↦ none
    have hinf : vastClips.timeline.totalDuration.isFinite = false := by decide +kernel
    have hlayer : Layer.badge 1 {} ∈ vastClips.layers := by
      simp [Composition.layers, vastClips, Decoration.titleLayers, Decoration.badgeLayers]
    obtain ⟨drawing, hdrawn, hstages⟩ := hfit.exists_drawing ha.clips_ne_nil hlayer
    obtain ⟨window, hw, hstop⟩ :
        ∃ window, vastClips.timeline.window? 1 = some window ∧ num window.stop = "inf" :=
      ⟨_, rfl, by decide +kernel⟩
    obtain ⟨stage, hs, ho⟩ := hdrawn.enable_mem window (Option.mem_toList.mpr hw)
    exact ⟨_, _, ha.ofDurations_eq_ok, hp, fun hproper ↦ Bool.noConfusion
      (hinf.symm.trans hproper.total), hinf, _, List.mem_flatMap.mpr ⟨stage, hstages stage hs, ho⟩,
      rfl, not_definite_enable hstop⟩
  · have hempty : ((Timeline.ofDurations [9007199254740992, 1]).toOption.any fun timeline ↦
        timeline.windows.any fun window ↦ !decide (window.start < window.stop)) = true := by
      decide +kernel
    cases hok : Timeline.ofDurations [9007199254740992, 1] with
    | error e =>
      rw [hok] at hempty
      cases hempty
    | ok timeline =>
      rw [hok] at hempty
      obtain ⟨window, hw, hlt⟩ := List.any_eq_true.mp hempty
      rw [Bool.not_eq_true', decide_eq_false_iff_not] at hlt
      exact ⟨timeline, rfl, fun hproper ↦ hlt (hproper.nonempty window hw), window, hw, hlt⟩

end Montage
