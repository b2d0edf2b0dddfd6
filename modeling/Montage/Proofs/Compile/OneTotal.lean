import Montage.Proofs.Compile.SplitLayout
import Montage.Proofs.Compile.Timing
import Montage.Proofs.Decoration.Gates
import Montage.Proofs.Graph.Spelling

/-!
# One total

A composition adds up its clips to decide which overlays it accepts, and its timeline does so once
more to tell where the last clip ends. Both give the same double, and it is the one that a program
writes wherever the length of the composition matters.
-/

namespace Montage

open Montage.Numeric (Binary64 num)
open Montage.Graph
open Montage.Decoration (progressBarLeft)

/-- The window of an overlay on a composition of this length. -/
def Overlay.window (total : Binary64) (overlay : Overlay) : TimeWindow :=
  ⟨(overlay.start.getD 0).max 0, overlay.stop.getD total⟩

/-- The length by which a composition is checked is that of its timeline, and the windows of its
overlays begin before it. -/
structure Composition.AddsUp (composition : Composition) : Prop where
  timeline : ∃ timeline, Timeline.ofDurations composition.durations = .ok timeline ∧
    timeline.totalDuration = composition.totalDuration
  windows : ∀ overlay ∈ composition.overlays,
    (overlay.window composition.totalDuration).start <
        (overlay.window composition.totalDuration).stop ∧
      (overlay.window composition.totalDuration).start < composition.totalDuration

/-- The length by which a composition is checked is the one that its program works with. -/
structure Composition.HasOneTotal (composition : Composition) (program : Program) : Prop where
  total : program.totalDuration = composition.totalDuration
  /-- Music is trimmed to the total. -/
  music : composition.music.isSome = true → ∃ stage ∈ program.stages,
    stage.outputs = program.audioOut.toList ∧ stage.filter? "atrim" =
      some ⟨"atrim", [opt "duration" (num composition.totalDuration)]⟩
  /-- A progress bar lasts for the total and has covered the frame at its end. -/
  bars : ∀ index overlay, composition.overlays[index]? = some overlay →
    overlay.kind = .progressBar → ∃ source ∈ program.stages, ∃ stage ∈ program.stages,
      source.outputs = [.numbered .overlaySource index] ∧
      stage.outputs = [.numbered .overlay index] ∧
      source.filters.map (·.values "d") = [[num composition.totalDuration]] ∧
      stage.filters.map (·.values "x") =
        [[quoted ("-w+W*min(t/" ++ num composition.totalDuration ++ ",1)")]]
  /-- Whatever else an overlay draws is shown in its window, which ends with the total unless the
  overlay says otherwise. -/
  gates : ∀ index overlay, composition.overlays[index]? = some overlay →
    overlay.kind ≠ .progressBar → ∃ stage ∈ program.stages,
      stage.outputs = [.numbered .overlay index] ∧ stage.filters ≠ [] ∧ ∀ values ∈ stage.gates,
        values = [quoted ("gte(t," ++ num (overlay.window composition.totalDuration).start ++
          ")*lt(t," ++ num (overlay.window composition.totalDuration).stop ++ ")")]

/-- A progress bar comes in from the left, at the pace of the total. -/
theorem Decoration.render_progressBarLeft (total : Binary64) :
    (progressBarLeft total).render = "-w+W*min(t/" ++ num total ++ ",1)" := by
  have hparts : (progressBarLeft total).render = "-" ++ "w" ++ "+" ++
      ("W" ++ "*" ++ ("min(" ++ ("t" ++ "/" ++ num total) ++ "," ++ "1" ++ ")")) := rfl
  rw [hparts, ← String.toList_inj]
  simp

namespace Composition.Accepted

variable {composition : Composition}

/-- The timeline ends where the clips add up to. One sum begins with a negative zero and the other
with a positive one, and the first clip makes up for it. -/
theorem totalDuration_timeline (h : composition.Accepted) :
    composition.timeline.totalDuration = composition.totalDuration := by
  obtain ⟨clip, rest, hclips⟩ := List.exists_cons_of_ne_nil h.clips_ne_nil
  have hdurations : composition.durations = clip.duration :: rest.map (·.duration) := by
    rw [durations, hclips, List.map_cons]
  obtain ⟨hfinite, hpos⟩ := h.duration_pos clip.duration (hdurations ▸ List.mem_cons_self)
  rw [timeline, Timeline.totalDuration_windowsOf, totalDuration, Binary64.sum, hdurations,
    List.foldl_cons, List.foldl_cons, Binary64.zero_add_of_pos hfinite hpos,
    Binary64.negativeZero_add_of_pos hfinite hpos]

theorem isNaN_totalDuration (h : composition.Accepted) :
    composition.totalDuration.isNaN = false :=
  Binary64.isNaN_foldl_of_isFinite rfl fun duration hd ↦ (h.duration_pos duration hd).1

/-- An accepted overlay is to be seen, and from a time on that the composition reaches. -/
theorem window_lt (h : composition.Accepted) {overlay : Overlay}
    (ho : overlay ∈ composition.overlays) :
    (overlay.window composition.totalDuration).start <
        (overlay.window composition.totalDuration).stop ∧
      (overlay.window composition.totalDuration).start < composition.totalDuration := by
  have ha := h.overlays overlay ho
  obtain ⟨hfinite, hnonneg⟩ := Bool.and_eq_true_iff.mp ha.start
  have hstart := Binary64.isNaN_of_isFinite hfinite
  have hstop := Binary64.isNaN_of_isFinite ha.stop
  exact ⟨Binary64.max_zero_lt (of_decide_eq_true hnonneg)
      (Binary64.lt_of_not_le hstart hstop ha.order),
    Binary64.max_zero_lt (of_decide_eq_true hnonneg)
      (Binary64.lt_of_not_le hstart h.isNaN_totalDuration ha.late)⟩

theorem addsUp (h : composition.Accepted) : composition.AddsUp where
  timeline := ⟨_, h.ofDurations_eq_ok, h.totalDuration_timeline⟩
  windows _ := h.window_lt

end Composition.Accepted

namespace Parts

variable {fonts : FontResolver} {composition : Composition} {parts : Parts}

/-- What draws the overlays is part of the program. -/
theorem mem_stages_of_mem_overlays (parts : Parts) {stage : Stage}
    (h : stage ∈ parts.overlays.stages) : stage ∈ (parts.program composition).stages := by
  simp only [program, List.mem_append]
  exact .inl (.inl (.inr (.inl (.inl (.inr h)))))

/-- The program of fitting parts works with the total of the composition. -/
theorem Fit.hasOneTotal (h : parts.Fit fonts composition) (ha : composition.Accepted) :
    composition.HasOneTotal (parts.program composition) where
  total := ha.totalDuration_timeline
  music hm := by
    obtain ⟨music, hm⟩ := Option.isSome_iff_exists.mp hm
    refine ⟨_, parts.musicStage_mem hm, ?_, ?_⟩
    · rw [program, Composition.soundtrack, hm]
      rfl
    · rw [Soundtrack.filter?_atrim_musicStage, ha.totalDuration_timeline]
  bars index overlay hi hk := by
    obtain ⟨input, own, hown, hs⟩ := h.overlays.exists_of_getElem? hi
    rw [Nat.zero_add] at hown
    cases hown with
    | chain hk' => exact absurd hk hk'
    | bar =>
      obtain ⟨hsource, hrest⟩ := List.forall_mem_cons.mp hs
      have hstage := List.forall_mem_singleton.mp hrest
      refine ⟨_, parts.mem_stages_of_mem_overlays hsource, _,
        parts.mem_stages_of_mem_overlays hstage, rfl, rfl, ?_, ?_⟩
      · rw [← ha.totalDuration_timeline]
        rfl
      · rw [← ha.totalDuration_timeline, ← Decoration.render_progressBarLeft]
        rfl
  gates index overlay hi hk := by
    obtain ⟨input, own, hown, hs⟩ := h.overlays.exists_of_getElem? hi
    rw [Nat.zero_add] at hown
    cases hown with
    | bar hk' => exact absurd hk' hk
    | chain _ hf =>
      refine ⟨_, parts.mem_stages_of_mem_overlays (List.forall_mem_singleton.mp hs), rfl,
        Decoration.filters_ne_nil_of_overlayFilters hk hf, ?_⟩
      rw [← ha.totalDuration_timeline, ← render_gate]
      exact List.forall_mem_map.mpr (Decoration.gates_overlayFilters hk hf)

end Parts

/-- An accepted composition has one total. It is compiled unless its badges have no place, and its
program works with this total. A split screen that knows the lengths of its sources is compiled to a
program of the length that it shows. -/
theorem compile_hasOneTotal :
    (∀ (composition : Composition) (fonts : FontResolver), composition.check = .ok () →
      composition.AddsUp ∧
      (composition.BadgesInRange → ∃ program, composition.compile fonts = .ok program) ∧
      ∀ program, composition.compile fonts = .ok program → composition.HasOneTotal program) ∧
    ∀ (screen : SplitScreen) (primary secondary : SourceInfo) (program : Program),
      screen.primaryDuration = some primary.duration →
      screen.secondaryDuration = some secondary.duration →
      screen.compile primary secondary = .ok program →
      screen.totalDuration? = some program.totalDuration := by
  constructor
  · intro composition fonts h
    refine ⟨((Composition.check_eq_ok_iff composition).mp h).addsUp,
      Composition.exists_program_of_check h fonts, fun program hp ↦ ?_⟩
    obtain ⟨ha, parts, hfit, rfl⟩ := Composition.exists_parts_of_compile hp
    exact hfit.hasOneTotal ha
  · intro screen primary secondary program hprimary hsecondary h
    rcases screen.compile_eq_or primary secondary with
      ⟨defect, -, he⟩ | ⟨-, he | ⟨background, -, ho⟩⟩
    · rw [he] at h
      cases h
    · rw [he] at h
      cases h
    · obtain rfl := Except.ok.inj (ho.symm.trans h)
      rw [SplitScreen.totalDuration?, hprimary, hsecondary]
      rfl

/-- Three decorated clips of 4, 6 and 3 seconds, and two sources of 8 and 5 seconds. -/
theorem compile_hasOneTotal_decoratedClips :
    let screen : SplitScreen :=
      { primary := ⟨"a.mp4"⟩, secondary := ⟨"b.mp4"⟩, primaryDuration := some 8,
        secondaryDuration := some 5 }
    decoratedClips.totalDuration = 13 ∧
      (∃ program, decoratedClips.compile (fun _ _ ↦ none) = .ok program ∧
        decoratedClips.HasOneTotal program ∧ program.totalDuration = 13) ∧
      ∃ program, screen.compile ⟨8, true⟩ ⟨5, false⟩ = .ok program ∧
        screen.totalDuration? = some program.totalDuration ∧ screen.totalDuration? = some 5 := by
  intro screen
  have hcheck : decoratedClips.check = .ok () := (Composition.check_eq_ok_iff _).mpr
    (Composition.accepted_of_toOption (by decide +kernel))
  have htotal : decoratedClips.totalDuration = 13 := by decide +kernel
  obtain ⟨-, hcompiles, hones⟩ := compile_hasOneTotal.1 decoratedClips (fun _ _ ↦ none) hcheck
  obtain ⟨program, hp⟩ := hcompiles (by decide +kernel)
  have hone := hones program hp
  have hcompiles : (screen.compile ⟨8, true⟩ ⟨5, false⟩).toOption.isSome = true := by
    decide +kernel
  cases hs : screen.compile ⟨8, true⟩ ⟨5, false⟩ with
  | error e =>
    rw [hs] at hcompiles
    cases hcompiles
  | ok stacked =>
    refine ⟨htotal, ⟨program, hp, hone, hone.total.trans htotal⟩, stacked, rfl, ?_, ?_⟩
    · exact compile_hasOneTotal.2 screen ⟨8, true⟩ ⟨5, false⟩ stacked rfl rfl hs
    · decide +kernel

end Montage
