import Montage.Proofs.Compile.ClipOrder
import Montage.Proofs.Composition.Boundaries

/-!
# The blends of a program

A blend is in bounds if it is neither empty nor longer than the longest one nor than half of either
clip beside its boundary, and begins inside the clip before it. The length of a blend is clamped
into these bounds for all doubles, and while the sum of the clips is finite every blend of a
compiled program is within those that the timeline shows.
-/

namespace Montage

open Montage.Numeric (Binary64)
open Montage.Graph

/-- A blend between clips of these lengths is in bounds. -/
structure Transition.InBounds (left right duration offset : Binary64) : Prop where
  positive : 0 < duration
  le_longest : duration ≤ 2
  le_left : duration ≤ left / 2
  le_right : duration ≤ right / 2
  offset_nonneg : 0 ≤ offset

/-- Clamping brings every blend that is left over into bounds. -/
theorem Transition.inBounds_clampDuration {requested left right : Binary64}
    (hl : left.isFinite = true) (hr : right.isFinite = true)
    (h : ¬ clampDuration requested left right ≤ 0) :
    InBounds left right (clampDuration requested left right)
      (left - clampDuration requested left right) := by
  have hleft := Binary64.isNaN_of_isFinite hl
  have hright := Binary64.isNaN_of_isFinite hr
  have hclamped := clamped_clampDuration requested left right
  have hpos := Binary64.pos_of_not_le_zero (clampDuration_lt hleft h).2 h
  have hhalf : ∀ {x : Binary64}, x.isNaN = false → (x / 2).isNaN = false := by
    intro x hx
    exact (Binary64.isNaN_of_le (Binary64.half_le_half (Binary64.le_refl hx))).1
  have hoffset := units_offset_pos (fun hnan ↦ Bool.noConfusion (hleft.symm.trans hnan)) h
  exact ⟨hpos, hclamped.le_longest,
    Binary64.le_of_le_max_zero hpos (hclamped.le_left hleft) (hhalf hleft),
    Binary64.le_of_le_max_zero hpos (hclamped.le_right hright) (hhalf hright),
    Binary64.le_of_lt (Binary64.pos_of_units_pos hoffset)⟩

namespace Composition

variable {composition : Composition} {clip boundary : ℕ}

/-- While the total is finite the timeline shows a finite length for each clip. -/
theorem Accepted.isFinite_windowLength (h : composition.Accepted)
    (hf : composition.timeline.totalDuration.isFinite = true)
    (hc : clip < composition.clips.length) :
    composition.timeline.duration? clip = some (composition.windowLength clip) ∧
      (composition.windowLength clip).isFinite = true := by
  have hlt : clip < composition.durations.length := by
    rwa [durations, List.length_map]
  have hd := List.getElem?_eq_getElem hlt
  have hwindow := h.areLengths.tiles.clip clip _ hd
  have hduration : composition.timeline.duration? clip = some (composition.windowLength clip) := by
    rw [windowLength, Timeline.duration?, timeline, hwindow]
    rfl
  refine ⟨hduration, ?_⟩
  have hlength : composition.windowLength clip =
      Timeline.startOf composition.durations (clip + 1) -
        Timeline.startOf composition.durations clip := by
    rw [windowLength, Timeline.duration?, timeline, hwindow, Timeline.startOf_succ hd]
    rfl
  have hle := h.areLengths.start_le_stop hd
  rw [← Timeline.startOf_succ hd] at hle
  have hend : (Timeline.startOf composition.durations
      composition.durations.length).isFinite = true := by
    rwa [Timeline.startOf_length]
  rw [hlength]
  exact (Binary64.sub_of_units_le (h.areLengths.isFinite_startOf hend _)
    (h.areLengths.isFinite_startOf hend _) (h.isLength_boundary clip).nonneg
    (Binary64.units_le_units hle)).1

/-- The blends at the boundaries of an accepted composition with a finite total are in bounds. -/
theorem Accepted.inBounds_blend (h : composition.Accepted)
    (hf : composition.timeline.totalDuration.isFinite = true)
    (hb : boundary + 1 < composition.clips.length)
    (hd : ¬ composition.blendDuration boundary ≤ 0) :
    Transition.InBounds (composition.windowLength boundary)
      (composition.windowLength (boundary + 1)) (composition.blendDuration boundary)
      (composition.blendOffset boundary) :=
  Transition.inBounds_clampDuration (h.isFinite_windowLength hf (Nat.lt_of_succ_lt hb)).2
    (h.isFinite_windowLength hf hb).2 hd

/-- Where a boundary has a blend it is the one of its length and offset. -/
theorem exists_blend_of_mem_boundaryStages
    (ht : Transition.ofSetting composition.transition ≠ .cut) {stage : Stage}
    (hs : stage ∈ composition.boundaryStages boundary) {filter : Filter}
    (hf : filter ∈ stage.filters) (hn : filter.name = "xfade") :
    ¬ composition.blendDuration boundary ≤ 0 ∧ ∃ name,
      filter = Transition.blendFilter name (composition.blendDuration boundary)
        (composition.blendOffset boundary) := by
  have hedges : ∀ effect : CustomEffect, ∀ stage ∈ (Transition.Join.edges effect
      (composition.blendDuration boundary) (composition.blendOffset boundary)).effects boundary
        (before boundary) (.numbered .placed (boundary + 1)),
      ∀ filter ∈ stage.filters, filter.name ≠ "xfade" := by
    intro effect
    cases effect <;> simp [Transition.Join.effects, Stage.chain, Transition.trailingEdge,
      Transition.leadingEdge, Transition.effectFilter]
  unfold boundaryStages boundaryEffects boundaryJoin at hs
  rcases joinAfter_cases ht boundary with ⟨-, hj⟩ | ⟨hd, ⟨name, hj⟩ | ⟨effect, hj⟩⟩
  · rw [hj] at hs
    obtain rfl := List.mem_singleton.mp hs
    obtain rfl := List.mem_singleton.mp hf
    exact absurd hn (by decide : "concat" ≠ "xfade")
  · rw [hj] at hs
    obtain rfl := List.mem_singleton.mp hs
    exact ⟨hd, name, List.mem_singleton.mp hf⟩
  · rw [hj] at hs
    rcases List.mem_append.mp hs with hs | hs
    · exact absurd hn (hedges effect stage hs filter hf)
    · obtain rfl := List.mem_singleton.mp hs
      exact ⟨hd, "fade", List.mem_singleton.mp hf⟩

end Composition

/-- Every blend of a program is that of a boundary between two clips. -/
theorem Parts.Fit.exists_boundary {fonts : FontResolver} {composition : Composition}
    {parts : Parts} (h : parts.Fit fonts composition) (hn : composition.clips ≠ [])
    {stage : Stage} (hs : stage ∈ (parts.program composition).stages) {filter : Filter}
    (hf : filter ∈ stage.filters) (hx : filter.name = "xfade") :
    ∃ boundary, boundary + 1 < composition.clips.length ∧
      ¬ composition.blendDuration boundary ≤ 0 ∧ ∃ name,
        filter = Transition.blendFilter name (composition.blendDuration boundary)
          (composition.blendOffset boundary) := by
  have hjoined : stage ∈ parts.joined.stages :=
    (h.joinsNothing_or stage hs).resolve_left fun hnothing ↦ hnothing filter hf (by simp [hx])
  rcases Composition.joined_cases hn h.joined with ⟨-, hj⟩ | ⟨-, -, hj⟩ | ⟨-, ht, hj⟩
  · rw [hj] at hjoined
    cases hjoined
  · rw [hj] at hjoined
    obtain rfl := List.mem_singleton.mp hjoined
    obtain rfl := List.mem_singleton.mp hf
    exact absurd hx (by decide : "concat" ≠ "xfade")
  · rw [hj] at hjoined
    obtain ⟨boundary, hb, hstage⟩ := List.mem_flatMap.mp hjoined
    have hlt := List.mem_range.mp hb
    exact ⟨boundary, by omega, Composition.exists_blend_of_mem_boundaryStages ht hstage hf hx⟩

/-- The length of a blend is clamped for all doubles, and every blend of a compiled program with a
finite total is in bounds: it has the clamped length of a boundary between two clips of the
timeline, and begins in the first of them that much before its end. -/
theorem blends_inBounds_of_compile :
    (∀ requested left right : Binary64, Transition.Clamped requested left right
      (Transition.clampDuration requested left right)) ∧
    ∀ {fonts : FontResolver} {composition : Composition} {program : Program},
      composition.compile fonts = .ok program → program.totalDuration.isFinite = true →
      ∀ stage ∈ program.stages, ∀ filter ∈ stage.filters, filter.name = "xfade" →
        ∃ timeline boundary left right name duration offset,
          Timeline.ofDurations composition.durations = .ok timeline ∧
          timeline.duration? boundary = some left ∧
          timeline.duration? (boundary + 1) = some right ∧
          filter = Transition.blendFilter name duration offset ∧
          duration = Transition.clampDuration
            ((composition.transition.map (·.duration)).getD 0) left right ∧
          offset = left - duration ∧ Transition.InBounds left right duration offset := by
  refine ⟨Transition.clamped_clampDuration, fun h hf stage hs filter hm hx ↦ ?_⟩
  obtain ⟨ha, parts, hfit, rfl⟩ := Composition.exists_parts_of_compile h
  obtain ⟨boundary, hb, hd, name, hfilter⟩ := hfit.exists_boundary ha.clips_ne_nil hs hm hx
  exact ⟨_, boundary, _, _, name, _, _, ha.ofDurations_eq_ok,
    (ha.isFinite_windowLength hf (Nat.lt_of_succ_lt hb)).1, (ha.isFinite_windowLength hf hb).1,
    hfilter, rfl, rfl, ha.inBounds_blend hf hb hd⟩

/-- Both blends of three clips are in bounds. -/
theorem blends_inBounds_threeClips :
    ∃ program, threeClips.compile (fun _ _ ↦ none) = .ok program ∧
      program.totalDuration.isFinite = true ∧
      ∃ stage ∈ program.stages, ∃ filter ∈ stage.filters, filter.name = "xfade" ∧
        ∃ left right name duration offset, filter = Transition.blendFilter name duration offset ∧
          Transition.InBounds left right duration offset := by
  obtain ⟨parts, hfit, hp⟩ := accepted_threeClips.compile_eq_ok (by decide) fun _ _ ↦ none
  have hfinite : (parts.program threeClips).totalDuration.isFinite = true := by
    show threeClips.timeline.totalDuration.isFinite = true
    decide +kernel
  have hany : ((threeClips.compile fun _ _ ↦ none).toOption.any fun program ↦
      program.stages.any fun stage ↦ stage.filters.any fun filter ↦ filter.name == "xfade") =
      true := by
    decide +kernel
  rw [hp] at hany
  obtain ⟨stage, hs, hstage⟩ := List.any_eq_true.mp hany
  obtain ⟨filter, hf, hname⟩ := List.any_eq_true.mp hstage
  obtain ⟨-, -, left, right, name, duration, offset, -, -, -, hfilter, -, -, hbounds⟩ :=
    blends_inBounds_of_compile.2 hp hfinite stage hs filter hf (eq_of_beq hname)
  exact ⟨_, hp, hfinite, stage, hs, filter, hf, eq_of_beq hname, left, right, name, duration,
    offset, hfilter, hbounds⟩

end Montage
