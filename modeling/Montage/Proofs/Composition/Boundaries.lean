import Montage.Proofs.Compile.Layout
import Montage.Proofs.Composition.Windows

/-!
# Boundaries between clips

The windows of neighbouring clips meet in one boundary, which is the running sum of the lengths so
far. Every gate for a clip is written with the boundaries around it, and the gates of all clips
leave no instant out.
-/

namespace Montage.Composition

open Montage.Numeric

/-- The boundary before the clip with this number: where the clips so far end. -/
def boundary (composition : Composition) (clip : ℕ) : Binary64 :=
  (composition.durations.take clip).foldl (· + ·) 0

/-- The boundary as it is written. -/
def boundaryText (composition : Composition) (clip : ℕ) : String := num (composition.boundary clip)

/-- The gate of a clip as it is written: open from its first boundary up to but not including its
second one. -/
def gateText (composition : Composition) (clip : ℕ) : String :=
  Graph.quoted ("gte(t," ++ composition.boundaryText clip ++ ")*lt(t," ++
    composition.boundaryText (clip + 1) ++ ")")

/-- Whether an instant is in the stretch between two boundaries, as they are written. -/
def Between (start stop : String) (t : ℝ) : Prop :=
  (∃ first ∈ instant? start, first ≤ t) ∧ ∃ last ∈ instant? stop, t < last

variable {composition : Composition}

theorem boundaryText_zero (composition : Composition) : composition.boundaryText 0 = "0" := by
  show num 0 = "0"
  decide +kernel

/-- A boundary is where the clips before it end. -/
theorem boundary_eq (composition : Composition) (clip : ℕ) :
    composition.boundary clip = Timeline.startOf composition.durations clip := rfl

/-- The last boundary is the end of the composition. -/
theorem boundary_length (composition : Composition) :
    composition.boundary composition.clips.length = composition.timeline.totalDuration := by
  have hlength : composition.durations.length = composition.clips.length := List.length_map _
  rw [boundary_eq, ← hlength, Timeline.startOf_length]
  rfl

/-- The window of a clip is what lies between its boundaries. -/
theorem eq_boundary_of_window? {clip : ℕ} {window : TimeWindow}
    (h : composition.timeline.window? clip = some window) :
    window.start = composition.boundary clip ∧ window.stop = composition.boundary (clip + 1) := by
  rw [Timeline.window?, timeline, Timeline.getElem?_windowsOf] at h
  obtain ⟨duration, hd, rfl⟩ := Option.map_eq_some_iff.mp h
  exact ⟨rfl, (Timeline.startOf_succ hd).symm⟩

/-- Every clip has a window. -/
theorem exists_window? {clip : ℕ} (h : clip < composition.clips.length) :
    ∃ window, composition.timeline.window? clip = some window ∧
      window.start = composition.boundary clip ∧ window.stop = composition.boundary (clip + 1) := by
  have hlt : clip < composition.durations.length := by
    rwa [durations, List.length_map]
  obtain ⟨window, hw⟩ : ∃ window, composition.timeline.window? clip = some window := by
    rw [Timeline.window?, timeline, Timeline.getElem?_windowsOf, List.getElem?_eq_getElem hlt]
    exact ⟨_, rfl⟩
  exact ⟨window, hw, eq_boundary_of_window? hw⟩

/-- The gate of a window is written with the boundaries of its clip. -/
theorem quotedExpression_gate {clip : ℕ} {window : TimeWindow}
    (h : composition.timeline.window? clip = some window) :
    Decoration.quotedExpression window.gate = composition.gateText clip := by
  obtain ⟨hstart, hstop⟩ := eq_boundary_of_window? h
  have hgate : window.gate.render = "gte(" ++ "t" ++ "," ++ num window.start ++ ")" ++ "*" ++
      ("lt(" ++ "t" ++ "," ++ num window.stop ++ ")") := rfl
  rw [Decoration.quotedExpression, gateText, hgate, hstart, hstop, ← String.toList_inj]
  simp [boundaryText, Graph.quoted]

/-! ### The boundaries in order -/

namespace Accepted

theorem areLengths (h : composition.Accepted) : Timeline.AreLengths composition.durations :=
  h.duration_pos

theorem isLength_boundary (h : composition.Accepted) (clip : ℕ) :
    (composition.boundary clip).IsLength :=
  h.areLengths.isLength_startOf clip

theorem instant?_boundaryText (h : composition.Accepted) (clip : ℕ) :
    instant? (composition.boundaryText clip) = some (composition.boundary clip).instant :=
  Binary64.instant?_num (h.isLength_boundary clip)

theorem monotone_instant_boundary (h : composition.Accepted) :
    Monotone fun clip ↦ (composition.boundary clip).instant := by
  apply monotone_nat_of_le_succ
  intro clip
  obtain heq | ⟨duration, hfinite, hpos, heq⟩ := h.areLengths.startOf_succ_cases clip
  · rw [boundary_eq, boundary_eq, heq]
  · have hlength := h.isLength_boundary clip
    obtain ⟨-, hle, hf⟩ := hlength.add hfinite hpos
    rw [boundary_eq, boundary_eq, heq]
    exact Binary64.instant_le_instant hle hf

theorem between_iff (h : composition.Accepted) {i j : ℕ} {t : ℝ} :
    Between (composition.boundaryText i) (composition.boundaryText j) t ↔
      (composition.boundary i).instant ≤ t ∧ t < (composition.boundary j).instant := by
  simp [Between, h.instant?_boundaryText]

/-- Every instant of an accepted composition is in the stretch of one clip, and of no other. -/
theorem existsUnique_between (h : composition.Accepted) {clips : ℕ} {t : ℝ}
    (ht : Between (composition.boundaryText 0) (composition.boundaryText clips) t) :
    ∃! clip, clip < clips ∧
      Between (composition.boundaryText clip) (composition.boundaryText (clip + 1)) t := by
  obtain ⟨hfirst, hlast⟩ := h.between_iff.mp ht
  obtain ⟨clip, hlt, hclip⟩ :=
    exists_between_times (fun clip ↦ (composition.boundary clip).instant) hfirst hlast
  refine ⟨clip, ⟨hlt, h.between_iff.mpr hclip⟩, ?_⟩
  rintro other ⟨-, hother⟩
  exact eq_of_between_times h.monotone_instant_boundary (h.between_iff.mp hother) hclip

end Accepted

end Montage.Composition
