import Montage.Proofs.Compile.DrawingOrder
import Montage.Proofs.Composition.Boundaries
import Montage.Proofs.Decoration.Gates

/-!
# One timeline for captions and badges

Captions and badges are drawn by different builders, each of which writes the windows of its clips
for itself. The gates that they write are those of one list of boundaries, which the badges take in
turn, so that one badge is to be seen at every instant.
-/

namespace Montage

open Montage.Numeric (num)
open Montage.Graph
open Montage.Decoration (Drawn Layer)

namespace Composition

/-- The gates of captions and badges are those of the clips, and the gates of the clips share the
time of the composition among them. -/
structure SharesTimeline (composition : Composition) (program : Program) : Prop where
  first : composition.boundaryText 0 = "0"
  last : composition.boundaryText composition.clips.length = num program.totalDuration
  /-- Each caption has one filter with one gate, that of its clip. -/
  captions : (program.stagesFor .caption).map (·.gates) =
    composition.captions.map fun caption ↦ [[composition.gateText caption.clipIndex]]
  captions_lt : ∀ caption ∈ composition.captions, caption.clipIndex < composition.clips.length
  /-- Both filters of each badge have one gate, that of its clip. -/
  badges : ∀ ranking ∈ composition.ranking, ranking.enabled = true →
    (program.stagesFor .badge).map (·.gates) = (List.range composition.clips.length).map
      fun clip ↦ [[composition.gateText clip], [composition.gateText clip]]
  ordinals : ∀ ranking ∈ composition.ranking, ranking.enabled = true →
    (program.stagesFor .badge).map (·.texts) =
      (if ranking.countdown then (List.range' 1 composition.clips.length).reverse
        else List.range' 1 composition.clips.length).map fun ordinal ↦ [quoted (toString ordinal)]
  unranked : (∀ ranking ∈ composition.ranking, ranking.enabled = false) →
    program.stagesFor .badge = []
  /-- The boundaries can be read, and none is before the one that it follows. -/
  ordered : ∀ i j, i ≤ j → ∃ before ∈ Numeric.instant? (composition.boundaryText i),
    ∃ after ∈ Numeric.instant? (composition.boundaryText j), before ≤ after
  /-- Every instant from the first boundary to the last is between those of one clip. -/
  shown : ∀ t : ℝ,
    Between (composition.boundaryText 0) (composition.boundaryText composition.clips.length) t →
      ∃! clip, clip < composition.clips.length ∧
        Between (composition.boundaryText clip) (composition.boundaryText (clip + 1)) t

variable {composition : Composition}

/-- The gates of a caption or a badge, filter by filter. -/
def layerGates (composition : Composition) : Layer → List (List (List String))
  | .caption _ caption => [[[composition.gateText caption.clipIndex]]]
  | .badge clip _ => [[[composition.gateText clip], [composition.gateText clip]]]
  | _ => []

/-- The text of a badge. -/
def badgeTexts (composition : Composition) : Layer → List (List String)
  | .badge clip ranking =>
    [[quoted (toString (Decoration.ordinal ranking.countdown composition.clips.length clip))]]
  | _ => []

theorem filter_role_caption (composition : Composition) :
    composition.layers.filter (·.role == .caption) =
      composition.captions.zipIdx.map fun p ↦ .caption p.2 p.1 := by
  simp [layers, List.filter_append, List.filter_map, Function.comp_def, Layer.role,
    Decoration.titleLayers, Decoration.badgeLayers, List.filter_flatMap]

/-- What each caption shows, in order. -/
theorem flatMap_filter_role_caption (composition : Composition) {α : Type} {shown : Layer → List α}
    {shape : Caption → α} (h : ∀ index caption, shown (.caption index caption) = [shape caption]) :
    (composition.layers.filter (·.role == .caption)).flatMap shown =
      composition.captions.map shape := by
  have hcaptions : composition.captions.map shape =
      (composition.captions.zipIdx.map Prod.fst).map shape := by
    rw [List.zipIdx_map_fst]
  rw [filter_role_caption, List.flatMap_map, hcaptions, List.map_map, List.map_eq_flatMap]
  exact List.flatMap_congr fun p _ ↦ h p.2 p.1

theorem filter_role_badge (composition : Composition) :
    composition.layers.filter (·.role == .badge) =
      Decoration.badgeLayers composition.ranking composition.clips.length := by
  have hroles : (Role.caption == .badge) = false ∧ (Role.overlay == .badge) = false ∧
      (Role.title == .badge) = false := by
    decide
  simp [layers, List.filter_append, List.filter_map, Function.comp_def, Layer.role,
    Decoration.titleLayers, Decoration.badgeLayers, List.filter_flatMap, hroles]

variable {fonts : FontResolver} {layer : Layer} {drawn : Drawn}

/-- Captions and badges are gated to their clips. -/
theorem gates_drawn (hr : layer.role = .caption ∨ layer.role = .badge)
    (h : layer.DrawnBy (composition.scene fonts) drawn) :
    drawn.stages.map (·.gates) = composition.layerGates layer := by
  cases h with
  | caption hw hf _ =>
    rw [layerGates, ← quotedExpression_gate hw, ← Decoration.gates_captionFilter hf]
    rfl
  | badge hw _ hf =>
    rw [layerGates, ← quotedExpression_gate hw, ← Decoration.gates_badgeFilters hf]
    rfl
  | bar => rcases hr with hr | hr <;> cases hr
  | overlay => rcases hr with hr | hr <;> cases hr
  | title => rcases hr with hr | hr <;> cases hr

theorem texts_drawn (hr : layer.role = .badge)
    (h : layer.DrawnBy (composition.scene fonts) drawn) :
    drawn.stages.map (·.texts) = composition.badgeTexts layer := by
  cases h with
  | badge _ _ hf =>
    have htexts := Decoration.texts_badgeFilters hf
    have hsize : (composition.scene fonts).timeline.size = composition.clips.length :=
      Accepted.size_timeline composition
    rw [hsize] at htexts
    rw [badgeTexts, ← htexts]
    rfl
  | caption => cases hr
  | bar => cases hr
  | overlay => cases hr
  | title => cases hr

end Composition

namespace Decoration

/-- What the stages for a role show is what the layers of that role show. -/
theorem map_filter_drawn {scene : Scene} {layers : List Layer} {drawn : List Drawn}
    (h : List.Forall₂ (Layer.DrawnBy scene) layers drawn) {role : Role}
    (hr : role = .caption ∨ role = .badge) {α : Type} {observe : Stage → α}
    {shown : Layer → List α}
    (hs : ∀ layer drawing, layer.role = role → layer.DrawnBy scene drawing →
      drawing.stages.map observe = shown layer) :
    ((drawn.flatMap (·.stages)).filter (·.writesRole role)).map observe =
      (layers.filter (·.role == role)).flatMap shown := by
  induction h with
  | nil => rfl
  | @cons layer drawing layers drawn hfirst _ ih =>
    rw [List.flatMap_cons, List.filter_append, List.map_append, ih, hfirst.filter_writesRole hr,
      List.filter_cons]
    by_cases hrole : layer.role = role
    · rw [if_pos hrole, if_pos (beq_iff_eq.mpr hrole), hs layer drawing hrole hfirst,
        List.flatMap_cons]
    · rw [if_neg hrole, if_neg (mt beq_iff_eq.mp hrole)]
      rfl

theorem flatMap_badgeLayers {ranking : Ranking} (h : ranking.enabled = true) (clips : ℕ)
    {α : Type} (shown : Layer → List α) :
    (badgeLayers (some ranking) clips).flatMap shown =
      (List.range clips).flatMap fun clip ↦ shown (.badge clip ranking) := by
  simp [badgeLayers, h, List.flatMap_map]

/-- The ordinals count up from one, or down to it. -/
theorem map_ordinal (countdown : Bool) (clips : ℕ) :
    (List.range clips).map (ordinal countdown clips) =
      if countdown then (List.range' 1 clips).reverse else List.range' 1 clips := by
  cases countdown with
  | false =>
    rw [if_neg Bool.false_ne_true, List.range'_eq_map_range]
    exact List.map_congr_left fun clip _ ↦ Nat.add_comm clip 1
  | true =>
    rw [if_pos rfl, List.reverse_range']
    refine List.map_congr_left fun clip _ ↦ ?_
    show clips - clip = 1 + clips - 1 - clip
    rw [Nat.add_sub_cancel_left]

end Decoration

namespace Parts.Fit

variable {fonts : FontResolver} {composition : Composition} {parts : Parts}

/-- Captions and badges are drawn where the layers are, and nowhere else. -/
theorem map_stagesFor (h : parts.Fit fonts composition) {role : Role}
    (hr : role = .caption ∨ role = .badge) {α : Type} {observe : Stage → α}
    {shown : Layer → List α}
    (hs : ∀ layer drawing, layer.role = role → layer.DrawnBy (composition.scene fonts) drawing →
      drawing.stages.map observe = shown layer) :
    ((parts.program composition).stagesFor role).map observe =
      (composition.layers.filter (·.role == role)).flatMap shown := by
  obtain ⟨drawn, hdrawn, hstages, -⟩ := h.draws
  have hclip : role ∉ [.clip, .canvas, .placed] := by
    rcases hr with rfl | rfl <;> decide
  have hjoin : role ∉ [.join, .edge] := by
    rcases hr with rfl | rfl <;> decide
  have haudio : role ∉ [.audioOut] := by
    rcases hr with rfl | rfl <;> decide
  have hplaced := (placed_segment (composition.canvas parts.background)
    composition.clips).filter_writesRole hclip
  have hjoined := (h.joined.segment rfl fun l ↦ isPad_of_mem_placedLabels).filter_writesRole hjoin
  have hmusic := (soundtrack_segment composition).filter_writesRole haudio
  have hformat : [Stage.chain parts.badges.output [pixelFormatFilter]
      (.named .videoOut)].filter (·.writesRole role) = [] := by
    rcases hr with rfl | rfl <;> rfl
  have hall : (parts.program composition).stagesFor role =
      parts.decorated.stages.filter (·.writesRole role) := by
    simp only [Program.stagesFor, program, List.filter_append, hplaced, hjoined, hmusic, hformat,
      List.nil_append, List.append_nil, decorated]
  rw [hall, hstages]
  exact Decoration.map_filter_drawn hdrawn hr hs

theorem gates_captions (h : parts.Fit fonts composition) :
    ((parts.program composition).stagesFor .caption).map (·.gates) =
      composition.captions.map fun caption ↦ [[composition.gateText caption.clipIndex]] := by
  rw [h.map_stagesFor (.inl rfl) fun layer drawing hr ↦ Composition.gates_drawn (.inl hr)]
  exact composition.flatMap_filter_role_caption fun _ _ ↦ rfl

theorem gates_badges (h : parts.Fit fonts composition) {ranking : Ranking}
    (hr : composition.ranking = some ranking) (he : ranking.enabled = true) :
    ((parts.program composition).stagesFor .badge).map (·.gates) =
      (List.range composition.clips.length).map
        fun clip ↦ [[composition.gateText clip], [composition.gateText clip]] := by
  rw [h.map_stagesFor (.inr rfl) fun layer drawing hr ↦ Composition.gates_drawn (.inr hr),
    Composition.filter_role_badge, hr, Decoration.flatMap_badgeLayers he]
  exact List.map_eq_flatMap.symm

theorem texts_badges (h : parts.Fit fonts composition) {ranking : Ranking}
    (hr : composition.ranking = some ranking) (he : ranking.enabled = true) :
    ((parts.program composition).stagesFor .badge).map (·.texts) =
      (if ranking.countdown then (List.range' 1 composition.clips.length).reverse
        else List.range' 1 composition.clips.length).map fun ordinal ↦
          [quoted (toString ordinal)] := by
  rw [h.map_stagesFor (.inr rfl) fun layer drawing hr ↦ Composition.texts_drawn hr,
    Composition.filter_role_badge, hr, Decoration.flatMap_badgeLayers he, ← Decoration.map_ordinal,
    List.map_map]
  exact List.map_eq_flatMap.symm

theorem stagesFor_badge_of_unranked (h : parts.Fit fonts composition)
    (hu : ∀ ranking ∈ composition.ranking, ranking.enabled = false) :
    (parts.program composition).stagesFor .badge = [] := by
  have hnone : Decoration.badgeLayers composition.ranking composition.clips.length = [] := by
    cases hr : composition.ranking with
    | none => rfl
    | some ranking => simp [Decoration.badgeLayers, hu ranking hr]
  have hgates := h.map_stagesFor (.inr rfl) fun layer drawing hr ↦
    Composition.gates_drawn (.inr hr)
  rw [Composition.filter_role_badge, hnone, List.flatMap_nil] at hgates
  exact List.map_eq_nil_iff.mp hgates

/-- Captions and badges are gated by the boundaries between the clips. -/
theorem sharesTimeline (h : parts.Fit fonts composition) (ha : composition.Accepted) :
    composition.SharesTimeline (parts.program composition) where
  first := composition.boundaryText_zero
  last := congrArg num composition.boundary_length
  captions := h.gates_captions
  captions_lt caption hc := (ha.captions caption hc).clipIndex
  badges _ := h.gates_badges
  ordinals _ := h.texts_badges
  unranked := h.stagesFor_badge_of_unranked
  ordered i j hij :=
    ⟨_, ha.instant?_boundaryText i, _, ha.instant?_boundaryText j, ha.monotone_instant_boundary hij⟩
  shown _ := ha.existsUnique_between

end Parts.Fit

/-- An accepted composition is compiled unless its badges have no place, and the captions and badges
of its program share the timeline of its clips. -/
theorem compile_sharesTimeline {composition : Composition} (h : composition.check = .ok ())
    (fonts : FontResolver) :
    (composition.BadgesInRange → ∃ program, composition.compile fonts = .ok program) ∧
      ∀ program, composition.compile fonts = .ok program → composition.SharesTimeline program := by
  refine ⟨Composition.exists_program_of_check h fonts, fun program hp ↦ ?_⟩
  obtain ⟨ha, parts, hfit, rfl⟩ := Composition.exists_parts_of_compile hp
  exact hfit.sharesTimeline ha

theorem compile_sharesTimeline_decoratedClips :
    decoratedClips.check = .ok () ∧
      ∃ program, decoratedClips.compile (fun _ _ ↦ none) = .ok program ∧
        decoratedClips.SharesTimeline program ∧
        (program.stagesFor .caption).map (·.gates) =
          [[["'gte(t,10)*lt(t,13)'"]], [["'gte(t,0)*lt(t,4)'"]]] ∧
        (program.stagesFor .badge).map (·.texts) = [["'3'"], ["'2'"], ["'1'"]] := by
  have hcheck : decoratedClips.check = .ok () := (Composition.check_eq_ok_iff decoratedClips).mpr
    (Composition.accepted_of_toOption (by decide +kernel))
  obtain ⟨hcompiles, hshared⟩ := compile_sharesTimeline hcheck fun _ _ ↦ none
  obtain ⟨program, hp⟩ := hcompiles (by decide +kernel)
  have hshares := hshared program hp
  refine ⟨hcheck, program, hp, hshares, hshares.captions.trans ?_,
    (hshares.ordinals _ rfl rfl).trans ?_⟩ <;> decide +kernel

end Montage
