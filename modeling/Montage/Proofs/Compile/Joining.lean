import Montage.Proofs.Compile.Layout

/-!
# Stages that join

Each part of a program has filters of its own. The clips of a composition are joined in one part: no
stage of any other has a filter that joins streams or that transforms one for a transition.
-/

namespace Montage

open Montage.Graph

/-- The stage has no filter that joins streams or is the effect of a transition. -/
def Graph.Stage.JoinsNothing (stage : Stage) : Prop :=
  ∀ filter ∈ stage.filters, filter.name ∉ ["concat", "xfade", "rotate", "eq"]

/-- Such a stage has no filter with one of these names. -/
theorem Graph.Stage.JoinsNothing.notMem_names {stage : Stage} (h : stage.JoinsNothing)
    {name : String} (hn : name ∈ ["concat", "xfade", "rotate", "eq"]) :
    name ∉ stage.filters.map (·.name) := by
  intro hm
  obtain ⟨filter, hf, rfl⟩ := List.mem_map.mp hm
  exact h filter hf hn

/-- The names of its filters tell that a stage joins nothing. -/
theorem Graph.Stage.FiltersIn.joinsNothing {stage : Stage} {names : List String}
    (h : stage.FiltersIn names) (hn : ∀ name ∈ names, name ∉ ["concat", "xfade", "rotate", "eq"]) :
    stage.JoinsNothing :=
  fun filter hf ↦ hn filter.name (h filter hf)

/-! ### The filters of each part -/

theorem filtersIn_placedFragments (canvas : Canvas) (index : Nat) (clips : List Clip) :
    ∀ stage ∈ (placedFragments canvas index clips).flatMap (·.stages), stage.FiltersIn
      ["trim", "setpts", "scale", "pad", "setsar", "fps", "color", "overlay"] := by
  induction clips generalizing index with
  | nil => exact List.forall_mem_nil _
  | cons clip rest ih =>
    rw [placedFragments_cons, List.flatMap_cons]
    refine List.forall_mem_append.mpr ⟨?_, ih (index + 1)⟩
    have hclip : ["trim", "setpts", "scale", "pad", "setsar", "fps"] ⊆
        ["trim", "setpts", "scale", "pad", "setsar", "fps", "color", "overlay"] := by decide
    exact List.forall_mem_cons.mpr ⟨Stage.filtersIn_of_subset hclip,
      List.forall_mem_cons.mpr ⟨Stage.filtersIn_of_subset (by decide : ["color"] ⊆ _),
        List.forall_mem_singleton.mpr (Stage.filtersIn_of_subset (by decide : ["overlay"] ⊆ _))⟩⟩

private theorem JoinDrawn.filtersIn {pair : Nat} {left right : Label} {join : Transition.Join}
    {fragment : Fragment} (h : JoinDrawn pair left right join fragment) :
    ∀ stage ∈ fragment.stages, stage.FiltersIn ["concat", "xfade", "rotate", "eq"] := by
  have hblend : ["xfade"] ⊆ ["concat", "xfade", "rotate", "eq"] := by decide
  cases h with
  | concat =>
    exact List.forall_mem_singleton.mpr (Stage.filtersIn_of_subset (by decide : ["concat"] ⊆ _))
  | blend => exact List.forall_mem_singleton.mpr (Stage.filtersIn_of_subset hblend)
  | @edges effect =>
    cases effect with
    | spin =>
      have hedge : ["rotate"] ⊆ ["concat", "xfade", "rotate", "eq"] := by decide
      exact List.forall_mem_cons.mpr ⟨Stage.filtersIn_of_subset hedge,
        List.forall_mem_cons.mpr ⟨Stage.filtersIn_of_subset hedge,
          List.forall_mem_singleton.mpr (Stage.filtersIn_of_subset hblend)⟩⟩
    | flash =>
      have hedge : ["eq"] ⊆ ["concat", "xfade", "rotate", "eq"] := by decide
      exact List.forall_mem_cons.mpr ⟨Stage.filtersIn_of_subset hedge,
        List.forall_mem_cons.mpr ⟨Stage.filtersIn_of_subset hedge,
          List.forall_mem_singleton.mpr (Stage.filtersIn_of_subset hblend)⟩⟩

theorem ClipsJoined.filtersIn {setting : Option TransitionSetting} {timeline : Timeline}
    {first : Label} {others : List Label} {fragment : Fragment}
    (h : ClipsJoined setting timeline first others fragment) :
    ∀ stage ∈ fragment.stages, stage.FiltersIn ["concat", "xfade", "rotate", "eq"] := by
  cases h with
  | alone => exact List.forall_mem_nil _
  | cut =>
    exact List.forall_mem_singleton.mpr (Stage.filtersIn_of_subset (by decide : ["concat"] ⊆ _))
  | folded _ _ ht => exact Fragment.Threads.forall_stages (fun hj ↦ hj.filtersIn) ht

theorem filtersIn_soundtrack (composition : Composition) :
    ∀ stage ∈ stagesOf composition.soundtrack,
      stage.FiltersIn ["volume", "afade", "atrim", "asetpts"] := by
  unfold Composition.soundtrack
  cases composition.music with
  | none => exact List.forall_mem_nil _
  | some music =>
    refine List.forall_mem_singleton.mpr (Stage.filtersIn_of_subset ?_)
    cases hi : music.fadeIn <;> cases ho : music.fadeOut <;>
      simp [Soundtrack.musicStage, Stage.chain, Soundtrack.fadeIn, Soundtrack.fadeOut,
        Soundtrack.volume, hi, ho]

theorem filtersIn_format (input output : Label) :
    (Stage.chain input [pixelFormatFilter] output).FiltersIn ["format"] :=
  List.forall_mem_singleton.mpr List.mem_cons_self

namespace Decoration

/-- The names of the filters that decorations are drawn with. -/
def filterNames : List String := ["drawtext", "drawbox", "color", "overlay"]

variable {scene : Scene} {index : Nat} {input : Label} {fragment : Fragment}

private theorem CaptionDrawn.filtersIn {caption : Caption}
    (h : CaptionDrawn scene index caption input fragment) :
    ∀ stage ∈ fragment.stages, stage.FiltersIn filterNames := by
  cases h with
  | drawn _ hf =>
    refine List.forall_mem_singleton.mpr (List.forall_mem_singleton.mpr ?_)
    rw [name_of_captionFilter hf]
    exact List.mem_cons_self

private theorem OverlayDrawn.filtersIn {overlay : Overlay}
    (h : OverlayDrawn scene index overlay input fragment) :
    ∀ stage ∈ fragment.stages, stage.FiltersIn filterNames := by
  cases h with
  | bar =>
    have hbar : ["color", "overlay"] ⊆ filterNames := by decide
    exact fun stage hs filter hm ↦
      hbar (filtersIn_progressBarStages scene _ _ _ _ stage hs filter hm)
  | chain hk hf =>
    have hdraws : ["drawtext", "drawbox"] ⊆ filterNames := by decide
    exact List.forall_mem_singleton.mpr fun filter hm ↦
      hdraws (names_of_overlayFilters hk hf filter hm)

private theorem TitleDrawn.filtersIn {title : Option Title}
    (h : TitleDrawn scene title input fragment) :
    ∀ stage ∈ fragment.stages, stage.FiltersIn filterNames := by
  cases h with
  | hidden => exact List.forall_mem_nil _
  | drawn _ _ hf =>
    refine List.forall_mem_singleton.mpr (List.forall_mem_singleton.mpr ?_)
    rw [name_of_titleFilter hf]
    exact List.mem_cons_self

private theorem BadgesDrawn.filtersIn {ranking : Option Ranking}
    (h : BadgesDrawn scene ranking input fragment) :
    ∀ stage ∈ fragment.stages, stage.FiltersIn filterNames := by
  have hdraws : ["drawtext", "drawbox"] ⊆ filterNames := by decide
  cases h with
  | hidden => exact List.forall_mem_nil _
  | drawn _ _ ht =>
    refine Fragment.Threads.forall_stages (fun hb ↦ ?_) ht
    cases hb with
    | drawn _ hf =>
      exact List.forall_mem_singleton.mpr fun filter hm ↦
        hdraws (names_of_badgeFilters hf filter hm)

end Decoration

/-! ### Between the stages that join -/

/-- The stages that join the clips stand between stages that join nothing. -/
theorem Parts.Fit.exists_split {fonts : FontResolver} {composition : Composition}
    {parts : Parts} (h : parts.Fit fonts composition) :
    ∃ before after : List Stage,
      (parts.program composition).stages = before ++ parts.joined.stages ++ after ∧
      (∀ stage ∈ before, stage.JoinsNothing) ∧ ∀ stage ∈ after, stage.JoinsNothing := by
  have hdraws : ∀ stage : Stage, stage.FiltersIn Decoration.filterNames → stage.JoinsNothing :=
    fun stage hs ↦ hs.joinsNothing (by decide)
  have hcaptions := Fragment.Threads.forall_stages (fun hc ↦ hc.filtersIn) h.captions
  have hoverlays := Fragment.Threads.forall_stages (fun ho ↦ ho.filtersIn) h.overlays
  refine ⟨_, parts.captions.stages ++ (parts.overlays.stages ++ (parts.title.stages ++
    (parts.badges.stages ++ (stagesOf composition.soundtrack ++
      [.chain parts.badges.output [pixelFormatFilter] (.named .videoOut)])))), ?_,
    fun stage hs ↦ (filtersIn_placedFragments (composition.canvas parts.background) 0
      composition.clips stage hs).joinsNothing (by decide), ?_⟩
  · simp only [Parts.program, List.append_assoc]
  · simp only [List.forall_mem_append, List.forall_mem_singleton]
    exact ⟨fun stage hs ↦ hdraws stage (hcaptions stage hs),
      fun stage hs ↦ hdraws stage (hoverlays stage hs),
      fun stage hs ↦ hdraws stage (h.title.filtersIn stage hs),
      fun stage hs ↦ hdraws stage (h.badges.filtersIn stage hs),
      fun stage hs ↦ (filtersIn_soundtrack composition stage hs).joinsNothing (by decide),
      (filtersIn_format _ _).joinsNothing (by decide)⟩

/-- Only the stages that join the clips join anything. -/
theorem Parts.Fit.joinsNothing_or {fonts : FontResolver} {composition : Composition}
    {parts : Parts} (h : parts.Fit fonts composition) :
    ∀ stage ∈ (parts.program composition).stages,
      stage.JoinsNothing ∨ stage ∈ parts.joined.stages := by
  obtain ⟨before, after, hsplit, hbefore, hafter⟩ := h.exists_split
  intro stage hs
  rw [hsplit, List.mem_append, List.mem_append] at hs
  rcases hs with (hs | hs) | hs
  · exact Or.inl (hbefore stage hs)
  · exact Or.inr hs
  · exact Or.inl (hafter stage hs)

end Montage
