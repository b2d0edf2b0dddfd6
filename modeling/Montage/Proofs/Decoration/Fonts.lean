import Montage.Proofs.Decoration.Drawing

/-!
# Fonts of drawn texts

A drawn text looks its font up once, and the answer becomes one option: a file or a family. Without
these options nothing that a decoration draws tells which fonts are installed.
-/

namespace Montage

open Montage.Graph

namespace Graph

/-- The stage with its filters seen through a view. -/
def Stage.mapFilters (view : Filter → Filter) (stage : Stage) : Stage :=
  { stage with filters := stage.filters.map view }

/-- The fragment with its filters seen through a view. -/
def Fragment.mapFilters (view : Filter → Filter) (fragment : Fragment) : Fragment :=
  ⟨fragment.stages.map (·.mapFilters view), fragment.output⟩

@[simp] theorem Stage.mapFilters_id (stage : Stage) : stage.mapFilters id = stage := by
  rw [mapFilters, List.map_id]

@[simp] theorem Fragment.mapFilters_id (fragment : Fragment) :
    fragment.mapFilters id = fragment := by
  simp [mapFilters]

/-- Fragments end to end are alike if the fragment of each item is. -/
theorem Fragment.Threads.alike {α : Type} {view : Filter → Filter}
    {shape shape' : Nat → α → Label → Fragment → Prop}
    {index : Nat} {items : List α} {input : Label} {fragment fragment' : Fragment}
    (h : Threads shape index items input fragment)
    (h' : Threads shape' index items input fragment')
    (hs : ∀ index item input fragment fragment', shape index item input fragment →
      shape' index item input fragment' → fragment.mapFilters view = fragment'.mapFilters view) :
    fragment.mapFilters view = fragment'.mapFilters view := by
  induction h generalizing fragment' with
  | nil =>
    cases h'
    rfl
  | cons hf _ ih =>
    cases h' with
    | cons hf' hrest' =>
      obtain ⟨hstages, houtput⟩ := Fragment.mk.inj (hs _ _ _ _ _ hf hf')
      obtain ⟨hothers, hlast⟩ := Fragment.mk.inj (ih (houtput ▸ hrest'))
      simp only [Fragment.mapFilters, List.map_append, hstages, hothers, hlast]

/-- Whether an option chooses a font, by file or by family. -/
def FilterOption.isFont (option : FilterOption) : Bool :=
  option.key == some "fontfile" || option.key == some "font"

/-- Where the options of a filter choose a font. -/
def Filter.fontPositions (filter : Filter) : List Nat := filter.options.findIdxs (·.isFont)

/-- A drawn text without the options that choose its font; any other filter as it is. -/
def Filter.eraseFont (filter : Filter) : Filter :=
  if filter.name = "drawtext" then
    { filter with options := filter.options.filter (!·.isFont) }
  else filter

/-- Each text that the stage draws has its font in its third option and nowhere else. -/
def Stage.FontsInPlace (stage : Stage) : Prop :=
  ∀ filter ∈ stage.filters, filter.name = "drawtext" → filter.fontPositions = [2]

theorem Stage.DrawsNoText.fontsInPlace {stage : Stage} (h : stage.DrawsNoText) :
    stage.FontsInPlace :=
  fun filter hf hname ↦ absurd hname (h filter hf)

end Graph

namespace Decoration

/-- Through the view no text shows in which of two resolvers its font was looked up. -/
def IgnoresFonts (view : Filter → Filter) (scene : Scene) (fonts : FontResolver) : Prop :=
  ∀ text family bold options, view (drawText scene text family bold options) =
    view (drawText { scene with fonts } text family bold options)

theorem ignoresFonts_id (scene : Scene) : IgnoresFonts id scene scene.fonts :=
  fun _ _ _ _ ↦ rfl

section Alike

variable {view : Filter → Filter} {scene : Scene} {fonts : FontResolver} {index : Nat}
  {input : Label} {fragment fragment' : Fragment}

private theorem mapFilters_chained {filters filters' : List Filter} (request : LabelRequest)
    (h : filters.map view = filters'.map view) :
    (chained input filters request).mapFilters view =
      (chained input filters' request).mapFilters view := by
  simp only [chained, Fragment.single, Stage.chain, Fragment.mapFilters, Stage.mapFilters,
    List.map_cons, List.map_nil, h]

private theorem view_captionFilter (hv : IgnoresFonts view scene fonts) {caption : Caption}
    {window : TimeWindow} {filter filter' : Filter}
    (h : captionFilter scene caption window = .ok filter)
    (h' : captionFilter { scene with fonts } caption window = .ok filter') :
    view filter = view filter' := by
  obtain ⟨color, -, h, h'⟩ := exists_of_binds_eq_ok h h'
  obtain ⟨box, -, h, h'⟩ := exists_of_binds_eq_ok h h'
  obtain rfl := Except.ok.inj h
  obtain rfl := Except.ok.inj h'
  exact hv _ _ _ _

theorem CaptionDrawn.alike (hv : IgnoresFonts view scene fonts) {caption : Caption}
    (h : CaptionDrawn scene index caption input fragment)
    (h' : CaptionDrawn { scene with fonts } index caption input fragment') :
    fragment.mapFilters view = fragment'.mapFilters view := by
  cases h with
  | drawn hw hf =>
    cases h' with
    | drawn hw' hf' =>
      obtain rfl := Option.some.inj (hw.symm.trans hw')
      refine mapFilters_chained _ ?_
      rw [List.map_singleton, List.map_singleton, view_captionFilter hv hf hf']

private theorem map_overlayFilters (hv : IgnoresFonts view scene fonts) {overlay : Overlay}
    {window : TimeWindow} {filters filters' : List Filter}
    (h : overlayFilters scene overlay window = .ok filters)
    (h' : overlayFilters { scene with fonts } overlay window = .ok filters') :
    filters.map view = filters'.map view := by
  unfold overlayFilters at h h'
  cases hk : overlay.kind <;> simp only [hk] at h h'
  case text =>
    obtain ⟨color, -, h, h'⟩ := exists_of_binds_eq_ok h h'
    obtain rfl := Except.ok.inj h
    obtain rfl := Except.ok.inj h'
    exact congrArg (fun filter ↦ [filter]) (hv _ _ _ _)
  case watermark =>
    obtain ⟨color, -, h, h'⟩ := exists_of_binds_eq_ok h h'
    obtain rfl := Except.ok.inj h
    obtain rfl := Except.ok.inj h'
    exact congrArg (fun filter ↦ [filter]) (hv _ _ _ _)
  all_goals
    obtain ⟨bar, -, h, h'⟩ := exists_of_binds_eq_ok h h'
    obtain ⟨color, -, h, h'⟩ := exists_of_binds_eq_ok h h'
    obtain rfl := Except.ok.inj h
    obtain rfl := Except.ok.inj h'
    exact congrArg (fun filter ↦ [view _, filter]) (hv _ _ _ _)

theorem OverlayDrawn.alike (hv : IgnoresFonts view scene fonts) {overlay : Overlay}
    (h : OverlayDrawn scene index overlay input fragment)
    (h' : OverlayDrawn { scene with fonts } index overlay input fragment') :
    fragment.mapFilters view = fragment'.mapFilters view := by
  cases h with
  | bar hk hc =>
    cases h' with
    | bar _ hc' =>
      obtain rfl := Except.ok.inj (hc.symm.trans hc')
      rfl
    | chain hk' => exact absurd hk hk'
  | chain hk hf =>
    cases h' with
    | bar hk' => exact absurd hk' hk
    | chain _ hf' => exact mapFilters_chained _ (map_overlayFilters hv hf hf')

private theorem view_titleFilter (hv : IgnoresFonts view scene fonts) {title : Title}
    {filter filter' : Filter} (h : titleFilter scene title = .ok filter)
    (h' : titleFilter { scene with fonts } title = .ok filter') : view filter = view filter' := by
  obtain ⟨color, -, h, h'⟩ := exists_of_binds_eq_ok h h'
  obtain ⟨stroke, -, h, h'⟩ := exists_of_binds_eq_ok h h'
  obtain rfl := Except.ok.inj h
  obtain rfl := Except.ok.inj h'
  exact hv _ _ _ _

theorem TitleDrawn.alike (hv : IgnoresFonts view scene fonts) {title : Option Title}
    (h : TitleDrawn scene title input fragment)
    (h' : TitleDrawn { scene with fonts } title input fragment') :
    fragment.mapFilters view = fragment'.mapFilters view := by
  cases h with
  | hidden hb =>
    cases h' with
    | hidden => rfl
    | drawn ht ht' =>
      rw [hb _ ht] at ht'
      cases ht'
  | drawn ht hb hf =>
    cases h' with
    | hidden hb' =>
      rw [hb' _ ht] at hb
      cases hb
    | drawn ht' _ hf' =>
      obtain rfl := Option.some.inj (ht.symm.trans ht')
      refine mapFilters_chained _ ?_
      rw [List.map_singleton, List.map_singleton, view_titleFilter hv hf hf']

private theorem map_badgeFilters (hv : IgnoresFonts view scene fonts) {ranking : Ranking}
    {badge : Geometry.BadgePlacement} {ordinal : Nat} {window : TimeWindow}
    {filters filters' : List Filter}
    (h : badgeFilters scene ranking badge ordinal window = .ok filters)
    (h' : badgeFilters { scene with fonts } ranking badge ordinal window = .ok filters') :
    filters.map view = filters'.map view := by
  obtain ⟨square, -, h, h'⟩ := exists_of_binds_eq_ok h h'
  obtain ⟨color, -, h, h'⟩ := exists_of_binds_eq_ok h h'
  obtain rfl := Except.ok.inj h
  obtain rfl := Except.ok.inj h'
  exact congrArg (fun filter ↦ [view _, filter]) (hv _ _ _ _)

theorem BadgeDrawn.alike (hv : IgnoresFonts view scene fonts) {ranking : Ranking}
    {window : TimeWindow} (h : BadgeDrawn scene ranking index window input fragment)
    (h' : BadgeDrawn { scene with fonts } ranking index window input fragment') :
    fragment.mapFilters view = fragment'.mapFilters view := by
  cases h with
  | drawn hb hf =>
    cases h' with
    | drawn hb' hf' =>
      obtain rfl := Option.some.inj (hb.symm.trans hb')
      exact mapFilters_chained _ (map_badgeFilters hv hf hf')

theorem BadgesDrawn.alike (hv : IgnoresFonts view scene fonts) {ranking : Option Ranking}
    (h : BadgesDrawn scene ranking input fragment)
    (h' : BadgesDrawn { scene with fonts } ranking input fragment') :
    fragment.mapFilters view = fragment'.mapFilters view := by
  cases h with
  | hidden he =>
    cases h' with
    | hidden => rfl
    | drawn hr he' =>
      rw [he _ hr] at he'
      cases he'
  | drawn hr he ht =>
    cases h' with
    | hidden he' =>
      rw [he' _ hr] at he
      cases he
    | drawn hr' _ ht' =>
      obtain rfl := Option.some.inj (hr.symm.trans hr')
      exact ht.alike ht' fun _ _ _ _ _ h h' ↦ BadgeDrawn.alike hv h h'

end Alike

variable {scene : Scene}

private theorem isFont_fontOption (scene : Scene) (family : String) (bold : Bool) :
    (fontOption scene family bold).isFont = true := by
  unfold fontOption
  split <;> rfl

/-- Without its font a text is drawn alike for all fonts. -/
theorem ignoresFonts_eraseFont (scene : Scene) (fonts : FontResolver) :
    IgnoresFonts Filter.eraseFont scene fonts := by
  have herased : ∀ scene text family bold options,
      (drawText scene text family bold options).eraseFont =
        ⟨"drawtext", [opt "text" (quoted text), opt "expansion" "none"] ++
          options.filter (!·.isFont)⟩ := by
    intro scene text family bold options
    have hfont : ¬ (!(fontOption scene family bold).isFont) = true := by
      simp [isFont_fontOption]
    have hskip : (fontOption scene family bold :: options).filter (!·.isFont) =
        options.filter (!·.isFont) := List.filter_cons_of_neg hfont
    rw [← hskip]
    rfl
  intro text family bold options
  rw [herased, herased]

/-- A text has one font, unless its own options choose another. -/
private theorem fontPositions_drawText {text family : String} {bold : Bool}
    {options : List FilterOption} (h : ∀ option ∈ options, option.isFont = false) :
    (drawText scene text family bold options).fontPositions = [2] := by
  have htext : (opt "text" (quoted text)).isFont = false := rfl
  have hexpansion : (opt "expansion" "none").isFont = false := rfl
  have hfont := isFont_fontOption scene family bold
  have hnone : options.findIdxs (·.isFont) 3 = [] := List.findIdxs_eq_nil_iff.mpr h
  simp [Filter.fontPositions, drawText, htext, hexpansion, hfont, hnone]

private theorem isFont_eq_false_of_all {options : List FilterOption}
    (h : options.all (!·.isFont) = true) : ∀ option ∈ options, option.isFont = false := by
  simpa using h

theorem fontPositions_captionFilter {caption : Caption} {window : TimeWindow} {filter : Filter}
    (h : captionFilter scene caption window = .ok filter) : filter.fontPositions = [2] := by
  obtain ⟨color, boxColor, -, -, rfl⟩ := exists_of_captionFilter h
  refine fontPositions_drawText (isFont_eq_false_of_all ?_)
  unfold captionFade
  split <;> rfl

theorem fontPositions_titleFilter {title : Title} {filter : Filter}
    (h : titleFilter scene title = .ok filter) : filter.fontPositions = [2] := by
  obtain ⟨color, stroke, -, hs, rfl⟩ := exists_of_titleFilter h
  have hstroke : stroke.all (!·.isFont) = true := by
    rcases strokeOptions_cases hs with rfl | ⟨text, strokeColor, -, rfl⟩ <;> rfl
  refine fontPositions_drawText (isFont_eq_false_of_all (List.all_append.trans ?_))
  rw [hstroke]
  rfl

/-- What an overlay that is one chain draws: its text, after a box at most. -/
theorem fontPositions_overlayFilters {overlay : Overlay} {window : TimeWindow}
    {filters : List Filter} (hk : overlay.kind ≠ .progressBar)
    (h : overlayFilters scene overlay window = .ok filters) :
    ∀ filter ∈ filters, filter.name = "drawtext" → filter.fontPositions = [2] := by
  cases overlayWritten_of_overlayFilters hk h with
  | text =>
    exact List.forall_mem_singleton.mpr fun _ ↦
      fontPositions_drawText (isFont_eq_false_of_all rfl)
  | watermark =>
    exact List.forall_mem_singleton.mpr fun _ ↦
      fontPositions_drawText (isFont_eq_false_of_all rfl)
  | lowerThird =>
    have hbox : "drawbox" ≠ "drawtext" := by decide
    exact List.forall_mem_cons.mpr ⟨fun hname ↦ absurd hname hbox,
      List.forall_mem_singleton.mpr fun _ ↦ fontPositions_drawText (isFont_eq_false_of_all rfl)⟩

theorem fontPositions_badgeFilters {ranking : Ranking} {badge : Geometry.BadgePlacement}
    {ordinal : Nat} {window : TimeWindow} {filters : List Filter}
    (h : badgeFilters scene ranking badge ordinal window = .ok filters) :
    ∀ filter ∈ filters, filter.name = "drawtext" → filter.fontPositions = [2] := by
  obtain ⟨squareColor, textColor, -, -, rfl⟩ := exists_of_badgeFilters h
  have hbox : "drawbox" ≠ "drawtext" := by decide
  exact List.forall_mem_cons.mpr ⟨fun hname ↦ absurd hname hbox,
    List.forall_mem_singleton.mpr fun _ ↦ fontPositions_drawText (isFont_eq_false_of_all rfl)⟩

/-! ### What is drawn has its fonts in place -/

variable {index : Nat} {input : Label} {fragment : Fragment}

theorem CaptionDrawn.fontsInPlace {caption : Caption}
    (h : CaptionDrawn scene index caption input fragment) :
    ∀ stage ∈ fragment.stages, stage.FontsInPlace := by
  cases h with
  | drawn _ hf =>
    exact List.forall_mem_singleton.mpr
      (List.forall_mem_singleton.mpr fun _ ↦ fontPositions_captionFilter hf)

theorem OverlayDrawn.fontsInPlace {overlay : Overlay}
    (h : OverlayDrawn scene index overlay input fragment) :
    ∀ stage ∈ fragment.stages, stage.FontsInPlace := by
  cases h with
  | bar =>
    exact fun stage hs ↦
      ((filtersIn_progressBarStages scene _ _ _ _ stage hs).drawsNoText (by decide)).fontsInPlace
  | chain hk hf => exact List.forall_mem_singleton.mpr (fontPositions_overlayFilters hk hf)

theorem TitleDrawn.fontsInPlace {title : Option Title}
    (h : TitleDrawn scene title input fragment) :
    ∀ stage ∈ fragment.stages, stage.FontsInPlace := by
  cases h with
  | hidden => exact List.forall_mem_nil _
  | drawn _ _ hf =>
    exact List.forall_mem_singleton.mpr
      (List.forall_mem_singleton.mpr fun _ ↦ fontPositions_titleFilter hf)

theorem BadgesDrawn.fontsInPlace {ranking : Option Ranking}
    (h : BadgesDrawn scene ranking input fragment) :
    ∀ stage ∈ fragment.stages, stage.FontsInPlace := by
  cases h with
  | hidden => exact List.forall_mem_nil _
  | drawn _ _ ht =>
    refine Fragment.Threads.forall_stages (fun hb ↦ ?_) ht
    cases hb with
    | drawn _ hf => exact List.forall_mem_singleton.mpr (fontPositions_badgeFilters hf)

end Decoration

end Montage
