import Montage.Proofs.Decoration.Layers

/-!
# Gates

When the layers of a composition are to be seen: the gates of the filters that draw them. Every
filter that draws a caption or a badge has one gate, which is open while the clip plays.
-/

namespace Montage

open Montage.Graph

namespace Graph

/-- What a signal is for. -/
def Label.role? : Label → Option Role
  | .pad .. => none
  | .signal request _ => some request.role

/-- Whether a stage writes a signal of this role. -/
def Stage.writesRole (role : Role) (stage : Stage) : Bool :=
  stage.outputs.any (·.role? == some role)

/-- The stages that write signals of this role, in order. -/
def Program.stagesFor (program : Program) (role : Role) : List Stage :=
  program.stages.filter (·.writesRole role)

/-- The values of all options with this key. -/
def Filter.values (key : String) (filter : Filter) : List String :=
  (filter.options.filter (·.key == some key)).map (·.value)

/-- The gates of each filter of a stage. -/
def Stage.gates (stage : Stage) : List (List String) := stage.filters.map (·.values "enable")

/-- The texts that a stage draws. -/
def Stage.texts (stage : Stage) : List String := stage.filters.flatMap (·.values "text")

theorem Segment.filter_writesRole {roles : List Role} {pads before after : List Label}
    {stages : List Stage} (h : Segment (requestsFor roles) pads before stages after) {role : Role}
    (hr : role ∉ roles) : stages.filter (·.writesRole role) = [] := by
  rw [List.filter_eq_nil_iff]
  intro stage hs hw
  obtain ⟨l, hl, hrole⟩ := List.any_eq_true.mp hw
  obtain ⟨request, hrequest, rfl⟩ := h.issued l (List.mem_flatMap.mpr ⟨stage, hs, hl⟩)
  have heq : request.role = role := Option.some.inj (beq_iff_eq.mp hrole)
  exact hr (heq ▸ hrequest)

end Graph

namespace Decoration

variable {scene : Scene} {window : TimeWindow}

private theorem key_fontOption (scene : Scene) (family : String) (bold : Bool) :
    (fontOption scene family bold).key ∈ [some "fontfile", some "font"] := by
  unfold fontOption
  split
  · exact List.mem_cons_self
  · exact List.mem_cons_of_mem _ List.mem_cons_self

/-- What a drawn text has for a key is what its text and its own options have, unless the key is
that of a font. -/
theorem values_drawText {key : String} (hk : key ≠ "fontfile" ∧ key ≠ "font")
    (scene : Scene) (text family : String) (bold : Bool) (options : List FilterOption) :
    (drawText scene text family bold options).values key =
      (([opt "text" (quoted text), opt "expansion" "none"] ++ options).filter
        (·.key == some key)).map (·.value) := by
  have hfont : ¬ ((fontOption scene family bold).key == some key) = true := by
    rw [beq_iff_eq]
    rcases List.mem_pair.mp (key_fontOption scene family bold) with h | h <;> rw [h]
    · exact fun he ↦ hk.1 (Option.some.inj he).symm
    · exact fun he ↦ hk.2 (Option.some.inj he).symm
  have hskip : (fontOption scene family bold :: options).filter (·.key == some key) =
      options.filter (·.key == some key) := List.filter_cons_of_neg hfont
  change (([opt "text" (quoted text), opt "expansion" "none"] ++
    fontOption scene family bold :: options).filter (·.key == some key)).map (·.value) = _
  rw [List.filter_append, hskip, ← List.filter_append]

/-- A caption is gated to its window. -/
theorem gates_captionFilter {caption : Caption} {filter : Filter}
    (h : captionFilter scene caption window = .ok filter) :
    filter.values "enable" = [quotedExpression window.gate] := by
  obtain ⟨color, boxColor, -, -, rfl⟩ := exists_of_captionFilter h
  rw [values_drawText (by decide)]
  unfold captionFade
  split <;> simp [opt, enable]

/-- All that an overlay draws is gated to its window. -/
theorem gates_overlayFilters {overlay : Overlay} {filters : List Filter}
    (hk : overlay.kind ≠ .progressBar)
    (h : overlayFilters scene overlay window = .ok filters) :
    ∀ filter ∈ filters, filter.values "enable" = [quotedExpression window.gate] := by
  cases overlayWritten_of_overlayFilters hk h with
  | text => exact List.forall_mem_singleton.mpr (values_drawText (by decide) ..)
  | watermark => exact List.forall_mem_singleton.mpr (values_drawText (by decide) ..)
  | lowerThird =>
    exact List.forall_mem_cons.mpr
      ⟨rfl, List.forall_mem_singleton.mpr (values_drawText (by decide) ..)⟩

/-- The square and the ordinal of a badge are gated to one window. -/
theorem gates_badgeFilters {ranking : Ranking} {badge : Geometry.BadgePlacement} {ordinal : Nat}
    {filters : List Filter} (h : badgeFilters scene ranking badge ordinal window = .ok filters) :
    filters.map (·.values "enable") =
      [[quotedExpression window.gate], [quotedExpression window.gate]] := by
  obtain ⟨squareColor, textColor, -, -, rfl⟩ := exists_of_badgeFilters h
  rw [List.map_cons, List.map_singleton, values_drawText (by decide)]
  rfl

/-- The only text of a badge is its ordinal. -/
theorem texts_badgeFilters {ranking : Ranking} {badge : Geometry.BadgePlacement} {ordinal : Nat}
    {filters : List Filter} (h : badgeFilters scene ranking badge ordinal window = .ok filters) :
    filters.flatMap (·.values "text") = [quoted (toString ordinal)] := by
  obtain ⟨squareColor, textColor, -, -, rfl⟩ := exists_of_badgeFilters h
  rw [List.flatMap_cons, List.flatMap_singleton, values_drawText (by decide)]
  rfl

/-- The role of the signal that a layer hands on. -/
def Layer.role : Layer → Role
  | .caption .. => .caption
  | .overlay .. => .overlay
  | .title _ => .title
  | .badge .. => .badge

/-- Captions and badges are drawn by the stages that write signals of their role. -/
theorem Layer.DrawnBy.filter_writesRole {layer : Layer} {drawn : Drawn}
    (h : layer.DrawnBy scene drawn) {role : Role} (hr : role = .caption ∨ role = .badge) :
    drawn.stages.filter (·.writesRole role) = if layer.role = role then drawn.stages else [] := by
  rcases hr with rfl | rfl <;> cases h <;> rfl

end Decoration

end Montage
