import Montage.Proofs.Decoration.Drawing
import Montage.Proofs.Graph.Path

/-!
# Layers

Decorations are layers on the joined stream. Each layer is drawn by one stage that the stream goes
through; only a progress bar has a source of its own beside it.
-/

namespace Montage.Decoration

open Montage.Numeric (Binary64)
open Montage.Graph

/-- A decoration with its number among those of its kind. -/
inductive Layer where
  | caption (index : Nat) (caption : Caption)
  | overlay (index : Nat) (overlay : Overlay)
  | title (title : Title)
  | badge (index : Nat) (ranking : Ranking)

/-- What draws a layer: the stage that the stream goes through, and the sources of its other
inputs. -/
structure Drawn where
  sources : List Stage
  stage : Stage

def Drawn.stages (drawn : Drawn) : List Stage := drawn.sources ++ [drawn.stage]

/-- How a layer is drawn. All but progress bars are chains; a progress bar is a generator that
enters as the second input. -/
inductive Layer.DrawnBy (scene : Scene) : Layer → Drawn → Prop
  | caption {index : Nat} {caption : Caption} {window : TimeWindow} {filter : Filter}
      {input : Label} :
      scene.timeline.window? caption.clipIndex = some window →
      captionFilter scene caption window = .ok filter →
      filter.name = "drawtext" →
      DrawnBy scene (.caption index caption)
        ⟨[], .chain input [filter] (.numbered .caption index)⟩
  | bar {index : Nat} {overlay : Overlay} {color : String} {source place : Filter}
      {input : Label} :
      overlay.kind = .progressBar →
      engineColor overlay.backgroundColor = .ok color →
      progressBarStages scene color input (.numbered .overlaySource index)
        (.numbered .overlay index) =
          [.generator source (.numbered .overlaySource index),
            ⟨[input, .numbered .overlaySource index], [place], [.numbered .overlay index]⟩] →
      DrawnBy scene (.overlay index overlay)
        ⟨[.generator source (.numbered .overlaySource index)],
          ⟨[input, .numbered .overlaySource index], [place], [.numbered .overlay index]⟩⟩
  | overlay {index : Nat} {overlay : Overlay} {filters : List Filter} {input : Label} :
      overlay.kind ≠ .progressBar →
      overlayFilters scene overlay (overlayWindow scene overlay) = .ok filters →
      DrawnBy scene (.overlay index overlay)
        ⟨[], .chain input filters (.numbered .overlay index)⟩
  | title {title : Title} {filter : Filter} {input : Label} :
      titleFilter scene title = .ok filter →
      DrawnBy scene (.title title) ⟨[], .chain input [filter] (.named .title)⟩
  | badge {index : Nat} {ranking : Ranking} {window : TimeWindow}
      {badge : Geometry.BadgePlacement} {filters : List Filter} {input : Label} :
      scene.timeline.window? index = some window →
      badgePlace scene ranking = some badge →
      badgeFilters scene ranking badge (ordinal ranking.countdown scene.timeline.size index)
        window = .ok filters →
      DrawnBy scene (.badge index ranking) ⟨[], .chain input filters (.numbered .badge index)⟩

/-- In two lists whose entries are related one by one, each entry of the second has one of the
first. -/
private theorem exists_mem_of_forall₂ {α β : Type} {R : α → β → Prop} {xs : List α} {ys : List β}
    (h : List.Forall₂ R xs ys) : ∀ y ∈ ys, ∃ x ∈ xs, R x y := by
  induction h with
  | nil => exact List.forall_mem_nil _
  | cons hfirst _ ih =>
    refine List.forall_mem_cons.mpr ⟨⟨_, List.mem_cons_self, hfirst⟩, fun y hy ↦ ?_⟩
    obtain ⟨x, hx, hxy⟩ := ih y hy
    exact ⟨x, List.mem_cons_of_mem _ hx, hxy⟩

/-- Whatever is drawn is one of the layers. -/
theorem Layer.exists_drawnBy {scene : Scene} {layers : List Layer} {drawn : List Drawn}
    (h : List.Forall₂ (Layer.DrawnBy scene) layers drawn) :
    ∀ drawing ∈ drawn, ∃ layer ∈ layers, layer.DrawnBy scene drawing :=
  exists_mem_of_forall₂ h

/-- Each of the layers is drawn. -/
theorem Layer.exists_drawing {scene : Scene} {layers : List Layer} {drawn : List Drawn}
    (h : List.Forall₂ (Layer.DrawnBy scene) layers drawn) :
    ∀ layer ∈ layers, ∃ drawing ∈ drawn, layer.DrawnBy scene drawing := by
  have hflip : List.Forall₂ (flip (Layer.DrawnBy scene)) drawn layers := List.Forall₂.flip h
  exact exists_mem_of_forall₂ hflip

/-- The stages draw the layers in order, each over the one before. -/
def Draws (scene : Scene) (layers : List Layer) (input : Label) (fragment : Fragment) : Prop :=
  ∃ drawn : List Drawn, List.Forall₂ (Layer.DrawnBy scene) layers drawn ∧
    fragment.stages = drawn.flatMap (·.stages) ∧
    Leads input (drawn.map (·.stage)) fragment.output

variable {scene : Scene} {input : Label} {xs ys : List Layer} {first others : Fragment}

theorem draws_nil (scene : Scene) (input : Label) : Draws scene [] input (.passthrough input) :=
  ⟨[], .nil, rfl, .nil input⟩

theorem Draws.append (hx : Draws scene xs input first) (hy : Draws scene ys first.output others) :
    Draws scene (xs ++ ys) input ⟨first.stages ++ others.stages, others.output⟩ := by
  obtain ⟨xdrawn, hxd, hxs, hxl⟩ := hx
  obtain ⟨ydrawn, hyd, hys, hyl⟩ := hy
  refine ⟨xdrawn ++ ydrawn, List.rel_append hxd hyd, ?_, ?_⟩
  · rw [List.flatMap_append, ← hxs, ← hys]
  · rw [List.map_append]
    exact hxl.append hyl

/-- Items that draw a layer each draw their layers in order. -/
private theorem draws_of_threads {α : Type} {shape : Nat → α → Label → Fragment → Prop}
    (layer : Nat → α → Layer) {index : Nat} {items : List α} {fragment : Fragment}
    (hs : ∀ p ∈ items.zipIdx index, ∀ {input fragment}, shape p.2 p.1 input fragment →
      Draws scene [layer p.2 p.1] input fragment)
    (h : Fragment.Threads shape index items input fragment) :
    Draws scene ((items.zipIdx index).map fun p ↦ layer p.2 p.1) input fragment := by
  induction h with
  | nil => exact draws_nil scene _
  | cons hf _ ih =>
    rw [List.zipIdx_cons] at hs ⊢
    obtain ⟨hfirst, hrest⟩ := List.forall_mem_cons.mp hs
    exact (hfirst hf).append (ih hrest)

/-- One stage without sources draws one layer. -/
private theorem draws_chained {layer : Layer} {filters : List Filter} {request : LabelRequest}
    (h : layer.DrawnBy scene ⟨[], .chain input filters (.signal request 0)⟩) :
    Draws scene [layer] input (chained input filters request) :=
  ⟨_, .cons h .nil, rfl, .single rfl rfl⟩

/-! ### The layers of each kind -/

/-- The layers of a title: one, unless its text is blank. -/
def titleLayers (title : Option Title) : List Layer :=
  (title.toList.filter fun title ↦ !Text.isBlankText title.text).map .title

/-- The layers of a ranking: one for each of so many clips if it is enabled. -/
def badgeLayers (ranking : Option Ranking) (clips : Nat) : List Layer :=
  (ranking.toList.filter (·.enabled)).flatMap fun ranking ↦
    (List.range clips).map fun index ↦ .badge index ranking

variable {fragment : Fragment}

theorem draws_captions {captions : List Caption}
    (h : Fragment.Threads (CaptionDrawn scene) 0 captions input fragment) :
    Draws scene (captions.zipIdx.map fun p ↦ .caption p.2 p.1) input fragment := by
  refine draws_of_threads .caption (fun p _ input fragment hc ↦ ?_) h
  cases hc with
  | drawn hw hf => exact draws_chained (.caption hw hf (name_of_captionFilter hf))

theorem draws_overlays {overlays : List Overlay}
    (h : Fragment.Threads (OverlayDrawn scene) 0 overlays input fragment) :
    Draws scene (overlays.zipIdx.map fun p ↦ .overlay p.2 p.1) input fragment := by
  refine draws_of_threads .overlay (fun p _ input fragment ho ↦ ?_) h
  cases ho with
  | bar hk hc => exact ⟨_, .cons (.bar hk hc rfl) .nil, rfl, .single rfl rfl⟩
  | chain hk hf => exact draws_chained (.overlay hk hf)

theorem draws_title {title : Option Title} (h : TitleDrawn scene title input fragment) :
    Draws scene (titleLayers title) input fragment := by
  cases h with
  | hidden hb =>
    have hnone : titleLayers title = [] := by
      cases title with
      | none => rfl
      | some settings => simp [titleLayers, hb settings rfl]
    rw [hnone]
    exact draws_nil scene input
  | @drawn settings filter ht hb hf =>
    have hone : titleLayers title = [.title settings] := by
      simp [titleLayers, ht, hb]
    rw [hone]
    exact draws_chained (.title hf)

theorem draws_badges {ranking : Option Ranking} (h : BadgesDrawn scene ranking input fragment) :
    Draws scene (badgeLayers ranking scene.timeline.size) input fragment := by
  cases h with
  | hidden he =>
    have hnone : badgeLayers ranking scene.timeline.size = [] := by
      cases ranking with
      | none => rfl
      | some settings => simp [badgeLayers, he settings rfl]
    rw [hnone]
    exact draws_nil scene input
  | @drawn settings fragment hr he ht =>
    have hall : badgeLayers ranking scene.timeline.size =
        scene.timeline.windows.zipIdx.map fun p ↦ .badge p.2 settings := by
      have hsnd := List.zipIdx_map_snd 0 scene.timeline.windows
      rw [← List.range_eq_range'] at hsnd
      simp only [badgeLayers, hr, Option.toList_some, List.filter_cons, he, if_true,
        List.filter_nil, List.flatMap_singleton, Timeline.size, ← hsnd, List.map_map]
      rfl
    rw [hall]
    refine draws_of_threads (fun index _ ↦ .badge index settings)
      (fun p hp input fragment hb ↦ ?_) ht
    cases hb with
    | drawn hb hf => exact draws_chained (.badge (List.mk_mem_zipIdx_iff_getElem?.mp hp) hb hf)

end Montage.Decoration
