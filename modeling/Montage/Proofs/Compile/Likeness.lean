import Montage.Proofs.Compile.Layout
import Montage.Proofs.Decoration.Fonts

/-!
# What the parts of a program depend on

The parts that fit a composition are determined by it, by what the fonts are asked for, and by
nothing else. They take no notice of the music and of the names of the files, and where filters are
seen through a view that does not tell fonts apart, they take no notice of the fonts either.
-/

namespace Montage

open Montage.Graph

/-! ### Joins -/

/-- A boundary is joined in one way. -/
theorem JoinDrawn.unique {pair : Nat} {left right : Label} {join : Transition.Join}
    {fragment fragment' : Fragment} (h : JoinDrawn pair left right join fragment)
    (h' : JoinDrawn pair left right join fragment') : fragment = fragment' := by
  cases h <;> cases h' <;> rfl

/-- The clips are joined in one way. -/
theorem ClipsJoined.unique {setting : Option TransitionSetting} {timeline : Timeline}
    {first : Label} {others : List Label} {fragment fragment' : Fragment}
    (h : ClipsJoined setting timeline first others fragment)
    (h' : ClipsJoined setting timeline first others fragment') : fragment = fragment' := by
  cases h with
  | alone =>
    cases h' with
    | alone => rfl
    | cut hn => exact absurd rfl hn
    | folded hn => exact absurd rfl hn
  | cut hn hc =>
    cases h' with
    | alone => exact absurd rfl hn
    | cut => rfl
    | folded _ hc' => exact absurd hc hc'
  | folded hn hc ht =>
    cases h' with
    | alone => exact absurd rfl hn
    | cut _ hc' => exact absurd hc' hc
    | folded _ _ ht' =>
      simpa using ht.alike ht' fun _ _ _ _ _ h h' ↦
        congrArg (Fragment.mapFilters id) (JoinDrawn.unique h h')

/-! ### Parts -/

namespace Parts

/-- The parts with their filters seen through a view. -/
def mapFilters (view : Filter → Filter) (parts : Parts) : Parts where
  background := parts.background
  joined := parts.joined.mapFilters view
  captions := parts.captions.mapFilters view
  overlays := parts.overlays.mapFilters view
  title := parts.title.mapFilters view
  badges := parts.badges.mapFilters view

@[simp] theorem mapFilters_id (parts : Parts) : parts.mapFilters id = parts := by
  simp [mapFilters]

variable {view : Filter → Filter} {fonts fonts' : FontResolver} {composition : Composition}
  {parts parts' : Parts}

private theorem output_eq {first second : Fragment}
    (h : first.mapFilters view = second.mapFilters view) : first.output = second.output :=
  (Fragment.mk.inj h).2

/-- Through a view that ignores fonts, the parts that fit a composition are the same for all
fonts. -/
theorem Fit.alike (h : parts.Fit fonts composition) (h' : parts'.Fit fonts' composition)
    (hv : Decoration.IgnoresFonts view (composition.scene fonts) fonts') :
    parts.mapFilters view = parts'.mapFilters view := by
  have hbackground := Except.ok.inj (h.background.symm.trans h'.background)
  have hjoined := h.joined.unique h'.joined
  have hcaptions := h.captions.alike (hjoined ▸ h'.captions) fun _ _ _ _ _ h h' ↦
    Decoration.CaptionDrawn.alike hv h h'
  have hoverlays := h.overlays.alike (output_eq hcaptions ▸ h'.overlays) fun _ _ _ _ _ h h' ↦
    Decoration.OverlayDrawn.alike hv h h'
  have htitle := h.title.alike hv (output_eq hoverlays ▸ h'.title)
  have hbadges := h.badges.alike hv (output_eq htitle ▸ h'.badges)
  simp only [mapFilters, hbackground, hjoined, hcaptions, hoverlays, htitle, hbadges]

/-- One set of parts fits a composition and its fonts. -/
theorem Fit.unique (h : parts.Fit fonts composition) (h' : parts'.Fit fonts composition) :
    parts = parts' := by
  simpa using h.alike h' (Decoration.ignoresFonts_id (composition.scene fonts))

end Parts

end Montage
