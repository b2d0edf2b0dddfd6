import Montage.Proofs.Decoration.Badges
import Montage.Proofs.Decoration.Gates
import Montage.Proofs.Graph.Spelling

/-!
# How decorations are spelled

What the builders of decorations write into the options of their filters: colors and whole numbers
as words, the bounds of windows and the length of ramps as numbers, and texts and fonts of a user
between quotes.
-/

namespace Montage

open Montage.Numeric (Binary64 num)
open Montage.Graph

/-- A value of a filter is one of the options of its stage. -/
theorem Graph.Stage.opt_mem_options {stage : Stage} {filter : Filter} (hf : filter ∈ stage.filters)
    {key value : String} (h : filter.values key = [value]) : opt key value ∈ stage.options := by
  have hmem : value ∈ filter.values key := h ▸ List.mem_cons_self
  obtain ⟨option, ho, rfl⟩ := List.mem_map.mp hmem
  obtain ⟨ho, hk⟩ := List.mem_filter.mp ho
  refine List.mem_flatMap.mpr ⟨filter, hf, ?_⟩
  rwa [opt, ← eq_of_beq hk]

/-! ### Colors -/

private theorem toUpper_hexDigit {c : Char} (h : Color.isHex.isHexDigit c = true) :
    isBareChar c.toUpper = true ∧ c.toUpper ∉ ['n', 'N'] ∧ c.toUpper ≠ '/' := by
  have hlt : c.toNat < 128 := by
    simp only [Color.isHex.isHexDigit, Char.isDigit, Bool.or_eq_true, Bool.and_eq_true,
      decide_eq_true_eq, Char.le_def, UInt32.le_iff_toNat_le, ge_iff_le] at h
    have hc : c.toNat = c.val.toNat := rfl
    have h9 : '9'.val.toNat = 57 := rfl
    have hf : 'f'.val.toNat = 102 := rfl
    have hF : 'F'.val.toNat = 70 := rfl
    omega
  have hall : ∀ n < 128, Color.isHex.isHexDigit (Char.ofNat n) = true →
      isBareChar (Char.ofNat n).toUpper = true ∧ (Char.ofNat n).toUpper ∉ ['n', 'N'] ∧
        (Char.ofNat n).toUpper ≠ '/' := by
    decide
  have hc := hall c.toNat hlt
  rw [Char.ofNat_toNat] at hc
  exact hc h

private theorem isWord_hexColor {text : String} (h : Color.isHex text = true) :
    IsWord ("0x" ++ String.ofList ((text.toList.drop 1).map Char.toUpper)) := by
  have hdigits : ∀ c ∈ (text.toList.drop 1).map Char.toUpper,
      isBareChar c = true ∧ c ∉ ['n', 'N'] ∧ c ≠ '/' := by
    unfold Color.isHex at h
    split at h
    · next digits ht =>
      rw [Bool.and_eq_true] at h
      intro c hc
      rw [ht, List.drop_succ_cons, List.drop_zero] at hc
      obtain ⟨d, hd, rfl⟩ := List.mem_map.mp hc
      exact toUpper_hexDigit (List.all_eq_true.mp h.2 d hd)
    · cases h
  have hfront : ∀ c ∈ "0x".toList, isBareChar c = true ∧ c ∉ ['n', 'N'] ∧ c ≠ '/' := by
    simp [isBareChar, Reader.isSpace]
  have hall : ∀ c ∈ ("0x" ++ String.ofList ((text.toList.drop 1).map Char.toUpper)).toList,
      isBareChar c = true ∧ c ∉ ['n', 'N'] ∧ c ≠ '/' := by
    rw [String.toList_append]
    refine List.forall_mem_append.mpr ⟨hfront, ?_⟩
    rw [String.toList_ofList]
    exact hdigits
  exact ⟨fun c hc ↦ (hall c hc).1, definite_of_forall fun c hc ↦ (hall c hc).2.1,
    fun hm ↦ (hall '/' hm).2.2 rfl⟩

/-- The engine's notation of a color is a word. -/
theorem isWord_engineColor {text color : String} (h : engineColor text = .ok color) :
    IsWord color := by
  unfold engineColor at h
  split at h
  · next found hf =>
    obtain rfl := Except.ok.inj h
    unfold Color.engine? at hf
    split at hf
    · next hx =>
      obtain rfl := Option.some.inj hf
      exact isWord_hexColor hx
    · dsimp only at hf
      split at hf
      · next hm =>
        obtain rfl := Option.some.inj hf
        have hall : ∀ name ∈ Color.names, IsWord name := by decide +kernel
        exact hall _ hm
      · cases hf
  · cases h

theorem isWord_engineColorWithOpacity {text color : String} {opacity : Binary64}
    (ho : opacity.isFinite = true) (h : engineColorWithOpacity text opacity = .ok color) :
    IsWord color := by
  obtain ⟨hue, hc, h⟩ := exists_of_bind_eq_ok h
  obtain rfl := Except.ok.inj h
  refine (isWord_engineColor hc).around (c := '@') rfl (by decide) (by decide +kernel)
    (.of_numeral (numeral_fixed 2 ?_))
  split
  · decide +kernel
  · split
    · decide +kernel
    · exact ho

namespace Decoration

variable {scene : Scene} {v : Vocabulary} {window : TimeWindow}

/-- A window whose bounds may be written and whose gate may be used. -/
structure WindowIn (v : Vocabulary) (window : TimeWindow) : Prop where
  start : v.number window.start
  stop : v.number window.stop
  gate : v.gate window

/-- The length of ramps may be written, also as a divisor. -/
structure RampIn (v : Vocabulary) : Prop where
  number : v.number rampLength
  divisor : v.divisor rampLength

private theorem spelled_enable (hw : WindowIn v window) : (enable window).SpelledIn v :=
  .gate hw.start hw.stop hw.gate

/-! ### Drawn text -/

private theorem spelled_fontOption (scene : Scene) (family : String) (bold : Bool) :
    (fontOption scene family bold).SpelledIn v := by
  unfold fontOption
  split
  · exact .text (by decide) (protected_escapePath _)
  · exact .text (by decide) (protected_escapeText family)

/-- Protected text is drawn with options of its own, whatever its font. -/
private theorem spelled_drawText {protectedText : String}
    (ht : Reader.Protected protectedText.toList) (family : String) (bold : Bool)
    {options : List FilterOption} (ho : ∀ o ∈ options, o.SpelledIn v) :
    (drawText scene protectedText family bold options).SpelledIn v :=
  spelled_filter (by decide) <| List.forall_mem_append.mpr
    ⟨spelled_cons (.text (by decide) ht) <|
      spelled_cons (.word (by decide) (by decide +kernel)) <|
      spelled_cons (spelled_fontOption scene family bold) spelled_nil, ho⟩

/-- What is centered is divided by two. -/
private theorem divides_two : ∀ d ∈ [Expression.whole 2], v.Divides d :=
  List.forall_mem_singleton.mpr (by decide : (0 : Int) < 2)

private theorem spelled_centeredOn (x : Int) : (Geometry.centeredOn x).SpelledIn v where
  names := by
    show ∀ n ∈ ["text_w"], n ∈ Expression.engineNames
    decide
  decimals := List.forall_mem_nil _
  divisors := divides_two

private theorem spelled_centeredInBox (boxStart boxSize : Int) {textSize : String}
    (ht : textSize ∈ Expression.engineNames) :
    (centeredInBox boxStart boxSize textSize).SpelledIn v where
  names := List.forall_mem_singleton.mpr ht
  decimals := List.forall_mem_nil _
  divisors := divides_two

/-! ### Captions and overlays -/

private theorem spelled_slideUp (hw : WindowIn v window) (hr : RampIn v) (y travel : Int) :
    (slideUp window y travel).SpelledIn v where
  names := by
    show ∀ n ∈ ["if", "lt", "t", "t"], n ∈ Expression.engineNames
    decide
  decimals := by
    show ∀ x ∈ [window.start, rampLength, window.start, rampLength], v.number x
    simp [hw.start, hr.number]
  divisors := List.forall_mem_singleton.mpr hr.divisor

private theorem spelled_fade (hw : WindowIn v window) (hr : RampIn v) :
    (fade window).SpelledIn v where
  names := by
    show ∀ n ∈ ["if", "lt", "t", "t", "if", "gt", "t", "t"], n ∈ Expression.engineNames
    decide
  decimals := by
    show ∀ x ∈ [window.start, rampLength, window.start, rampLength, window.stop, rampLength,
      window.stop, rampLength], v.number x
    simp [hw.start, hw.stop, hr.number]
  divisors := List.forall_mem_cons.mpr ⟨hr.divisor, List.forall_mem_singleton.mpr hr.divisor⟩

private theorem spelled_captionTop (hw : WindowIn v window) (hr : RampIn v) (caption : Caption) :
    (opt "y" (captionTop scene caption window)).SpelledIn v := by
  unfold captionTop
  dsimp only
  split
  · exact .expression (by decide) (spelled_slideUp hw hr _ _)
  · exact .word (by decide) (isWord_toString_int _)

private theorem spelled_captionFade (hw : WindowIn v window) (hr : RampIn v) (caption : Caption) :
    ∀ o ∈ captionFade caption window, o.SpelledIn v := by
  unfold captionFade
  split
  · exact spelled_cons (.expression (by decide) (spelled_fade hw hr)) spelled_nil
  · exact spelled_nil

/-- What is centered in the frame. -/
private def centeredInFrame : Expression :=
  .div (.group (.sub (.name "w") (.name "text_w"))) (.whole 2)

private theorem spelled_centeredInFrame : (opt "x" "(w-text_w)/2").SpelledIn v := by
  have hrender : centeredInFrame.render = "(w-text_w)/2" := by decide
  rw [← hrender]
  exact .arithmetic (by decide) rfl ⟨by decide, List.forall_mem_nil _, divides_two⟩

/-- The filter of a caption, whatever its text. -/
theorem spelled_captionFilter (hw : WindowIn v window) (hr : RampIn v) {caption : Caption}
    (hs : v.size (Geometry.scaleToWidth caption.fontSize scene.width)) {filter : Filter}
    (h : captionFilter scene caption window = .ok filter) : filter.SpelledIn v := by
  obtain ⟨color, boxColor, hc, hb, rfl⟩ := exists_of_captionFilter h
  have hopacity : captionBoxOpacity.isFinite = true := by decide +kernel
  refine spelled_drawText (protected_escapeText _) _ _ ?_
  refine List.forall_mem_append.mpr ⟨List.forall_mem_append.mpr
    ⟨?_, spelled_captionFade hw hr caption⟩, spelled_cons (spelled_enable hw) spelled_nil⟩
  exact spelled_cons (.size (by decide) hs) <|
    spelled_cons (.word (by decide) (isWord_engineColor hc)) <|
    spelled_cons spelled_centeredInFrame <|
    spelled_cons (spelled_captionTop hw hr caption) <|
    spelled_cons (.word (by decide) (by decide +kernel)) <|
    spelled_cons (.word (by decide) (isWord_engineColorWithOpacity hopacity hb)) <|
    spelled_cons (.word (by decide) (by decide +kernel)) spelled_nil

private theorem spelled_overlayText (text : String) {overlay : Overlay}
    (hs : v.size (Geometry.scaleToWidth overlay.fontSize scene.width))
    {options : List FilterOption} (ho : ∀ o ∈ options, o.SpelledIn v) :
    (overlayText scene text overlay options).SpelledIn v :=
  spelled_drawText (protected_escapeText text) _ _ <| spelled_cons (.size (by decide) hs) ho

/-- A filled box of this color, shown in a window. -/
private theorem spelled_drawbox (hw : WindowIn v window) {x y color : String}
    {width : FilterOption} {height : Int} (hx : IsWord x) (hy : IsWord y)
    (hwidth : width.SpelledIn v) (hheight : v.size height) (hc : IsWord color) :
    (Graph.Filter.mk "drawbox"
      [opt "x" x, opt "y" y, width, opt "h" (toString height), opt "color" color,
       opt "t" "fill", enable window]).SpelledIn v :=
  spelled_filter (by decide) <| spelled_cons (.word (by decide) hx) <|
    spelled_cons (.word (by decide) hy) <|
    spelled_cons hwidth <|
    spelled_cons (.size (by decide) hheight) <|
    spelled_cons (.word (by decide) hc) <|
    spelled_cons (.word (by decide) (by decide +kernel)) <|
    spelled_cons (spelled_enable hw) spelled_nil

/-- The height of a lower third in pixels. -/
def lowerThirdRows (height : Nat) : Int :=
  Geometry.roundHalfUp (lowerThirdHeight * .ofNat height)

/-- The sizes of what an overlay draws. A progress bar has no letters, and its height is part of
its source. -/
def overlaySizes (scene : Scene) (overlay : Overlay) : List Int :=
  match overlay.kind with
  | .text | .watermark => [Geometry.scaleToWidth overlay.fontSize scene.width]
  | .lowerThird =>
    [lowerThirdRows scene.height, Geometry.scaleToWidth overlay.fontSize scene.width]
  | .progressBar => []

/-- The filters of an overlay that is not a progress bar, whatever its text. -/
theorem spelled_overlayFilters (hw : WindowIn v window) {overlay : Overlay}
    (hk : overlay.kind ≠ .progressBar) (hs : ∀ size ∈ overlaySizes scene overlay, v.size size)
    {filters : List Filter} (h : overlayFilters scene overlay window = .ok filters) :
    ∀ f ∈ filters, f.SpelledIn v := by
  cases overlayWritten_of_overlayFilters hk h with
  | text hkind hc =>
    simp only [overlaySizes, hkind, List.forall_mem_singleton] at hs
    refine List.forall_mem_singleton.mpr (spelled_overlayText _ hs ?_)
    exact spelled_cons (.word (by decide) (isWord_engineColor hc)) <|
      spelled_cons (.arithmetic (by decide) rfl (spelled_centeredOn _)) <|
      spelled_cons (.word (by decide) (isWord_toString_int _)) <|
      spelled_cons (spelled_enable hw) spelled_nil
  | watermark hkind hc =>
    simp only [overlaySizes, hkind, List.forall_mem_singleton] at hs
    have hopacity : watermarkOpacity.isFinite = true := by decide +kernel
    refine List.forall_mem_singleton.mpr (spelled_overlayText _ hs ?_)
    exact spelled_cons (.word (by decide) (isWord_engineColorWithOpacity hopacity hc)) <|
      spelled_cons (.word (by decide) (by decide +kernel)) <|
      spelled_cons (.word (by decide) (by decide +kernel)) <|
      spelled_cons (spelled_enable hw) spelled_nil
  | lowerThird hkind hb hc =>
    simp only [overlaySizes, hkind, List.forall_mem_cons] at hs
    obtain ⟨hrows, hfont, -⟩ := hs
    have hopacity : lowerThirdOpacity.isFinite = true := by decide +kernel
    refine List.forall_mem_cons.mpr ⟨?_, List.forall_mem_singleton.mpr
      (spelled_overlayText _ hfont ?_)⟩
    · exact spelled_drawbox hw (by decide +kernel) (isWord_toString_int _) .frameWidth hrows
        (isWord_engineColorWithOpacity hopacity hb)
    · exact spelled_cons (.word (by decide) (isWord_engineColor hc)) <|
        spelled_cons (.word (by decide) (isWord_toString_int _)) <|
        spelled_cons (.arithmetic (by decide) rfl (spelled_centeredInBox _ _ (by decide))) <|
        spelled_cons (spelled_enable hw) spelled_nil

/-- The stages of a progress bar, which lasts for the total and divides by it. -/
theorem spelled_progressBarStages {color : String} (hc : IsWord color)
    (hn : v.number scene.timeline.totalDuration) (hl : v.length scene.timeline.totalDuration)
    (hd : v.divisor scene.timeline.totalDuration) (input source output : Label) :
    ∀ stage ∈ progressBarStages scene color input source output, stage.SpelledIn v := by
  have hleft : (progressBarLeft scene.timeline.totalDuration).SpelledIn v := by
    refine ⟨?_, List.forall_mem_singleton.mpr hn, List.forall_mem_singleton.mpr hd⟩
    show ∀ n ∈ ["w", "W", "min", "t"], n ∈ Expression.engineNames
    decide
  refine List.forall_mem_cons.mpr ⟨spelled_single ?_, List.forall_mem_singleton.mpr
    (spelled_single ?_)⟩
  · exact spelled_colorSource hc (isWord_size (isWord_toString_nat _) (isWord_toString_int _)) hn hl
  · exact spelled_filter (by decide) <| spelled_cons (.expression (by decide) hleft) <|
      spelled_cons (.word (by decide) (by decide +kernel)) spelled_nil

/-! ### Titles and badges -/

private theorem spelled_strokeOptions {style : TitleStyle} {options : List FilterOption}
    (h : strokeOptions style = .ok options) : ∀ o ∈ options, o.SpelledIn v := by
  rcases strokeOptions_cases h with rfl | ⟨text, color, hc, rfl⟩
  · exact spelled_nil
  · exact spelled_cons (.word (by decide) (isWord_toString_nat _)) <|
      spelled_cons (.word (by decide) (isWord_engineColor hc)) spelled_nil

/-- The filter of a title, whatever its text and its font. -/
theorem spelled_titleFilter {title : Title}
    (hs : v.size (Geometry.titlePlacement title.position title.style.fontSize scene.width
      scene.height).fontSize) {filter : Filter} (h : titleFilter scene title = .ok filter) :
    filter.SpelledIn v := by
  obtain ⟨color, stroke, hc, hstroke, rfl⟩ := exists_of_titleFilter h
  refine spelled_drawText (protected_escapeTitle _) _ _
    (List.forall_mem_append.mpr ⟨?_, spelled_strokeOptions hstroke⟩)
  exact spelled_cons (.size (by decide) hs) <|
    spelled_cons (.word (by decide) (isWord_engineColor hc)) <|
    spelled_cons (.arithmetic (by decide) rfl (spelled_centeredOn _)) <|
    spelled_cons (.word (by decide) (isWord_toString_int _)) spelled_nil

/-- The font size of the ordinal of a badge with this edge. -/
def ordinalSize (edge : Int) : Int :=
  Geometry.roundHalfUp (Binary64.ofInt edge * ordinalScale)

theorem spelled_badgeFilters (hw : WindowIn v window) {ranking : Ranking}
    {badge : Geometry.BadgePlacement} (hs : v.size badge.size)
    (ho : v.size (ordinalSize badge.size)) {ordinal : Nat} {filters : List Filter}
    (h : badgeFilters scene ranking badge ordinal window = .ok filters) :
    ∀ f ∈ filters, f.SpelledIn v := by
  obtain ⟨squareColor, textColor, hsquare, ht, rfl⟩ := exists_of_badgeFilters h
  have hordinal : Reader.Protected (toString ordinal).toList :=
    (bare_toString_nat ordinal).harmless.guarded
  refine List.forall_mem_cons.mpr ⟨?_, List.forall_mem_singleton.mpr
    (spelled_drawText hordinal _ _ ?_)⟩
  · exact spelled_drawbox hw (isWord_toString_int _) (isWord_toString_int _)
      (.size (by decide) hs) hs (isWord_engineColor hsquare)
  · exact spelled_cons (.size (by decide) ho) <|
      spelled_cons (.word (by decide) (isWord_engineColor ht)) <|
      spelled_cons (.arithmetic (by decide) rfl (spelled_centeredInBox _ _ (by decide))) <|
      spelled_cons (.arithmetic (by decide) rfl (spelled_centeredInBox _ _ (by decide))) <|
      spelled_cons (spelled_enable hw) spelled_nil

/-! ### Layers -/

/-- The length of the whole composition may be written, also as a divisor. -/
structure TotalIn (v : Vocabulary) (total : Binary64) : Prop where
  number : v.number total
  length : v.length total
  divisor : v.divisor total

private theorem fontsize_captionFilter {caption : Caption} {filter : Filter}
    (h : captionFilter scene caption window = .ok filter) : filter.values "fontsize" =
      [toString (Geometry.scaleToWidth caption.fontSize scene.width)] := by
  obtain ⟨color, boxColor, -, -, rfl⟩ := exists_of_captionFilter h
  rw [values_drawText (by decide)]
  unfold captionFade
  split <;> simp [opt, enable]

private theorem fontsize_titleFilter {title : Title} {filter : Filter}
    (h : titleFilter scene title = .ok filter) : filter.values "fontsize" =
      [toString (Geometry.titlePlacement title.position title.style.fontSize scene.width
        scene.height).fontSize] := by
  obtain ⟨color, stroke, -, hstroke, rfl⟩ := exists_of_titleFilter h
  have hnone : stroke.filter (·.key == some "fontsize") = [] := by
    rcases strokeOptions_cases hstroke with rfl | ⟨text, strokeColor, -, rfl⟩ <;> rfl
  rw [values_drawText (by decide), List.filter_append, List.filter_append, hnone]
  rfl

private theorem sizes_overlayFilters {overlay : Overlay} {filters : List Filter}
    (hk : overlay.kind ≠ .progressBar)
    (h : overlayFilters scene overlay window = .ok filters) :
    ∀ size ∈ overlaySizes scene overlay, ∃ filter ∈ filters, ∃ key ∈ sizeKeys,
      filter.values key = [toString size] := by
  cases overlayWritten_of_overlayFilters hk h with
  | text hkind =>
    simp only [overlaySizes, hkind, List.forall_mem_singleton]
    exact ⟨_, List.mem_cons_self, "fontsize", by decide, values_drawText (by decide) ..⟩
  | watermark hkind =>
    simp only [overlaySizes, hkind, List.forall_mem_singleton]
    exact ⟨_, List.mem_cons_self, "fontsize", by decide, values_drawText (by decide) ..⟩
  | lowerThird hkind =>
    simp only [overlaySizes, hkind, List.forall_mem_cons]
    exact ⟨⟨_, List.mem_cons_self, "h", by decide, rfl⟩,
      ⟨_, List.mem_cons_of_mem _ List.mem_cons_self, "fontsize", by decide,
        values_drawText (by decide) ..⟩, List.forall_mem_nil _⟩

private theorem sizes_badgeFilters {ranking : Ranking} {badge : Geometry.BadgePlacement}
    {ordinal : Nat} {filters : List Filter}
    (h : badgeFilters scene ranking badge ordinal window = .ok filters) :
    ∀ size ∈ [badge.size, ordinalSize badge.size], ∃ filter ∈ filters, ∃ key ∈ sizeKeys,
      filter.values key = [toString size] := by
  obtain ⟨squareColor, textColor, -, -, rfl⟩ := exists_of_badgeFilters h
  exact List.forall_mem_cons.mpr ⟨⟨_, List.mem_cons_self, "w", by decide, rfl⟩,
    List.forall_mem_singleton.mpr ⟨_, List.mem_cons_of_mem _ List.mem_cons_self, "fontsize",
      by decide, values_drawText (by decide) ..⟩⟩

namespace Layer

/-- The windows in which a layer is shown. Titles and progress bars are always to be seen. -/
def windows (scene : Scene) : Layer → List TimeWindow
  | .caption _ shown => (scene.timeline.window? shown.clipIndex).toList
  | .overlay _ shown => if shown.kind = .progressBar then [] else [overlayWindow scene shown]
  | .title _ => []
  | .badge clip _ => (scene.timeline.window? clip).toList

theorem mem_windows_overlay {index : Nat} {shown : Overlay} :
    window ∈ (Layer.overlay index shown).windows scene ↔
      shown.kind ≠ .progressBar ∧ window = overlayWindow scene shown := by
  by_cases hk : shown.kind = .progressBar <;> simp [windows, hk]

/-- The sizes of the letters and boxes of a layer. -/
def sizes (scene : Scene) : Layer → List Int
  | .caption _ shown => [Geometry.scaleToWidth shown.fontSize scene.width]
  | .overlay _ shown => overlaySizes scene shown
  | .title shown =>
    [(Geometry.titlePlacement shown.position shown.style.fontSize scene.width
      scene.height).fontSize]
  | .badge _ ranking =>
    let edge := Geometry.scaleToWidth ranking.size scene.width
    [edge, ordinalSize edge]

/-- Whether the layer is a progress bar. -/
def isBar : Layer → Bool
  | .overlay _ shown => shown.kind = .progressBar
  | _ => false

/-- What a layer is drawn with is in the vocabulary. -/
structure SpelledIn (v : Vocabulary) (scene : Scene) (layer : Layer) : Prop where
  windows : ∀ window ∈ layer.windows scene, WindowIn v window
  sizes : ∀ size ∈ layer.sizes scene, v.size size
  total : layer.isBar = true → TotalIn v scene.timeline.totalDuration

/-- A layer is drawn with its windows and sizes, and a progress bar with the total. -/
theorem DrawnBy.spelled (hr : RampIn v) {layer : Layer} {drawn : Drawn}
    (h : layer.DrawnBy scene drawn) (hl : layer.SpelledIn v scene) :
    ∀ stage ∈ drawn.stages, stage.SpelledIn v := by
  cases h with
  | caption hw hf =>
    exact List.forall_mem_singleton.mpr (spelled_single (spelled_captionFilter
      (hl.windows _ (Option.mem_toList.mpr hw)) hr (hl.sizes _ List.mem_cons_self) hf))
  | bar hk hc hs =>
    have ht := hl.total (decide_eq_true hk)
    show ∀ stage ∈ [_, _], Stage.SpelledIn v stage
    rw [← hs]
    exact spelled_progressBarStages (isWord_engineColor hc) ht.number ht.length ht.divisor _ _ _
  | @overlay _ shown _ _ hk hf =>
    have hw : WindowIn v (overlayWindow scene shown) :=
      hl.windows _ (mem_windows_overlay.mpr ⟨hk, rfl⟩)
    exact List.forall_mem_singleton.mpr (spelled_chain (filters_ne_nil_of_overlayFilters hk hf)
      (spelled_overlayFilters hw hk hl.sizes hf))
  | title hf =>
    exact List.forall_mem_singleton.mpr
      (spelled_single (spelled_titleFilter (hl.sizes _ List.mem_cons_self) hf))
  | badge hw hb hf =>
    have hedge := hl.sizes _ List.mem_cons_self
    have hordinal := hl.sizes _ (List.mem_cons_of_mem _ List.mem_cons_self)
    rw [← (Geometry.of_badgePlacement hb).1] at hedge hordinal
    exact List.forall_mem_singleton.mpr (spelled_chain (filters_ne_nil_of_badgeFilters hf)
      (spelled_badgeFilters (hl.windows _ (Option.mem_toList.mpr hw)) hedge hordinal hf))

/-- Every window of a layer has its gate. -/
theorem DrawnBy.enable_mem {layer : Layer} {drawn : Drawn} (h : layer.DrawnBy scene drawn) :
    ∀ window ∈ layer.windows scene, ∃ stage ∈ drawn.stages, enable window ∈ stage.options := by
  intro window hw
  cases h with
  | caption hs hf =>
    obtain rfl := Option.some.inj (hs.symm.trans (Option.mem_toList.mp hw))
    exact ⟨_, List.mem_singleton_self _,
      Stage.opt_mem_options List.mem_cons_self (gates_captionFilter hf)⟩
  | bar hk => exact absurd hk (mem_windows_overlay.mp hw).1
  | overlay hk hf =>
    obtain ⟨-, rfl⟩ := mem_windows_overlay.mp hw
    obtain ⟨filter, hm⟩ := List.exists_mem_of_ne_nil _ (filters_ne_nil_of_overlayFilters hk hf)
    exact ⟨_, List.mem_singleton_self _,
      Stage.opt_mem_options hm (gates_overlayFilters hk hf filter hm)⟩
  | title => cases hw
  | badge hs _ hf =>
    obtain rfl := Option.some.inj (hs.symm.trans (Option.mem_toList.mp hw))
    obtain ⟨filter, hm, hgate⟩ := List.exists_of_mem_map
      ((gates_badgeFilters hf).symm ▸ List.mem_cons_self)
    exact ⟨_, List.mem_singleton_self _, Stage.opt_mem_options hm hgate⟩

/-- Every size of a layer is written. -/
theorem DrawnBy.size_mem {layer : Layer} {drawn : Drawn} (h : layer.DrawnBy scene drawn) :
    ∀ size ∈ layer.sizes scene, ∃ stage ∈ drawn.stages, ∃ key ∈ sizeKeys,
      opt key (toString size) ∈ stage.options := by
  intro size hs
  cases h with
  | caption _ hf =>
    obtain rfl := List.mem_singleton.mp hs
    exact ⟨_, List.mem_singleton_self _, "fontsize", by decide,
      Stage.opt_mem_options List.mem_cons_self (fontsize_captionFilter hf)⟩
  | bar hk => exact absurd hs (by simp [sizes, overlaySizes, hk])
  | overlay hk hf =>
    obtain ⟨filter, hm, key, hkey, hsize⟩ := sizes_overlayFilters hk hf size hs
    exact ⟨_, List.mem_singleton_self _, key, hkey, Stage.opt_mem_options hm hsize⟩
  | title hf =>
    obtain rfl := List.mem_singleton.mp hs
    exact ⟨_, List.mem_singleton_self _, "fontsize", by decide,
      Stage.opt_mem_options List.mem_cons_self (fontsize_titleFilter hf)⟩
  | badge _ hb hf =>
    rw [sizes, ← (Geometry.of_badgePlacement hb).1] at hs
    obtain ⟨filter, hm, key, hkey, hsize⟩ := sizes_badgeFilters hf size hs
    exact ⟨_, List.mem_singleton_self _, key, hkey, Stage.opt_mem_options hm hsize⟩

/-- A progress bar lasts for the total. -/
theorem DrawnBy.total_mem {layer : Layer} {drawn : Drawn} (h : layer.DrawnBy scene drawn)
    (hb : layer.isBar = true) :
    ∃ stage ∈ drawn.stages, opt "d" (num scene.timeline.totalDuration) ∈ stage.options := by
  cases h with
  | caption => cases hb
  | bar _ _ hs =>
    obtain ⟨hsource, -⟩ := List.cons.inj hs
    refine ⟨_, List.mem_cons_self, ?_⟩
    rw [← hsource]
    simp [Stage.options, Stage.generator]
  | overlay hk => exact absurd (of_decide_eq_true hb) hk
  | title => cases hb
  | badge => cases hb

end Layer

end Decoration

end Montage
