import Montage.Proofs.Compile.Definite
import Montage.Proofs.Graph.Quantities

/-!
# Lengths that are rounded to nothing

A program is written with thousandths of a second. A length that is too short for them is written as
zero, and a window that is too short for them begins and ends with the same numeral. The lengths of
a program are kept exactly if none of those of its composition is that short.
-/

namespace Montage

open Montage.Numeric (Binary64 decimalValue? instant? num)
open Montage.Graph
open Montage.Decoration (Layer RampIn TotalIn WindowIn)

namespace Numeric.Binary64

variable {x y : Binary64}

/-- A double that is written as more than nothing. -/
def Lasts (x : Binary64) : Prop := x.isFinite = true ∧ 0 < x.thousandths

instance (x : Binary64) : Decidable x.Lasts :=
  inferInstanceAs (Decidable (x.isFinite = true ∧ 0 < x.thousandths))

theorem lasts_iff (hf : x.isFinite = true) (h : 0 ≤ x.units) : x.Lasts ↔ 1 / 2000 < x.value := by
  rw [Lasts, thousandths_pos_iff h]
  exact and_iff_right hf

/-- What lasts is what has a positive numeral. -/
theorem lasts_iff_decimalValue? :
    x.Lasts ↔ ∃ seconds ∈ decimalValue? (num x), 0 < seconds := by
  cases hf : x.isFinite with
  | false => simp [Lasts, hf, decimalValue?_num_of_not_finite hf]
  | true => simp [Lasts, hf, decimalValue?_num hf]

theorem Lasts.unsigned (h : x.Lasts) : IsUnsigned (num x) := unsigned_num h.1 h.2.le

/-- Of two that last the smaller one does. -/
theorem Lasts.min (hx : x.Lasts) (hy : y.Lasts) : (x.min y).Lasts := by
  rcases min_eq_or (y := y) (.inl (isNaN_of_isFinite hx.1)) with ⟨h, -⟩ | ⟨h, -⟩
  · rwa [h]
  · rwa [h]

end Numeric.Binary64

/-! ### What is kept and what is required -/

/-- Gates have something between their bounds, lengths are positive numbers, nothing is divided by
zero, and a blend that is too short to be written is a concatenation of its two clips. -/
structure Composition.KeepsLengths (composition : Composition) (program : Program) : Prop where
  gates : ∀ option ∈ program.options, option.key = some "enable" →
    ∃ times ∈ Reader.gateTimes? option.value,
      ∃ start ∈ instant? times.1, ∃ stop ∈ instant? times.2, start < stop
  lengths : ∀ option ∈ program.options, ∀ key ∈ option.key, key ∈ lengthKeys →
    ∃ seconds ∈ decimalValue? option.value, 0 < seconds
  divisors : ∀ option ∈ program.options, (∀ key ∈ option.key, key ∉ textKeys) →
    ∀ divisor ∈ Reader.divisors option.value.toList,
      decimalValue? (String.ofList divisor) ≠ some 0
  joins : Transition.ofSetting composition.transition ≠ .cut →
    ∀ boundary, boundary + 1 < composition.clips.length →
      num (composition.blendDuration boundary) = "0" →
      ∃ left right, ⟨[left, right], [Transition.concat 2], [.numbered .join boundary]⟩ ∈
        program.stages

/-- No length of the composition is rounded to nothing: clips and blends last more than half a
thousandth of a second, the total is a number where it is written, and every window that has a gate
ends with a later thousandth than it begins with. -/
structure Composition.OutlastsRounding (composition : Composition) : Prop where
  clips : ∀ clip ∈ composition.clips, 1 / 2000 < clip.duration.value
  blends : Transition.ofSetting composition.transition ≠ .cut →
    ∀ boundary, boundary + 1 < composition.clips.length →
      ¬ composition.blendDuration boundary ≤ 0 →
      1 / 2000 < (composition.blendDuration boundary).value
  total : (composition.music.isSome = true ∨
      ∃ overlay ∈ composition.overlays, overlay.kind = .progressBar) →
    composition.timeline.totalDuration.isFinite = true
  captions : ∀ caption ∈ composition.captions,
    (composition.boundary caption.clipIndex).RoundsBefore
      (composition.boundary (caption.clipIndex + 1))
  overlays : ∀ overlay ∈ composition.overlays, overlay.kind ≠ .progressBar →
    (overlay.window composition.timeline.totalDuration).start.RoundsBefore
      (overlay.window composition.timeline.totalDuration).stop
  badges : ∀ ranking ∈ composition.ranking, ranking.enabled = true →
    ∀ clip < composition.clips.length,
      (composition.boundary clip).RoundsBefore (composition.boundary (clip + 1))

/-- The vocabulary in which everything lasts. -/
def Graph.Vocabulary.lasting : Vocabulary where
  number _ := True
  length x := x.Lasts
  divisor x := x.Lasts
  gate window :=
    window.start.IsLength ∧ window.stop.IsLength ∧ window.start.RoundsBefore window.stop
  size _ := True

namespace Composition.Accepted

variable {composition : Composition}

/-- A blend that is not empty lasts if it is more than half a thousandth. -/
private theorem lasts_blendDuration_iff {boundary : ℕ}
    (hd : ¬ composition.blendDuration boundary ≤ 0) :
    (composition.blendDuration boundary).Lasts ↔
      1 / 2000 < (composition.blendDuration boundary).value := by
  have hfinite : (composition.blendDuration boundary).isFinite = true :=
    (Transition.clamped_clampDuration _ _ _).isFinite
  have hpos := Binary64.units_pos_of_pos (Binary64.pos_of_not_le_zero hfinite hd)
  exact Binary64.lasts_iff hfinite hpos.le

private theorem lasts_duration_iff (h : composition.Accepted) {clip : Clip}
    (hc : clip ∈ composition.clips) : clip.duration.Lasts ↔ 1 / 2000 < clip.duration.value := by
  obtain ⟨hfinite, hpos⟩ := h.duration_pos _ (List.mem_map_of_mem hc)
  exact Binary64.lasts_iff hfinite (Binary64.units_pos_of_pos hpos).le

/-- The total lasts if it is finite and the first clip lasts. -/
private theorem lasts_totalDuration (h : composition.Accepted)
    (hc : ∀ clip ∈ composition.clips, 1 / 2000 < clip.duration.value)
    (hf : composition.timeline.totalDuration.isFinite = true) :
    composition.timeline.totalDuration.Lasts := by
  obtain ⟨clip, rest, hclips⟩ := List.exists_cons_of_ne_nil h.clips_ne_nil
  have hfirst : composition.durations[0]? = some clip.duration := by
    rw [durations, hclips]
    rfl
  obtain ⟨hfinite, hpos⟩ := h.areLengths.of_getElem? hfirst
  have hone : Timeline.startOf composition.durations 1 = clip.duration :=
    (Timeline.startOf_succ hfirst).trans (Binary64.zero_add_of_pos hfinite hpos)
  have htotal : Timeline.startOf composition.durations composition.durations.length =
      composition.timeline.totalDuration := Timeline.startOf_length _
  have hle := h.areLengths.value_startOf_le (htotal ▸ hf) 1
  rw [hone, htotal] at hle
  refine (Binary64.lasts_iff hf ?_).mpr ((hc clip (hclips ▸ List.mem_cons_self)).trans_le hle)
  rw [← htotal]
  exact (h.areLengths.isLength_startOf _).nonneg

/-- The window of an accepted overlay has lengths for its bounds. -/
private theorem isLength_window (h : composition.Accepted) {overlay : Overlay}
    (ho : overlay ∈ composition.overlays) :
    (overlay.window composition.timeline.totalDuration).start.IsLength ∧
      (overlay.window composition.timeline.totalDuration).stop.IsLength := by
  have hoverlay := h.overlays overlay ho
  obtain ⟨hfinite, hnonneg⟩ := Bool.and_eq_true_iff.mp hoverlay.start
  have hstop := hoverlay.stop
  have horder := hoverlay.order
  rw [← h.totalDuration_timeline] at hstop horder
  have hlt := Binary64.lt_of_not_le (Binary64.isNaN_of_isFinite hfinite)
    (Binary64.isNaN_of_isFinite hstop) horder
  have hzero := Binary64.isLength_zero.nonneg
  have hunits := Binary64.units_le_units (of_decide_eq_true hnonneg)
  exact ⟨⟨Binary64.isNaN_max_zero _,
      hzero.trans (Binary64.units_le_units (Binary64.max_zero_nonneg _))⟩,
    ⟨Binary64.isNaN_of_isFinite hstop,
      (hzero.trans hunits).trans (Binary64.units_lt_units hlt).le⟩⟩

private theorem gate_of_window? (h : composition.Accepted) {clip : ℕ} {window : TimeWindow}
    (hw : composition.timeline.window? clip = some window)
    (hr : (composition.boundary clip).RoundsBefore (composition.boundary (clip + 1))) :
    WindowIn .lasting window := by
  obtain ⟨hstart, hstop⟩ := eq_boundary_of_window? hw
  refine ⟨trivial, trivial, ?_⟩
  show _ ∧ _ ∧ _
  rw [hstart, hstop]
  exact ⟨h.isLength_boundary clip, h.isLength_boundary (clip + 1), hr⟩

/-- If no length is rounded to nothing, the program is written with lengths that last. -/
theorem spelledIn_lasting (h : composition.Accepted) (ho : composition.OutlastsRounding)
    (fonts : FontResolver) : composition.SpelledIn .lasting fonts where
  ramp := ⟨trivial, (by decide +kernel : Decoration.rampLength.Lasts)⟩
  clips clip hc := ⟨trivial, trivial, (h.lasts_duration_iff hc).mpr (ho.clips clip hc)⟩
  blends ht boundary hb hd := by
    have hlasts := (lasts_blendDuration_iff hd).mpr (ho.blends ht boundary hb hd)
    exact ⟨trivial, hlasts, hlasts, trivial⟩
  layers := by
    refine forall_mem_layers.mpr ⟨fun _ caption hi ↦ ⟨?_, fun _ _ ↦ trivial, ?_⟩,
      fun _ overlay hi ↦ ⟨?_, fun _ _ ↦ trivial, fun hbar ↦ ?_⟩,
      fun _ _ _ ↦ ⟨List.forall_mem_nil _, fun _ _ ↦ trivial, ?_⟩,
      fun ranking hr he clip hc ↦ ⟨?_, fun _ _ ↦ trivial, ?_⟩⟩
    · exact fun window hw ↦ h.gate_of_window? (Option.mem_toList.mp hw)
        (ho.captions caption (List.mem_of_getElem? hi))
    · exact fun hbar ↦ Bool.noConfusion hbar
    · intro window hw
      obtain ⟨hk, rfl⟩ := Layer.mem_windows_overlay.mp hw
      have hmem := List.mem_of_getElem? hi
      obtain ⟨hstart, hstop⟩ := h.isLength_window hmem
      exact ⟨trivial, trivial, hstart, hstop, ho.overlays overlay hmem hk⟩
    · have hlasts := h.lasts_totalDuration ho.clips
        (ho.total (.inr ⟨overlay, List.mem_of_getElem? hi, of_decide_eq_true hbar⟩))
      exact ⟨trivial, hlasts, hlasts⟩
    · exact fun hbar ↦ Bool.noConfusion hbar
    · exact fun window hw ↦ h.gate_of_window? (Option.mem_toList.mp hw)
        (ho.badges ranking hr he clip hc)
    · exact fun hbar ↦ Bool.noConfusion hbar
  music _ hm := by
    have hlasts := h.lasts_totalDuration ho.clips (ho.total (.inl (Option.isSome_of_mem hm)))
    have hfade : Soundtrack.fadeLength.Lasts := by decide +kernel
    exact ⟨trivial, trivial, hlasts, ⟨trivial, hfade⟩, ⟨trivial, hfade.min hlasts⟩, trivial⟩

end Composition.Accepted

/-- A divisor that lasts is not zero. -/
private theorem decimalValue?_ne_zero {e : Expression} (h : Vocabulary.lasting.Divides e) :
    decimalValue? e.render ≠ some 0 := by
  intro hzero
  cases e with
  | decimal x =>
    obtain ⟨seconds, hseconds, hpos⟩ := Binary64.lasts_iff_decimalValue?.mp h
    exact hpos.ne' (Option.some.inj (hseconds.symm.trans hzero))
  | whole n =>
    have hpos : 0 < n := h
    have hvalue := Option.some.inj ((Numeric.decimalValue?_toString n).symm.trans hzero)
    exact hpos.ne' (by exact_mod_cast hvalue)
  | _ => cases h

namespace Parts.Fit

variable {fonts : FontResolver} {composition : Composition} {parts : Parts}

/-- The stages of a boundary are part of the program unless the clips are cut. -/
private theorem boundaryStages_mem (h : parts.Fit fonts composition) (hn : composition.clips ≠ [])
    (ht : Transition.ofSetting composition.transition ≠ .cut) {boundary : ℕ}
    (hb : boundary + 1 < composition.clips.length) :
    ∀ stage ∈ composition.boundaryStages boundary, stage ∈ (parts.program composition).stages := by
  intro stage hs
  rw [h.stages_eq hn, h.joining_eq hn]
  refine List.mem_append_left _ (List.mem_append_left _ (List.mem_append_left _
    (List.mem_append_right _ ?_)))
  rcases Composition.joined_cases hn h.joined with ⟨hone, -⟩ | ⟨-, hcut, -⟩ | ⟨-, -, hj⟩
  · omega
  · exact absurd hcut ht
  · rw [hj]
    exact List.mem_flatMap.mpr ⟨boundary, List.mem_range.mpr (by omega), hs⟩

/-- If no length is rounded to nothing, the program keeps them all. -/
private theorem keepsLengths (h : parts.Fit fonts composition) (ha : composition.Accepted)
    (ho : composition.OutlastsRounding) :
    composition.KeepsLengths (parts.program composition) := by
  have hspelled : ∀ option ∈ (parts.program composition).options, option.SpelledIn .lasting :=
    List.forall_mem_flatMap.mpr fun stage hs ↦
      (h.spelled ha.clips_ne_nil (ha.spelledIn_lasting ho fonts) stage hs).options
  refine ⟨fun option hm hk ↦ ?_, fun option hm key hk hkey ↦ ?_, fun option hm hk d hd ↦ ?_,
    fun ht boundary hb hnum ↦ ?_⟩
  · obtain ⟨window, ⟨hstart, hstop, hrounds⟩, rfl⟩ := (hspelled option hm).gate_of_key hk
    exact ⟨_, gateTimes?_enable window, _, Binary64.instant?_num hstart, _,
      Binary64.instant?_num hstop, Binary64.instant_lt_instant_iff.mpr hrounds⟩
  · obtain ⟨x, hx, hvalue⟩ := (hspelled option hm).length_of_key hk hkey
    rw [hvalue]
    exact Binary64.lasts_iff_decimalValue?.mp hx
  · obtain ⟨e, he, rfl⟩ := (hspelled option hm).divisors (fun _ hx ↦ hx.unsigned) hk d hd
    rw [String.ofList_toList]
    exact decimalValue?_ne_zero he
  · have hempty : composition.blendDuration boundary ≤ 0 := by
      by_contra hd
      obtain ⟨seconds, hseconds, hpos⟩ := Binary64.lasts_iff_decimalValue?.mp
        ((Composition.Accepted.lasts_blendDuration_iff hd).mpr (ho.blends ht boundary hb hd))
      rw [hnum] at hseconds
      have hzero : decimalValue? "0" = some 0 := rfl
      exact hpos.ne' (Option.some.inj (hseconds.symm.trans hzero))
    rcases Composition.joinAfter_cases ht boundary with ⟨-, hj⟩ | ⟨hd, -⟩
    · have hstage : composition.boundaryJoin boundary ∈ composition.boundaryStages boundary :=
        List.mem_append_right _ List.mem_cons_self
      have hmem := h.boundaryStages_mem ha.clips_ne_nil ht hb _ hstage
      rw [Composition.boundaryJoin, hj] at hmem
      exact ⟨_, _, hmem⟩
    · exact absurd hempty hd

end Parts.Fit

/-! ### Everything that is kept lasts -/

namespace Composition.KeepsLengths

variable {composition : Composition} {program : Program} {stage : Stage}

/-- A length that is kept lasts. -/
private theorem lasts (h : composition.KeepsLengths program) (hs : stage ∈ program.stages)
    (key : String) {x : Binary64} (hkey : key ∈ lengthKeys)
    (ho : opt key (num x) ∈ stage.options) : x.Lasts :=
  Binary64.lasts_iff_decimalValue?.mpr
    (h.lengths _ (List.mem_flatMap.mpr ⟨stage, hs, ho⟩) key rfl hkey)

/-- A window that is kept has something between its bounds. -/
private theorem roundsBefore (h : composition.KeepsLengths program) (hs : stage ∈ program.stages)
    {window : TimeWindow} (ho : Decoration.enable window ∈ stage.options)
    (hstart : window.start.IsLength) (hstop : window.stop.IsLength) :
    window.start.RoundsBefore window.stop := by
  obtain ⟨times, htimes, first, hfirst, last, hlast, hlt⟩ :=
    h.gates _ (List.mem_flatMap.mpr ⟨stage, hs, ho⟩) rfl
  obtain rfl := Option.some.inj ((gateTimes?_enable window).symm.trans htimes)
  obtain rfl := Option.some.inj ((Binary64.instant?_num hstart).symm.trans hfirst)
  obtain rfl := Option.some.inj ((Binary64.instant?_num hstop).symm.trans hlast)
  exact Binary64.instant_lt_instant_iff.mp hlt

end Composition.KeepsLengths

namespace Parts.Fit

variable {fonts : FontResolver} {composition : Composition} {parts : Parts}

private theorem lasts_clip (h : parts.Fit fonts composition) (hn : composition.clips ≠ [])
    (hk : composition.KeepsLengths (parts.program composition)) {clip : Clip}
    (hc : clip ∈ composition.clips) : clip.duration.Lasts := by
  obtain ⟨index, hindex⟩ := List.mem_iff_getElem?.mp hc
  have hstages : ∀ stage ∈ composition.clipStages parts.background,
      stage ∈ (parts.program composition).stages := by
    intro stage hs
    rw [h.stages_eq hn]
    simp [hs]
  refine hk.lasts (hstages _ (List.mem_flatMap.mpr
    ⟨(clip, index), List.mk_mem_zipIdx_iff_getElem?.mpr hindex, List.mem_cons_self⟩))
    "duration" (by decide) ?_
  simp [Stage.options, Stage.chain, trimFilters]

private theorem lasts_blend (h : parts.Fit fonts composition) (hn : composition.clips ≠ [])
    (hk : composition.KeepsLengths (parts.program composition))
    (ht : Transition.ofSetting composition.transition ≠ .cut) {boundary : ℕ}
    (hb : boundary + 1 < composition.clips.length)
    (hd : ¬ composition.blendDuration boundary ≤ 0) :
    (composition.blendDuration boundary).Lasts := by
  have hjoin : composition.boundaryJoin boundary ∈ composition.boundaryStages boundary :=
    List.mem_append_right _ List.mem_cons_self
  refine hk.lasts (h.boundaryStages_mem hn ht hb _ hjoin) "duration" (by decide) ?_
  rw [Composition.boundaryJoin]
  rcases Composition.joinAfter_cases ht boundary with ⟨hempty, -⟩ | ⟨-, ⟨name, hj⟩ | ⟨effect, hj⟩⟩
  · exact absurd hempty hd
  · rw [hj]
    simp [Stage.options, Transition.Join.stage, Transition.Join.filter, Transition.blendFilter]
  · rw [hj]
    simp [Stage.options, Transition.Join.stage, Transition.Join.filter, Transition.blendFilter]

private theorem lasts_total (h : parts.Fit fonts composition) (hn : composition.clips ≠ [])
    (hk : composition.KeepsLengths (parts.program composition))
    (ht : composition.music.isSome = true ∨
      ∃ overlay ∈ composition.overlays, overlay.kind = .progressBar) :
    composition.timeline.totalDuration.Lasts := by
  rcases ht with hm | ⟨overlay, ho, hbar⟩
  · obtain ⟨music, hm⟩ := Option.isSome_iff_exists.mp hm
    refine hk.lasts (parts.musicStage_mem hm) "duration" (by decide) ?_
    simp [Stage.options, Stage.chain, Soundtrack.musicStage]
  · obtain ⟨index, hi⟩ := List.mem_iff_getElem?.mp ho
    obtain ⟨-, hoverlays, -⟩ :=
      (Composition.forall_mem_layers (p := (· ∈ composition.layers))).mp fun _ hl ↦ hl
    obtain ⟨drawing, hdrawn, hstages⟩ := h.exists_drawing hn (hoverlays index overlay hi)
    obtain ⟨stage, hs, hd⟩ := hdrawn.total_mem (decide_eq_true hbar)
    exact hk.lasts (hstages stage hs) "d" (by decide) hd

private theorem roundsBefore_window (h : parts.Fit fonts composition)
    (hn : composition.clips ≠ []) (hk : composition.KeepsLengths (parts.program composition))
    {layer : Layer} (hl : layer ∈ composition.layers) {window : TimeWindow}
    (hw : window ∈ layer.windows (composition.scene fonts)) (hstart : window.start.IsLength)
    (hstop : window.stop.IsLength) : window.start.RoundsBefore window.stop := by
  obtain ⟨drawing, hdrawn, hstages⟩ := h.exists_drawing hn hl
  obtain ⟨stage, hs, ho⟩ := hdrawn.enable_mem window hw
  exact hk.roundsBefore (hstages stage hs) ho hstart hstop

private theorem roundsBefore_clip (h : parts.Fit fonts composition) (ha : composition.Accepted)
    (hk : composition.KeepsLengths (parts.program composition)) {layer : Layer}
    (hl : layer ∈ composition.layers) {clip : ℕ} (hc : clip < composition.clips.length)
    (hw : layer.windows (composition.scene fonts) = (composition.timeline.window? clip).toList) :
    (composition.boundary clip).RoundsBefore (composition.boundary (clip + 1)) := by
  obtain ⟨window, hwindow, hstart, hstop⟩ := Composition.exists_window? hc
  rw [← hstart, ← hstop]
  refine h.roundsBefore_window ha.clips_ne_nil hk hl (hw ▸ Option.mem_toList.mpr hwindow) ?_ ?_
  · exact hstart ▸ ha.isLength_boundary clip
  · exact hstop ▸ ha.isLength_boundary (clip + 1)

/-- A program that keeps all lengths is one whose composition has none that is rounded to
nothing. -/
private theorem outlastsRounding (h : parts.Fit fonts composition) (ha : composition.Accepted)
    (hk : composition.KeepsLengths (parts.program composition)) :
    composition.OutlastsRounding := by
  obtain ⟨hcaptions, hoverlays, -, hbadges⟩ :=
    (Composition.forall_mem_layers (p := (· ∈ composition.layers))).mp fun _ hl ↦ hl
  have hn := ha.clips_ne_nil
  constructor
  · exact fun clip hc ↦ (ha.lasts_duration_iff hc).mp (h.lasts_clip hn hk hc)
  · exact fun ht boundary hb hd ↦ (Composition.Accepted.lasts_blendDuration_iff hd).mp
      (h.lasts_blend hn hk ht hb hd)
  · exact fun ht ↦ (h.lasts_total hn hk ht).1
  · intro caption hc
    obtain ⟨index, hi⟩ := List.mem_iff_getElem?.mp hc
    exact h.roundsBefore_clip ha hk (hcaptions index caption hi) (ha.captions caption hc).clipIndex
      rfl
  · intro overlay ho hbar
    obtain ⟨index, hi⟩ := List.mem_iff_getElem?.mp ho
    obtain ⟨hstart, hstop⟩ := ha.isLength_window ho
    exact h.roundsBefore_window hn hk (hoverlays index overlay hi)
      (Layer.mem_windows_overlay.mpr ⟨hbar, rfl⟩) hstart hstop
  · exact fun ranking hr he clip hc ↦ h.roundsBefore_clip ha hk (hbadges ranking hr he clip hc) hc
      rfl

end Parts.Fit

/-- The program of an accepted composition keeps its lengths exactly if none of them is rounded to
nothing: then every gate ends later than it begins, every length is a positive number, nothing is
divided by zero, and a blend that is written as zero is a concatenation of two clips. -/
theorem keepsLengths_iff {fonts : FontResolver} {composition : Composition} {program : Program}
    (h : composition.compile fonts = .ok program) :
    composition.KeepsLengths program ↔ composition.OutlastsRounding := by
  obtain ⟨ha, parts, hfit, rfl⟩ := Composition.exists_parts_of_compile h
  exact ⟨hfit.outlastsRounding ha, hfit.keepsLengths ha⟩

/-- All lengths of decorated clips are kept. -/
theorem keepsLengths_decoratedClips :
    ∃ program, decoratedClips.compile (fun _ _ ↦ none) = .ok program ∧
      decoratedClips.KeepsLengths program := by
  have ha : decoratedClips.Accepted := Composition.accepted_of_toOption (by decide +kernel)
  obtain ⟨parts, -, hp⟩ := ha.compile_eq_ok (by decide +kernel) fun _ _ ↦ none
  have hblends : ∀ boundary < 2, 1 / 2000 < (decoratedClips.blendDuration boundary).value := by
    decide +kernel
  have hbadges : ∀ clip < 3, (decoratedClips.boundary clip).RoundsBefore
      (decoratedClips.boundary (clip + 1)) := by
    decide +kernel
  refine ⟨_, hp, (keepsLengths_iff hp).mpr ⟨by decide +kernel, ?_, fun _ ↦ by decide +kernel,
    by decide +kernel, by decide +kernel, fun _ _ _ ↦ hbadges⟩⟩
  exact fun _ boundary hb _ ↦ hblends boundary (Nat.lt_of_succ_lt_succ hb)

/-- Two clips with a spin of less than half a thousandth of a second between them. -/
def hastyClips : Composition where
  clips := [⟨⟨"a.mp4"⟩, 0, 4⟩, ⟨⟨"b.mp4"⟩, 0, 4⟩]
  transition := some ⟨"spin", 0.0004⟩

/-- The composition is accepted, but its blend is no concatenation: it has the duration zero, and
its edges are divided by zero. -/
theorem not_keepsLengths_hastyClips :
    hastyClips.check = .ok () ∧ ∃ program,
      hastyClips.compile (fun _ _ ↦ none) = .ok program ∧ ¬ hastyClips.KeepsLengths program ∧
      num (hastyClips.blendDuration 0) = "0" ∧
      (∃ stage ∈ program.stages, stage.outputs = [.numbered .join 0] ∧
        stage.filters = [⟨"xfade",
          [opt "transition" "fade", opt "duration" "0", opt "offset" "4"]⟩]) ∧
      ∃ option ∈ program.options, option.key = some "a" ∧
        ['0'] ∈ Reader.divisors option.value.toList := by
  have ha : hastyClips.Accepted := Composition.accepted_of_toOption (by decide +kernel)
  obtain ⟨parts, hfit, hp⟩ := ha.compile_eq_ok (by decide) fun _ _ ↦ none
  have hstages := hfit.boundaryStages_mem ha.clips_ne_nil (by decide +kernel)
    (by decide : 0 + 1 < hastyClips.clips.length)
  refine ⟨(Composition.check_eq_ok_iff _).mpr ha, _, hp, fun hk ↦ ?_, by decide +kernel, ?_, ?_⟩
  · have hshort : ¬ (hastyClips.blendDuration 0).Lasts := by decide +kernel
    exact hshort (hfit.lasts_blend ha.clips_ne_nil hk (by decide +kernel) (by decide)
      (by decide +kernel))
  · exact ⟨hastyClips.boundaryJoin 0, hstages _ (List.mem_append_right _ List.mem_cons_self),
      by decide +kernel, by decide +kernel⟩
  · have hedges : ∃ stage ∈ hastyClips.boundaryStages 0, ∃ option ∈ stage.options,
        option.key = some "a" ∧ ['0'] ∈ Reader.divisors option.value.toList := by
      decide +kernel
    obtain ⟨stage, hs, option, ho, hzero⟩ := hedges
    exact ⟨option, List.mem_flatMap.mpr ⟨stage, hstages stage hs, ho⟩, hzero⟩

end Montage
