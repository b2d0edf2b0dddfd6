import Montage.Proofs.Composition.Timeline
import Montage.Proofs.Numeric.Instants
import Montage.Proofs.Numeric.Monotone

/-!
# Where clips begin

The windows of a timeline are running sums of doubles. They tile the time from zero to the total,
whatever the lengths of the clips. A sum may leave the range of the doubles, though, and it may
absorb a length that is small beside it; when neither happens the windows are proper.
-/

namespace Montage.Timeline

open Montage.Numeric

/-- Lengths of clips as a composition may have them: finite and positive. -/
def AreLengths (durations : List Binary64) : Prop :=
  ∀ duration ∈ durations, duration.isFinite = true ∧ 0 < duration

/-- Where the clip with this number begins: what the lengths before it add up to. -/
def startOf (durations : List Binary64) (clip : ℕ) : Binary64 :=
  (durations.take clip).foldl (· + ·) 0

variable {durations : List Binary64} {clip : ℕ} {duration : Binary64} {window : TimeWindow}

/-! ### The windows tile the time -/

theorem startOf_length (durations : List Binary64) :
    startOf durations durations.length = (Timeline.mk (windowsOf 0 durations)).totalDuration := by
  rw [totalDuration_windowsOf, startOf, List.take_length]

theorem startOf_succ (h : durations[clip]? = some duration) :
    startOf durations (clip + 1) = startOf durations clip + duration := by
  rw [startOf, List.take_add_one, List.foldl_append, h]
  rfl

private theorem getElem?_windowsFrom (start : Binary64) (durations : List Binary64) (clip : ℕ) :
    (windowsOf start durations)[clip]? = durations[clip]?.map fun duration ↦
      ⟨(durations.take clip).foldl (· + ·) start,
        (durations.take clip).foldl (· + ·) start + duration⟩ := by
  induction durations generalizing start clip with
  | nil => rfl
  | cons duration rest ih =>
    cases clip with
    | zero => rfl
    | succ clip => exact ih (start + duration) clip

/-- The window of a clip begins where the clips before it end. -/
theorem getElem?_windowsOf (durations : List Binary64) (clip : ℕ) :
    (windowsOf 0 durations)[clip]? = durations[clip]?.map fun duration ↦
      ⟨startOf durations clip, startOf durations clip + duration⟩ :=
  getElem?_windowsFrom 0 durations clip

theorem exists_duration_of_window (hw : (windowsOf 0 durations)[clip]? = some window) :
    ∃ duration, durations[clip]? = some duration ∧ window.start = startOf durations clip ∧
      window.stop = window.start + duration := by
  rw [getElem?_windowsOf] at hw
  obtain ⟨duration, hd, rfl⟩ := Option.map_eq_some_iff.mp hw
  exact ⟨duration, hd, rfl, rfl⟩

/-- Every window is that of a clip. -/
theorem exists_of_mem_windowsOf {window : TimeWindow} (h : window ∈ windowsOf 0 durations) :
    ∃ clip duration, durations[clip]? = some duration ∧
      window = ⟨startOf durations clip, startOf durations clip + duration⟩ := by
  obtain ⟨clip, hclip⟩ := List.mem_iff_getElem?.mp h
  rw [getElem?_windowsOf] at hclip
  obtain ⟨duration, hd, rfl⟩ := Option.map_eq_some_iff.mp hclip
  exact ⟨clip, duration, hd, rfl⟩

/-- Each window ends where the next one begins. -/
theorem isChain_windowsOf (start : Binary64) (durations : List Binary64) :
    (windowsOf start durations).IsChain fun window next ↦ window.stop = next.start := by
  induction durations generalizing start with
  | nil => exact .nil
  | cons duration rest ih =>
    have htail := ih (start + duration)
    cases rest with
    | nil => exact .singleton _
    | cons following others => exact .cons_cons rfl htail

/-! ### Sums of lengths -/

theorem AreLengths.values_nonneg (h : AreLengths durations) :
    ∀ x ∈ durations, x.isFinite = true ∧ 0 ≤ x.value := by
  intro x hx
  obtain ⟨hfinite, hpos⟩ := h x hx
  exact ⟨hfinite, (Binary64.value_pos_of_units_pos (Binary64.units_pos_of_pos hpos)).le⟩

theorem AreLengths.of_getElem? (h : AreLengths durations) (hd : durations[clip]? = some duration) :
    duration.isFinite = true ∧ 0 < duration :=
  h duration (List.mem_of_getElem? hd)

/-- A start is followed by itself, after the last clip, or by a later one. -/
theorem AreLengths.startOf_succ_cases (h : AreLengths durations) (clip : ℕ) :
    startOf durations (clip + 1) = startOf durations clip ∨
      ∃ duration : Binary64, duration.isFinite = true ∧ 0 < duration ∧
        startOf durations (clip + 1) = startOf durations clip + duration := by
  cases hd : durations[clip]? with
  | none =>
    refine .inl ?_
    rw [startOf, List.take_add_one, hd, Option.toList_none, List.append_nil, startOf]
  | some duration =>
    obtain ⟨hfinite, hpos⟩ := h.of_getElem? hd
    exact .inr ⟨duration, hfinite, hpos, startOf_succ hd⟩

theorem AreLengths.isLength_startOf (h : AreLengths durations) (clip : ℕ) :
    (startOf durations clip).IsLength := by
  induction clip with
  | zero => exact Binary64.isLength_zero
  | succ clip ih =>
    obtain heq | ⟨duration, hfinite, hpos, heq⟩ := h.startOf_succ_cases clip
    · rwa [heq]
    · rw [heq]
      exact (ih.add hfinite hpos).1

/-- A window does not end before it begins. -/
theorem AreLengths.start_le_stop (h : AreLengths durations)
    (hd : durations[clip]? = some duration) :
    startOf durations clip ≤ startOf durations clip + duration := by
  obtain ⟨hfinite, hpos⟩ := h.of_getElem? hd
  have hstart := h.isLength_startOf clip
  obtain ⟨hsum, hle, -⟩ := hstart.add hfinite hpos
  exact (Binary64.le_iff_units_le hstart.number hsum.number).mpr hle

/-- The sum of all clips goes on from the one before any clip. -/
theorem startOf_length_eq_foldl (durations : List Binary64) (clip : ℕ) :
    startOf durations durations.length =
      (durations.drop clip).foldl (· + ·) (startOf durations clip) := by
  rw [startOf, List.take_length, startOf, ← List.foldl_append, List.take_append_drop]

/-- A sum that is finite after all clips has been finite before each of them. -/
theorem AreLengths.isFinite_startOf (h : AreLengths durations)
    (hf : (startOf durations durations.length).isFinite = true) (clip : ℕ) :
    (startOf durations clip).isFinite = true := by
  rw [startOf_length_eq_foldl durations clip] at hf
  exact Binary64.isFinite_of_isFinite_foldl (h.isLength_startOf clip).number
    (fun d hd ↦ (h d (List.mem_of_mem_drop hd)).1) hf

/-- The sum before a clip is not above the one after all clips. -/
theorem AreLengths.value_startOf_le (h : AreLengths durations)
    (hf : (startOf durations durations.length).isFinite = true) (clip : ℕ) :
    (startOf durations clip).value ≤ (startOf durations durations.length).value := by
  have hstart := h.isLength_startOf clip
  have hdropped : AreLengths (durations.drop clip) := fun x hx ↦ h x (List.mem_of_mem_drop hx)
  have hbefore := h.isFinite_startOf hf clip
  rw [startOf_length_eq_foldl durations clip] at hf ⊢
  exact Binary64.value_le_value_foldl hbefore (Binary64.value_nonneg_iff.mpr hstart.nonneg)
    hdropped.values_nonneg hf

/-! ### Proper windows -/

/-- The windows begin at zero and follow each other, one for each clip: each begins where the clips
before it end. -/
structure Tiles (timeline : Timeline) (durations : List Binary64) : Prop where
  size : timeline.size = durations.length
  first : ∀ window ∈ timeline.windows.head?, window.start = 0
  contiguous : timeline.windows.IsChain fun window next ↦ window.stop = next.start
  ordered : ∀ window ∈ timeline.windows, window.start ≤ window.stop
  clip : ∀ clip duration, durations[clip]? = some duration →
    timeline.window? clip = some ⟨startOf durations clip, startOf durations clip + duration⟩

/-- All windows are finite and none is empty, and the total is finite. -/
structure Proper (timeline : Timeline) : Prop where
  finite : ∀ window ∈ timeline.windows,
    window.start.isFinite = true ∧ window.stop.isFinite = true
  nonempty : ∀ window ∈ timeline.windows, window.start < window.stop
  total : timeline.totalDuration.isFinite = true

/-- Whatever the lengths, their windows tile the time. -/
theorem AreLengths.tiles (h : AreLengths durations) :
    Tiles ⟨windowsOf 0 durations⟩ durations where
  size := length_windowsOf 0 durations
  first := by
    intro window hw
    cases durations with
    | nil => cases hw
    | cons => exact (Option.some.inj hw) ▸ rfl
  contiguous := isChain_windowsOf 0 durations
  ordered := by
    intro window hw
    obtain ⟨clip, duration, hd, rfl⟩ := exists_of_mem_windowsOf hw
    exact h.start_le_stop hd
  clip clip duration hd := by
    rw [window?, getElem?_windowsOf, hd]
    rfl

/-- A window is empty exactly if the sum before the clip absorbs its length. -/
theorem AreLengths.start_lt_stop_iff (h : AreLengths durations)
    (hd : durations[clip]? = some duration) :
    startOf durations clip < startOf durations clip + duration ↔
      (startOf durations clip + duration).same (startOf durations clip) = false := by
  have hle := h.start_le_stop hd
  obtain ⟨hstart, hstop⟩ := Binary64.isNaN_of_le hle
  rw [Bool.eq_false_iff, ne_eq, Binary64.same_iff]
  constructor
  · exact fun hlt hsame ↦ Binary64.not_le_of_lt hlt hsame.1
  · exact fun hsame ↦ Binary64.lt_of_not_le hstart hstop fun hback ↦ hsame ⟨hback, hle⟩

/-- The windows are finite exactly if the total is. -/
theorem AreLengths.finite_iff (h : AreLengths durations) (hn : durations ≠ []) :
    (∀ window ∈ windowsOf 0 durations,
        window.start.isFinite = true ∧ window.stop.isFinite = true) ↔
      (Timeline.mk (windowsOf 0 durations)).totalDuration.isFinite = true := by
  rw [← startOf_length]
  constructor
  · intro hall
    have hlt : durations.length - 1 < durations.length :=
      Nat.sub_lt (List.length_pos_iff.mpr hn) Nat.one_pos
    have hlast := List.getElem?_eq_getElem hlt
    have hwindow := (h.tiles.clip _ _ hlast)
    have hstop := (hall _ (List.mem_of_getElem? hwindow)).2
    rwa [← startOf_succ hlast, Nat.sub_add_cancel (List.length_pos_iff.mpr hn)] at hstop
  · intro hf window hw
    obtain ⟨clip, duration, hd, rfl⟩ := exists_of_mem_windowsOf hw
    have hstop := h.isFinite_startOf hf (clip + 1)
    rw [startOf_succ hd] at hstop
    exact ⟨h.isFinite_startOf hf clip, hstop⟩

/-- The windows are proper exactly if no sum overflows and none absorbs a length. -/
theorem AreLengths.proper_iff (h : AreLengths durations) (hn : durations ≠ []) :
    Proper ⟨windowsOf 0 durations⟩ ↔
      (Timeline.mk (windowsOf 0 durations)).totalDuration.isFinite = true ∧
        ∀ clip duration, durations[clip]? = some duration →
          (startOf durations clip + duration).same (startOf durations clip) = false := by
  constructor
  · intro hp
    refine ⟨hp.total, fun clip duration hd ↦ (h.start_lt_stop_iff hd).mp ?_⟩
    exact hp.nonempty _ (List.mem_of_getElem? (h.tiles.clip clip duration hd))
  · rintro ⟨hf, hsum⟩
    refine ⟨(h.finite_iff hn).mpr hf, fun window hw ↦ ?_, hf⟩
    obtain ⟨clip, duration, hd, rfl⟩ := exists_of_mem_windowsOf hw
    exact (h.start_lt_stop_iff hd).mpr (hsum clip duration hd)

/-- No length is absorbed that is more than one part in `2 ^ 53` of a finite total. -/
theorem AreLengths.same_eq_false (h : AreLengths durations)
    (hf : (startOf durations durations.length).isFinite = true)
    (hd : durations[clip]? = some duration)
    (hlarge : (startOf durations durations.length).value < 2 ^ 53 * duration.value) :
    (startOf durations clip + duration).same (startOf durations clip) = false := by
  have hstart := h.isFinite_startOf hf clip
  have hstop := h.isFinite_startOf hf (clip + 1)
  rw [startOf_succ hd] at hstop
  have hle := h.value_startOf_le hf clip
  have hnonneg := Binary64.value_nonneg_iff.mpr (h.isLength_startOf clip).nonneg
  have hnear := Binary64.add_near hstart (h.of_getElem? hd).1 hstop
  rw [Bool.eq_false_iff, ne_eq, Binary64.same_iff]
  rintro ⟨hback, hforth⟩
  have hvalue : (startOf durations clip + duration).value = (startOf durations clip).value :=
    le_antisymm (Binary64.value_le_value_iff.mpr (Binary64.units_le_units hback))
      (Binary64.value_le_value_iff.mpr (Binary64.units_le_units hforth))
  have hpos : 0 < duration.value :=
    Binary64.value_pos_of_units_pos (Binary64.units_pos_of_pos (h.of_getElem? hd).2)
  rw [Binary64.Near, hvalue, sub_add_cancel_left, abs_neg, abs_of_pos hpos,
    abs_of_nonneg hnonneg] at hnear
  linarith

/-! ### What rounding does to windows -/

/-- The sum of the first clips is off by one rounding for each clip after the first. -/
theorem AreLengths.startOf_succ_near (h : AreLengths durations)
    (hf : (startOf durations (clip + 1)).isFinite = true) :
    2 ^ 53 * |(startOf durations (clip + 1)).value -
        ((durations.take (clip + 1)).map Binary64.value).sum| ≤
      clip * (startOf durations (clip + 1)).value := by
  cases durations with
  | nil => simp [startOf, Binary64.value_zero]
  | cons first rest =>
    obtain ⟨⟨hfinite, hpos⟩, hrest⟩ := List.forall_mem_cons.mp h
    have hfirst := (Binary64.value_pos_of_units_pos (Binary64.units_pos_of_pos hpos)).le
    have htaken : AreLengths (rest.take clip) := fun x hx ↦ hrest x (List.mem_of_mem_take hx)
    have hstart : startOf (first :: rest) (clip + 1) = (rest.take clip).foldl (· + ·) first := by
      rw [startOf, List.take_succ_cons, List.foldl_cons, Binary64.zero_add_of_pos hfinite hpos]
    have hnonneg := Binary64.value_nonneg_iff.mpr (h.isLength_startOf (clip + 1)).nonneg
    rw [hstart] at hf hnonneg ⊢
    have hcount : ((rest.take clip).length : ℚ) ≤ clip :=
      Nat.cast_le.mpr (List.length_take_le clip rest)
    rw [List.take_succ_cons, List.map_cons, List.sum_cons]
    exact (Binary64.foldl_near hfinite hfirst htaken.values_nonneg hf).trans
      (mul_le_mul_of_nonneg_right hcount hnonneg)

/-- From any clip on, the total is off by one rounding for each clip that is added. -/
theorem AreLengths.total_near (h : AreLengths durations)
    (hf : (startOf durations durations.length).isFinite = true) (clip : ℕ) :
    2 ^ 53 * |(startOf durations durations.length).value -
        ((startOf durations clip).value + ((durations.drop clip).map Binary64.value).sum)| ≤
      (durations.length - clip : ℕ) * (startOf durations durations.length).value := by
  have hbefore := h.isFinite_startOf hf clip
  have hnonneg := Binary64.value_nonneg_iff.mpr (h.isLength_startOf clip).nonneg
  have hdropped : AreLengths (durations.drop clip) := fun x hx ↦ h x (List.mem_of_mem_drop hx)
  rw [startOf_length_eq_foldl durations clip] at hf ⊢
  rw [← List.length_drop]
  exact Binary64.foldl_near hbefore hnonneg hdropped.values_nonneg hf

/-- The difference of the ends of a window is a length that is off by one rounding. -/
theorem AreLengths.duration_near (h : AreLengths durations)
    (hw : (windowsOf 0 durations)[clip]? = some window) (hf : window.stop.isFinite = true) :
    window.duration.isFinite = true ∧ 0 ≤ window.duration.value ∧
      window.duration.value ≤ window.stop.value ∧
      2 ^ 53 * |window.duration.value - (window.stop.value - window.start.value)| ≤
        window.duration.value := by
  obtain ⟨duration, hd, hstart, hstop⟩ := exists_duration_of_window hw
  obtain ⟨hfinite, hpos⟩ := h.of_getElem? hd
  have hlength := h.isLength_startOf clip
  obtain ⟨-, hle, hback⟩ := hlength.add hfinite hpos
  rw [← hstart] at hlength hle hback
  rw [← hstop] at hle hback
  have hbefore := hback hf
  obtain ⟨hdiff, hbelow⟩ := Binary64.sub_of_units_le hf hbefore hlength.nonneg hle
  have hnear := Binary64.sub_near hf hbefore hdiff
  have hnonneg := hnear.nonneg (sub_nonneg.mpr (Binary64.value_le_value_iff.mpr hle))
  rw [Binary64.Near, abs_of_nonneg hnonneg] at hnear
  exact ⟨hdiff, hnonneg, hbelow, hnear⟩

/-- A window shows the length of its clip up to two roundings of its end. -/
theorem AreLengths.duration_near_clip (h : AreLengths durations)
    (hw : (windowsOf 0 durations)[clip]? = some window) (hf : window.stop.isFinite = true)
    (hd : durations[clip]? = some duration) :
    2 ^ 53 * |window.duration.value - duration.value| ≤ 2 * window.stop.value := by
  obtain ⟨-, hnonneg, hbelow, hnear⟩ := h.duration_near hw hf
  obtain ⟨found, hfound, hstart, hstop⟩ := exists_duration_of_window hw
  obtain rfl := Option.some.inj (hfound.symm.trans hd)
  obtain ⟨hfinite, hpos⟩ := h.of_getElem? hd
  have hlength := h.isLength_startOf clip
  rw [← hstart] at hlength
  have hback := (hlength.add hfinite hpos).2.2
  rw [← hstop] at hback
  have hsum := Binary64.add_near (hback hf) hfinite (hstop ▸ hf)
  rw [← hstop, Binary64.Near, abs_of_nonneg (hnonneg.trans hbelow)] at hsum
  have htriangle := abs_sub_le window.duration.value (window.stop.value - window.start.value)
    found.value
  have hshift : window.stop.value - window.start.value - found.value =
      window.stop.value - (window.start.value + found.value) := by
    ring
  rw [hshift] at htriangle
  linarith

/-- The clips before a window and what it shows of its own add up to its end, up to one rounding for
each of those clips. -/
theorem AreLengths.stop_near (h : AreLengths durations)
    (hw : (windowsOf 0 durations)[clip]? = some window) (hf : window.stop.isFinite = true) :
    2 ^ 53 * |((durations.take clip).map Binary64.value).sum + window.duration.value -
        window.stop.value| ≤ clip * window.stop.value := by
  obtain ⟨duration, hd, hstart, hstop⟩ := exists_duration_of_window hw
  obtain ⟨hfinite, hpos⟩ := h.of_getElem? hd
  cases clip with
  | zero =>
    have hshown : window.duration = window.stop := by
      rw [TimeWindow.duration, hstop, hstart]
      show 0 + duration - 0 = 0 + duration
      rw [Binary64.zero_add_of_pos hfinite hpos, Binary64.sub_zero_of_pos hfinite hpos]
    simp [hshown]
  | succ clip =>
    obtain ⟨-, hnonneg, hbelow, hnear⟩ := h.duration_near hw hf
    have hlength := h.isLength_startOf (clip + 1)
    obtain ⟨-, hle, hback⟩ := hlength.add hfinite hpos
    rw [← hstart, ← hstop] at hle hback
    have hbefore := h.startOf_succ_near (hstart ▸ hback hf)
    rw [← hstart] at hbefore
    have hgrows := Binary64.value_le_value_iff.mpr hle
    have hscaled := mul_le_mul_of_nonneg_left hgrows (Nat.cast_nonneg (α := ℚ) clip)
    have hsplit : ((durations.take (clip + 1)).map Binary64.value).sum + window.duration.value -
        window.stop.value = (window.duration.value - (window.stop.value - window.start.value)) -
          (window.start.value - ((durations.take (clip + 1)).map Binary64.value).sum) := by
      ring
    have htriangle := abs_sub (window.duration.value - (window.stop.value - window.start.value))
      (window.start.value - ((durations.take (clip + 1)).map Binary64.value).sum)
    rw [hsplit, Nat.cast_add, Nat.cast_one]
    linarith

/-- A window ends where the one of the next clip would begin. -/
theorem stop_eq_startOf (hw : (windowsOf 0 durations)[clip]? = some window) :
    window.stop = startOf durations (clip + 1) := by
  obtain ⟨duration, hd, hstart, hstop⟩ := exists_duration_of_window hw
  rw [hstop, hstart, startOf_succ hd]

/-- A window of a finite total ends not after it. -/
theorem AreLengths.stop_le_total (h : AreLengths durations)
    (hw : (windowsOf 0 durations)[clip]? = some window)
    (hf : (startOf durations durations.length).isFinite = true) :
    window.stop.isFinite = true ∧
      window.stop.value ≤ (startOf durations durations.length).value := by
  rw [stop_eq_startOf hw]
  exact ⟨h.isFinite_startOf hf (clip + 1), h.value_startOf_le hf (clip + 1)⟩

end Montage.Timeline
