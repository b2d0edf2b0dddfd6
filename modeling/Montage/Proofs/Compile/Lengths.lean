import Mathlib.Tactic.NormNum
import Montage.Proofs.Compile.Joining
import Montage.Proofs.Composition.Windows
import Montage.Proofs.Transition

/-!
# The lengths of streams

How long the streams of a program are by the rules of the engine, and where the blends of a
composition end. A blend begins in its left stream, which from the second boundary on is what was
joined so far, at an offset that belongs to the clip before the boundary. So it ends where that clip
ends by its own length.
-/

namespace Montage

open Montage.Numeric (Binary64)
open Montage.Graph

/-- The length of a blend and where it begins in its left stream. -/
def Transition.Join.window? : Transition.Join → Option (Binary64 × Binary64)
  | .concat => none
  | .blend _ duration offset => some (duration, offset)
  | .edges _ duration offset => some (duration, offset)

namespace Composition

/-- The length of a clip as the timeline shows it. -/
def windowLength (composition : Composition) (index : Nat) : Binary64 :=
  (composition.timeline.duration? index).getD 0

/-- The length of the blend at a boundary. -/
def blendDuration (composition : Composition) (boundary : Nat) : Binary64 :=
  Transition.clampDuration ((composition.transition.map (·.duration)).getD 0)
    (composition.windowLength boundary) (composition.windowLength (boundary + 1))

/-- Where the blend at a boundary begins in its left stream. -/
def blendOffset (composition : Composition) (boundary : Nat) : Binary64 :=
  composition.windowLength boundary - composition.blendDuration boundary

/-- What happens at a boundary. -/
def joinAfter (composition : Composition) (boundary : Nat) : Transition.Join :=
  joinAt (Transition.ofSetting composition.transition)
    ((composition.transition.map (·.duration)).getD 0) composition.timeline boundary

/-- The clips at a boundary are blended. -/
def Blends (composition : Composition) (boundary : Nat) : Prop :=
  boundary + 1 < composition.clips.length ∧ (composition.joinAfter boundary).window? ≠ none

instance (composition : Composition) (boundary : Nat) : Decidable (composition.Blends boundary) :=
  inferInstanceAs (Decidable (_ ∧ _))

/-- The streams of the stages have these lengths, in seconds. A placed clip is as long as the clip,
a concatenation as long as its parts together, and effects keep the length. A blend begins at its
offset in the left stream and ends with the right one. -/
structure Measured (composition : Composition) (stages : List Stage) (length : Label → ℚ) :
    Prop where
  placed : ∀ index clip, composition.clips[index]? = some clip →
    length (.numbered .placed index) = clip.duration.value
  concat : ∀ stage ∈ stages, stage.filters.map (·.name) = ["concat"] →
    ∀ output ∈ stage.outputs, length output = (stage.inputs.map length).sum
  blend : ∀ stage ∈ stages, stage.filters.map (·.name) = ["xfade"] →
    ∀ left right, stage.inputs = [left, right] →
    ∀ boundary, Label.numbered .join boundary ∈ stage.outputs →
    length (.numbered .join boundary) = (composition.blendOffset boundary).value + length right
  effect : ∀ stage ∈ stages, stage.filters.map (·.name) ∈ [["rotate"], ["eq"]] →
    ∀ input, stage.inputs = [input] → ∀ output ∈ stage.outputs, length output = length input

/-- What stands before a boundary is as long as the clip before it, and longer unless the boundary
is the first. -/
def Carries (composition : Composition) (length : Label → ℚ) (boundary : Nat) (left : Label) :
    Prop :=
  ∃ clip, composition.clips[boundary]? = some clip ∧
    clip.duration.value ≤ length left ∧ (length left = clip.duration.value ↔ boundary = 0)

variable {composition : Composition} {length : Label → ℚ} {boundary : Nat}

theorem Measured.mono {stages part : List Stage} (hs : ∀ stage ∈ part, stage ∈ stages)
    (h : composition.Measured stages length) : composition.Measured part length where
  placed := h.placed
  concat stage hm := h.concat stage (hs stage hm)
  blend stage hm := h.blend stage (hs stage hm)
  effect stage hm := h.effect stage (hs stage hm)

/-! ### Where blends begin -/

theorem joinAfter_eq (composition : Composition) (boundary : Nat) :
    composition.joinAfter boundary =
      (Transition.ofSetting composition.transition).join (composition.blendDuration boundary)
        (composition.windowLength boundary) := rfl

/-- A join that blends does so for the length and from the offset of its boundary. -/
private theorem of_window_joinAfter {duration offset : Binary64}
    (h : (composition.joinAfter boundary).window? = some (duration, offset)) :
    ¬ composition.blendDuration boundary ≤ 0 ∧ duration = composition.blendDuration boundary ∧
      offset = composition.blendOffset boundary := by
  rw [joinAfter_eq] at h
  unfold Transition.join at h
  split at h
  · cases h
  · next hd =>
    split at h
    · cases h
    · obtain ⟨rfl, rfl⟩ := Prod.mk.inj (Option.some.inj h)
      exact ⟨hd, rfl, rfl⟩
    · obtain ⟨rfl, rfl⟩ := Prod.mk.inj (Option.some.inj h)
      exact ⟨hd, rfl, rfl⟩

/-- The timeline has a window for each clip. -/
theorem exists_window {index : Nat} (h : index < composition.clips.length) :
    ∃ window, (Timeline.windowsOf 0 composition.durations)[index]? = some window ∧
      composition.windowLength index = window.duration := by
  have hlen : index < (Timeline.windowsOf 0 composition.durations).length := by
    rw [Timeline.length_windowsOf, durations, List.length_map]
    exact h
  refine ⟨_, List.getElem?_eq_getElem hlen, ?_⟩
  simp only [windowLength, Timeline.duration?, Timeline.window?, timeline,
    List.getElem?_eq_getElem hlen, Option.map_some, Option.getD_some]

private theorem isNaN_windowLength_succ (ha : composition.Accepted)
    (hb : boundary + 1 < composition.clips.length)
    (h : (composition.windowLength boundary).isNaN = true) :
    (composition.windowLength (boundary + 1)).isNaN = true := by
  obtain ⟨window, hw, hwl⟩ := exists_window (Nat.lt_of_succ_lt hb)
  obtain ⟨next, hn, hnl⟩ := exists_window hb
  have hfinite : ∀ duration ∈ composition.durations, duration.isFinite = true :=
    fun duration hd ↦ (ha.duration_pos duration hd).1
  rw [hwl] at h
  rw [hnl]
  exact Timeline.isNaN_duration_succ (by decide +kernel) hfinite hw hn h

/-- A blend begins after the start of the clip before its boundary. -/
theorem blendOffset_pos (ha : composition.Accepted)
    (hb : boundary + 1 < composition.clips.length)
    (h : ¬ composition.blendDuration boundary ≤ 0) :
    0 < (composition.blendOffset boundary).value :=
  Binary64.value_pos_of_units_pos
    (Transition.units_offset_pos (isNaN_windowLength_succ ha hb) h)

theorem totalDuration_timeline (composition : Composition) :
    composition.timeline.totalDuration =
      Timeline.startOf composition.durations composition.durations.length :=
  (Timeline.startOf_length composition.durations).symm

theorem Blends.not_le_zero (h : composition.Blends boundary) :
    ¬ composition.blendDuration boundary ≤ 0 := by
  obtain ⟨window, hw⟩ := Option.ne_none_iff_exists'.mp h.2
  exact (of_window_joinAfter hw).1

/-- The offset of a blend and the blend add up to what the window of the clip shows, up to one
rounding. -/
theorem Blends.offset_near (h : composition.Blends boundary) (ha : composition.Accepted)
    (hf : (composition.windowLength boundary).isFinite = true) :
    2 ^ 53 * |(composition.blendOffset boundary).value +
        (composition.blendDuration boundary).value - (composition.windowLength boundary).value| ≤
      (composition.windowLength boundary).value := by
  have hblend := h.not_le_zero
  have hclamp := Transition.clampDuration_lt (Binary64.isNaN_of_isFinite hf) hblend
  obtain ⟨hlt, hblendFinite⟩ := hclamp
  change composition.blendDuration boundary < composition.windowLength boundary at hlt
  change (composition.blendDuration boundary).isFinite = true at hblendFinite
  have hpos := Binary64.units_pos_of_pos (Binary64.pos_of_not_le_zero hblendFinite hblend)
  obtain ⟨hoffset, hle⟩ := Binary64.sub_of_units_le hf hblendFinite hpos.le
    (Binary64.units_lt_units hlt).le
  have hnear := Binary64.sub_near hf hblendFinite hoffset
  have hoffsetPos := blendOffset_pos ha h.1 hblend
  change (composition.blendOffset boundary).value ≤ _ at hle
  change (composition.blendOffset boundary).Near _ at hnear
  rw [Binary64.Near, abs_of_pos hoffsetPos, ← sub_add, sub_add_eq_add_sub] at hnear
  exact hnear.trans hle

/-- A blend ends where the clip before it does by its own length, up to three roundings of the
total. -/
theorem Blends.ends_near_clip (h : composition.Blends boundary) (ha : composition.Accepted)
    {clip : Clip} (hc : composition.clips[boundary]? = some clip)
    (hf : composition.timeline.totalDuration.isFinite = true) :
    2 ^ 53 * |(composition.blendOffset boundary).value +
        (composition.blendDuration boundary).value - clip.duration.value| ≤
      3 * composition.timeline.totalDuration.value := by
  have hlengths : Timeline.AreLengths composition.durations := ha.duration_pos
  have hclip : composition.durations[boundary]? = some clip.duration := by
    rw [durations, List.getElem?_map, hc, Option.map_some]
  obtain ⟨window, hw, hshown⟩ := exists_window (Nat.lt_of_succ_lt h.1)
  rw [totalDuration_timeline] at hf ⊢
  obtain ⟨hstop, hle⟩ := hlengths.stop_le_total hw hf
  obtain ⟨hfinite, -, hbelow, -⟩ := hlengths.duration_near hw hstop
  have hwindow := hlengths.duration_near_clip hw hstop hclip
  rw [← hshown] at hfinite hbelow hwindow
  have hoffset := h.offset_near ha hfinite
  have htriangle := abs_sub_le
    ((composition.blendOffset boundary).value + (composition.blendDuration boundary).value)
    (composition.windowLength boundary).value clip.duration.value
  linarith

/-! ### What a join carries -/

private theorem lt_length_of_getElem? {index : Nat} {clip : Clip}
    (h : composition.clips[index]? = some clip) : index < composition.clips.length :=
  (List.getElem?_eq_some_iff.mp h).1

private theorem duration_value_pos (ha : composition.Accepted) {index : Nat} {clip : Clip}
    (h : composition.clips[index]? = some clip) : 0 < clip.duration.value := by
  have hmem := List.mem_map_of_mem (f := fun clip : Clip ↦ clip.duration) (List.mem_of_getElem? h)
  exact Binary64.value_pos_of_units_pos (Binary64.units_pos_of_pos (ha.duration_pos _ hmem).2)

/-- What comes before the right stream of a join has a length. -/
private theorem carries_succ {output right : Label} {next : Clip} {before : ℚ}
    (hn : composition.clips[boundary + 1]? = some next) (hr : length right = next.duration.value)
    (hb : 0 < before) (ho : length output = before + length right) :
    composition.Carries length (boundary + 1) output := by
  refine ⟨next, hn, ?_, ?_⟩
  · rw [ho, hr]
    exact le_add_of_nonneg_left (le_of_lt hb)
  · constructor
    · intro h
      rw [ho, hr, add_eq_right] at h
      exact absurd h (ne_of_gt hb)
    · intro h
      cases h

/-- A stage that blends two streams at a boundary, from what the boundary carries. -/
def BlendsAt (composition : Composition) (length : Label → ℚ) (stage : Stage) (boundary : Nat) :
    Prop :=
  ∃ name left right, stage = Transition.joinStage
      (Transition.blendFilter name (composition.blendDuration boundary)
        (composition.blendOffset boundary)) left right (.numbered .join boundary) ∧
    composition.Blends boundary ∧ composition.Carries length boundary left

private theorem Carries.pos (ha : composition.Accepted) {left : Label}
    (h : composition.Carries length boundary left) : 0 < length left := by
  obtain ⟨clip, hclip, hle, -⟩ := h
  exact lt_of_lt_of_le (duration_value_pos ha hclip) hle

private theorem Carries.congr {left other : Label}
    (h : composition.Carries length boundary left) (he : length other = length left) :
    composition.Carries length boundary other := by
  obtain ⟨clip, hclip, hle, hiff⟩ := h
  rw [← he] at hle hiff
  exact ⟨clip, hclip, hle, hiff⟩

/-- The filter of an effect at either edge is one that keeps the length. -/
theorem effect_names (effect : CustomEffect) (duration offset : Binary64) :
    [Transition.trailingEdge effect duration offset].map (·.name) ∈ [["rotate"], ["eq"]] ∧
      [Transition.leadingEdge effect duration].map (·.name) ∈ [["rotate"], ["eq"]] := by
  cases effect with
  | spin => exact ⟨List.mem_cons_self, List.mem_cons_self⟩
  | flash =>
    exact ⟨List.mem_cons_of_mem _ List.mem_cons_self, List.mem_cons_of_mem _ List.mem_cons_self⟩

private theorem not_xfade_of_effect {filters : List Filter}
    (h : filters.map (·.name) ∈ [["rotate"], ["eq"]]) : "xfade" ∉ filters.map (·.name) := by
  simp only [List.mem_cons, List.not_mem_nil, or_false] at h
  rcases h with h | h <;> rw [h] <;> decide

variable {left right : Label} {fragment : Fragment} {next : Clip}

/-- A join carries the next clip, and where it blends it does so from what was carried before. -/
private theorem carries_of_joinDrawn (ha : composition.Accepted)
    (h : JoinDrawn boundary left right (composition.joinAfter boundary) fragment)
    (hm : composition.Measured fragment.stages length)
    (hc : composition.Carries length boundary left)
    (hn : composition.clips[boundary + 1]? = some next) (hr : length right = next.duration.value) :
    composition.Carries length (boundary + 1) fragment.output ∧
      ∀ stage ∈ fragment.stages, "xfade" ∈ stage.filters.map (·.name) →
        composition.BlendsAt length stage boundary := by
  have hlt := lt_length_of_getElem? hn
  have hblends : (composition.joinAfter boundary).window? ≠ none → composition.Blends boundary :=
    fun hw ↦ ⟨hlt, hw⟩
  generalize hj : composition.joinAfter boundary = join at h hblends
  cases h with
  | concat =>
    have ho := hm.concat _ List.mem_cons_self rfl _ List.mem_cons_self
    have hsum : ([left, right].map length).sum = length left + length right := by
      simp
    refine ⟨carries_succ hn hr (hc.pos ha) (ho.trans hsum), ?_⟩
    have hname : "xfade" ∉ ["concat"] := by decide
    exact List.forall_mem_singleton.mpr fun hx ↦ absurd hx hname
  | blend =>
    obtain ⟨hd, rfl, rfl⟩ := of_window_joinAfter (congrArg Transition.Join.window? hj)
    have ho := hm.blend _ List.mem_cons_self rfl left right rfl boundary List.mem_cons_self
    refine ⟨carries_succ hn hr (blendOffset_pos ha hlt hd) ho, ?_⟩
    exact List.forall_mem_singleton.mpr fun _ ↦
      ⟨_, left, right, rfl, hblends (Option.some_ne_none _), hc⟩
  | @edges effect =>
    obtain ⟨hd, rfl, rfl⟩ := of_window_joinAfter (congrArg Transition.Join.window? hj)
    obtain ⟨htrailing, hleading⟩ := effect_names effect (composition.blendDuration boundary)
      (composition.blendOffset boundary)
    have hleft := hm.effect _ List.mem_cons_self htrailing left rfl _ List.mem_cons_self
    have hright := hm.effect _ (List.mem_cons_of_mem _ List.mem_cons_self) hleading right rfl _
      List.mem_cons_self
    have ho := hm.blend _ (List.mem_cons_of_mem _ (List.mem_cons_of_mem _ List.mem_cons_self)) rfl
      _ _ rfl boundary List.mem_cons_self
    refine ⟨carries_succ hn (hright.trans hr) (blendOffset_pos ha hlt hd) ho, ?_⟩
    refine List.forall_mem_cons.mpr ⟨fun hx ↦ absurd hx (not_xfade_of_effect htrailing),
      List.forall_mem_cons.mpr ⟨fun hx ↦ absurd hx (not_xfade_of_effect hleading),
        List.forall_mem_singleton.mpr fun _ ↦
          ⟨_, _, _, rfl, hblends (Option.some_ne_none _), hc.congr hleft⟩⟩⟩

/-- Where a run of joins blends it does so from what was carried before. -/
private theorem blendsAt_of_threads (ha : composition.Accepted) {rest : List Clip}
    (hrest : composition.clips.drop (boundary + 1) = rest)
    (hc : composition.Carries length boundary left)
    (h : Fragment.Threads (fun index right left ↦
      JoinDrawn index left right (composition.joinAfter index)) boundary
        (placedLabels (boundary + 1) rest) left fragment)
    (hm : composition.Measured fragment.stages length) :
    ∀ stage ∈ fragment.stages, "xfade" ∈ stage.filters.map (·.name) →
      ∃ boundary, composition.BlendsAt length stage boundary := by
  induction rest generalizing boundary left fragment with
  | nil =>
    cases h with
    | nil => exact List.forall_mem_nil _
  | cons clip rest ih =>
    rw [placedLabels_cons] at h
    cases h with
    | cons hfirst hothers =>
      have hn : composition.clips[boundary + 1]? = some clip := by
        rw [← List.head?_drop, hrest, List.head?_cons]
      have hrest' : composition.clips.drop (boundary + 1 + 1) = rest := by
        rw [← List.tail_drop, hrest, List.tail_cons]
      obtain ⟨hcarries, hblends⟩ := carries_of_joinDrawn ha hfirst
        (hm.mono fun stage hs ↦ List.mem_append_left _ hs) hc hn (hm.placed _ _ hn)
      refine List.forall_mem_append.mpr ⟨fun stage hs hx ↦ ⟨boundary, hblends stage hs hx⟩, ?_⟩
      exact ih hrest' hcarries hothers (hm.mono fun stage hs ↦ List.mem_append_right _ hs)

/-! ### Every program has lengths -/

def clipLength (composition : Composition) (index : Nat) : ℚ :=
  (composition.clips[index]?.map (·.duration.value)).getD 0

/-- The length of what stands before a boundary. -/
def carriedLength (composition : Composition) : Nat → ℚ
  | 0 => composition.clipLength 0
  | boundary + 1 =>
    (match composition.joinAfter boundary with
      | .concat => composition.carriedLength boundary
      | _ => (composition.blendOffset boundary).value) + composition.clipLength (boundary + 1)

/-- The length of the stream of a label. Streams that no join reads or writes are left out. -/
def streamLength (composition : Composition) : Label → ℚ
  | .signal ⟨.placed, some index⟩ 0 => composition.clipLength index
  | .signal ⟨.join, some boundary⟩ 0 =>
    if Transition.ofSetting composition.transition = .cut then
      ((List.range composition.clips.length).map composition.clipLength).sum
    else composition.carriedLength (boundary + 1)
  | .signal ⟨.edge, some edge⟩ 0 =>
    if edge % 2 = 0 then composition.carriedLength (edge / 2)
    else composition.clipLength (edge / 2 + 1)
  | _ => 0

private theorem streamLength_placed {index : Nat} {clip : Clip}
    (h : composition.clips[index]? = some clip) :
    composition.streamLength (.numbered .placed index) = clip.duration.value := by
  show composition.clipLength index = _
  rw [clipLength, h, Option.map_some, Option.getD_some]

private theorem streamLength_join (ht : Transition.ofSetting composition.transition ≠ .cut)
    (boundary : Nat) : composition.streamLength (.numbered .join boundary) =
      composition.carriedLength (boundary + 1) := if_neg ht

private theorem streamLength_leftEdge (composition : Composition) (boundary : Nat) :
    composition.streamLength (.numbered .edge (boundary * 2)) =
      composition.carriedLength boundary := by
  show (if boundary * 2 % 2 = 0 then _ else _) = _
  rw [if_pos (by omega), Nat.mul_div_cancel _ (by decide)]

private theorem streamLength_rightEdge (composition : Composition) (boundary : Nat) :
    composition.streamLength (.numbered .edge (boundary * 2 + 1)) =
      composition.clipLength (boundary + 1) := by
  have hdiv : (boundary * 2 + 1) / 2 = boundary := by
    omega
  show (if (boundary * 2 + 1) % 2 = 0 then _ else _) = _
  rw [if_neg (by omega), hdiv]

theorem Measured.append {first others : List Stage} (hf : composition.Measured first length)
    (ho : composition.Measured others length) : composition.Measured (first ++ others) length where
  placed := hf.placed
  concat := List.forall_mem_append.mpr ⟨hf.concat, ho.concat⟩
  blend := List.forall_mem_append.mpr ⟨hf.blend, ho.blend⟩
  effect := List.forall_mem_append.mpr ⟨hf.effect, ho.effect⟩

private theorem measured_nil : composition.Measured [] composition.streamLength where
  placed _ _ h := streamLength_placed h
  concat _ h := absurd h List.not_mem_nil
  blend _ h := absurd h List.not_mem_nil
  effect _ h := absurd h List.not_mem_nil

private theorem measured_joinStage_concat {index : Nat} {inputs : List Label} {count : Nat}
    (h : composition.streamLength (.numbered .join index) =
      (inputs.map composition.streamLength).sum) :
    composition.Measured [⟨inputs, [Transition.concat count], [.numbered .join index]⟩]
      composition.streamLength where
  placed _ _ h := streamLength_placed h
  concat := List.forall_mem_singleton.mpr fun _ ↦ List.forall_mem_singleton.mpr h
  blend := by
    refine List.forall_mem_singleton.mpr fun hx ↦ ?_
    have hne : ["concat"] ≠ ["xfade"] := by decide
    exact absurd hx hne
  effect := by
    refine List.forall_mem_singleton.mpr fun hx ↦ ?_
    have hne : ["concat"] ∉ [["rotate"], ["eq"]] := by decide
    exact absurd hx hne

private theorem measured_joinStage_blend {name : String} {duration offset : Binary64}
    {boundary : Nat} {left right : Label}
    (h : composition.streamLength (.numbered .join boundary) =
      (composition.blendOffset boundary).value + composition.streamLength right) :
    composition.Measured [Transition.joinStage (Transition.blendFilter name duration offset)
      left right (.numbered .join boundary)] composition.streamLength where
  placed _ _ h := streamLength_placed h
  concat := by
    refine List.forall_mem_singleton.mpr fun hx ↦ ?_
    have hne : ["xfade"] ≠ ["concat"] := by decide
    exact absurd hx hne
  blend := by
    refine List.forall_mem_singleton.mpr fun _ l r hi b hb ↦ ?_
    obtain ⟨-, hr⟩ := List.cons.inj hi
    obtain ⟨rfl, -⟩ := List.cons.inj hr
    have hl : Label.numbered .join b = .numbered .join boundary := List.mem_singleton.mp hb
    obtain rfl : b = boundary := by
      simpa [Label.numbered] using hl
    exact h
  effect := by
    refine List.forall_mem_singleton.mpr fun hx ↦ ?_
    have hne : ["xfade"] ∉ [["rotate"], ["eq"]] := by decide
    exact absurd hx hne

private theorem measured_chain_effect {filters : List Filter} {input output : Label}
    (hf : filters.map (·.name) ∈ [["rotate"], ["eq"]])
    (h : composition.streamLength output = composition.streamLength input) :
    composition.Measured [.chain input filters output] composition.streamLength where
  placed _ _ h := streamLength_placed h
  concat := by
    refine List.forall_mem_singleton.mpr fun hx ↦ ?_
    have hx' : filters.map (·.name) = ["concat"] := hx
    have hne : ["concat"] ∉ [["rotate"], ["eq"]] := by decide
    rw [hx'] at hf
    exact absurd hf hne
  blend := by
    refine List.forall_mem_singleton.mpr fun hx ↦ ?_
    have hx' : filters.map (·.name) = ["xfade"] := hx
    have hne : ["xfade"] ∉ [["rotate"], ["eq"]] := by decide
    rw [hx'] at hf
    exact absurd hf hne
  effect := by
    refine List.forall_mem_singleton.mpr fun _ i hi ↦ List.forall_mem_singleton.mpr ?_
    obtain ⟨rfl, -⟩ := List.cons.inj hi
    exact h

theorem carriedLength_succ_of_window {duration offset : Binary64}
    (h : (composition.joinAfter boundary).window? = some (duration, offset)) :
    composition.carriedLength (boundary + 1) =
      (composition.blendOffset boundary).value + composition.clipLength (boundary + 1) := by
  rw [carriedLength]
  cases hj : composition.joinAfter boundary with
  | concat =>
    rw [hj] at h
    cases h
  | blend => rfl
  | edges => rfl

theorem carriedLength_succ_of_concat (h : (composition.joinAfter boundary).window? = none) :
    composition.carriedLength (boundary + 1) =
      composition.carriedLength boundary + composition.clipLength (boundary + 1) := by
  rw [carriedLength]
  cases hj : composition.joinAfter boundary with
  | concat => rfl
  | blend =>
    rw [hj] at h
    cases h
  | edges =>
    rw [hj] at h
    cases h

/-- The stages of a join have the lengths of their labels. -/
private theorem measured_of_joinDrawn (ht : Transition.ofSetting composition.transition ≠ .cut)
    (h : JoinDrawn boundary left (.numbered .placed (boundary + 1))
      (composition.joinAfter boundary) fragment)
    (hl : composition.streamLength left = composition.carriedLength boundary) :
    composition.Measured fragment.stages composition.streamLength ∧
      composition.streamLength fragment.output = composition.carriedLength (boundary + 1) := by
  have hright : composition.streamLength (.numbered .placed (boundary + 1)) =
      composition.clipLength (boundary + 1) := rfl
  have hjoin := streamLength_join ht boundary
  generalize hj : composition.joinAfter boundary = join at h
  cases h with
  | concat =>
    refine ⟨measured_joinStage_concat ?_, hjoin⟩
    rw [hjoin, carriedLength, hj]
    simp [hl, hright]
  | blend =>
    refine ⟨measured_joinStage_blend ?_, hjoin⟩
    rw [hjoin, carriedLength_succ_of_window (congrArg Transition.Join.window? hj), hright]
  | @edges effect duration offset =>
    obtain ⟨htrailing, hleading⟩ := effect_names effect duration offset
    have hleft := (streamLength_leftEdge composition boundary).trans hl.symm
    have hedge := streamLength_rightEdge composition boundary
    refine ⟨(measured_chain_effect htrailing hleft).append
      ((measured_chain_effect hleading (hedge.trans hright.symm)).append
        (measured_joinStage_blend ?_)), hjoin⟩
    rw [hjoin, carriedLength_succ_of_window (congrArg Transition.Join.window? hj), hedge]

private theorem measured_of_threads (ht : Transition.ofSetting composition.transition ≠ .cut)
    {rest : List Clip} (hl : composition.streamLength left = composition.carriedLength boundary)
    (h : Fragment.Threads (fun index right left ↦
      JoinDrawn index left right (composition.joinAfter index)) boundary
        (placedLabels (boundary + 1) rest) left fragment) :
    composition.Measured fragment.stages composition.streamLength := by
  induction rest generalizing boundary left fragment with
  | nil =>
    cases h with
    | nil => exact measured_nil
  | cons clip rest ih =>
    rw [placedLabels_cons] at h
    cases h with
    | cons hfirst hothers =>
      obtain ⟨hm, ho⟩ := measured_of_joinDrawn ht hfirst hl
      exact hm.append (ih ho hothers)

/-- Stages that join nothing have any lengths. -/
theorem Measured.of_joinsNothing_or {stages part : List Stage}
    (h : composition.Measured part length)
    (hs : ∀ stage ∈ stages, stage.JoinsNothing ∨ stage ∈ part) :
    composition.Measured stages length := by
  have hpart : ∀ stage ∈ stages, ∀ name ∈ stage.filters.map (·.name),
      name ∈ ["concat", "xfade", "rotate", "eq"] → stage ∈ part := by
    intro stage hm name hn hj
    rcases hs stage hm with hnothing | hpart
    · exact absurd hn (hnothing.notMem_names hj)
    · exact hpart
  constructor
  · exact h.placed
  · intro stage hm hx
    exact h.concat stage (hpart stage hm "concat" (by simp [hx]) (by decide)) hx
  · intro stage hm hx
    exact h.blend stage (hpart stage hm "xfade" (by simp [hx]) (by decide)) hx
  · intro stage hm hx
    refine h.effect stage ?_ hx
    simp only [List.mem_cons, List.not_mem_nil, or_false] at hx
    rcases hx with hx | hx
    · exact hpart stage hm "rotate" (by simp [hx]) (by decide)
    · exact hpart stage hm "eq" (by simp [hx]) (by decide)

private theorem measured_of_clipsJoined (hn : composition.clips ≠ [])
    (h : ClipsJoined composition.transition composition.timeline (.numbered .placed 0)
      (placedLabels 1 composition.clips.tail) fragment) :
    composition.Measured fragment.stages composition.streamLength := by
  generalize hothers : placedLabels 1 composition.clips.tail = others at h
  cases h with
  | alone => exact measured_nil
  | cut _ ht =>
    obtain ⟨clip, rest, hclips⟩ := List.exists_cons_of_ne_nil hn
    have hlabels : .numbered .placed 0 :: others =
        (List.range composition.clips.length).map (Label.numbered .placed) := by
      rw [← hothers, hclips, List.tail_cons, List.range_eq_range']
      rfl
    apply measured_joinStage_concat
    rw [hlabels, List.map_map]
    exact if_pos ht
  | folded _ ht hthreads =>
    rw [← hothers] at hthreads
    exact measured_of_threads ht rfl hthreads

/-- Every program has lengths. -/
theorem measured_streamLength {fonts : FontResolver} {program : Program}
    (h : composition.compile fonts = .ok program) :
    composition.Measured program.stages composition.streamLength := by
  obtain ⟨ha, parts, hfit, rfl⟩ := exists_parts_of_compile h
  exact (measured_of_clipsJoined ha.clips_ne_nil hfit.joined).of_joinsNothing_or
    hfit.joinsNothing_or

/-! ### Where blends end -/

private theorem carries_zero (ha : composition.Accepted)
    (hm : composition.Measured [] length) :
    composition.Carries length 0 (.numbered .placed 0) := by
  obtain ⟨clip, rest, hclips⟩ := List.exists_cons_of_ne_nil ha.clips_ne_nil
  have hclip : composition.clips[0]? = some clip := by
    rw [hclips]
    rfl
  have hlength := hm.placed 0 clip hclip
  exact ⟨clip, hclip, le_of_eq hlength.symm, fun _ ↦ rfl, fun _ ↦ hlength⟩

private theorem blendsAt_of_clipsJoined (ha : composition.Accepted)
    (h : ClipsJoined composition.transition composition.timeline (.numbered .placed 0)
      (placedLabels 1 composition.clips.tail) fragment)
    (hm : composition.Measured fragment.stages length) :
    ∀ stage ∈ fragment.stages, "xfade" ∈ stage.filters.map (·.name) →
      ∃ boundary, composition.BlendsAt length stage boundary := by
  generalize hothers : placedLabels 1 composition.clips.tail = others at h
  cases h with
  | alone => exact List.forall_mem_nil _
  | cut =>
    have hname : "xfade" ∉ ["concat"] := by decide
    exact List.forall_mem_singleton.mpr fun hx ↦ absurd hx hname
  | folded _ _ hthreads =>
    rw [← hothers] at hthreads
    have hfirst := carries_zero ha (hm.mono (List.forall_mem_nil _))
    exact blendsAt_of_threads ha List.drop_one hfirst hthreads hm

end Composition

/-- Every blend of a compiled program is that of a boundary, and ends where the clip before the
boundary does by its own length, up to rounding. Its left stream is never shorter than that clip,
and as long only at the first boundary. So where the arithmetic of the blend is exact it ends with
its left stream at the first boundary, and before it at any other. -/
theorem blend_ends_with_left_iff {fonts : FontResolver} {composition : Composition}
    {program : Program} {length : Label → ℚ} (h : composition.compile fonts = .ok program)
    (hm : composition.Measured program.stages length) {stage : Stage}
    (hs : stage ∈ program.stages) (hx : "xfade" ∈ stage.filters.map (·.name)) :
    ∃ (boundary : Nat) (clip : Clip) (name : String) (left right : Label),
      composition.clips[boundary]? = some clip ∧
      stage = Transition.joinStage
        (Transition.blendFilter name (composition.blendDuration boundary)
          (composition.blendOffset boundary)) left right (.numbered .join boundary) ∧
      (program.totalDuration.isFinite = true →
        2 ^ 53 * |(composition.blendOffset boundary).value +
            (composition.blendDuration boundary).value - clip.duration.value| ≤
          3 * program.totalDuration.value) ∧
      clip.duration.value ≤ length left ∧
      (clip.duration.value = length left ↔ boundary = 0) ∧
      ((composition.blendOffset boundary).value + (composition.blendDuration boundary).value =
          clip.duration.value →
        ((composition.blendOffset boundary).value + (composition.blendDuration boundary).value =
          length left ↔ boundary = 0)) := by
  obtain ⟨ha, parts, hfit, rfl⟩ := Composition.exists_parts_of_compile h
  have hjoined : stage ∈ parts.joined.stages := by
    rcases hfit.joinsNothing_or stage hs with hnothing | hjoined
    · exact absurd hx (hnothing.notMem_names (by decide))
    · exact hjoined
  obtain ⟨boundary, name, left, right, hstage, hblends, clip, hclip, hle, hiff⟩ :=
    Composition.blendsAt_of_clipsJoined ha hfit.joined (hm.mono parts.mem_stages_of_mem_joined)
      stage hjoined hx
  refine ⟨boundary, clip, name, left, right, hclip, hstage, hblends.ends_near_clip ha hclip, hle,
    eq_comm.trans hiff, ?_⟩
  intro hexact
  rw [hexact]
  exact eq_comm.trans hiff

/-- The stage of the second blend of three clips. -/
private theorem mem_stages_of_compile_threeClips {program : Program}
    (h : threeClips.compile (fun _ _ ↦ none) = .ok program) :
    Transition.joinStage (Transition.blendFilter "fade" (threeClips.blendDuration 1)
        (threeClips.blendOffset 1)) (.numbered .join 0) (.numbered .placed 2)
      (.numbered .join 1) ∈ program.stages := by
  have hany : ((threeClips.compile fun _ _ ↦ none).toOption.any fun program ↦
      Transition.joinStage (Transition.blendFilter "fade" (threeClips.blendDuration 1)
        (threeClips.blendOffset 1)) (.numbered .join 0) (.numbered .placed 2)
      (.numbered .join 1) ∈ program.stages) = true := by
    decide +kernel
  rw [h] at hany
  exact of_decide_eq_true hany

theorem blend_ends_with_left_iff_threeClips :
    ∃ program, threeClips.compile (fun _ _ ↦ none) = .ok program ∧
      (6 : Binary64).value ≠ threeClips.streamLength (.numbered .join 0) := by
  obtain ⟨parts, -, hp⟩ := accepted_threeClips.compile_eq_ok (by decide) fun _ _ ↦ none
  refine ⟨_, hp, ?_⟩
  obtain ⟨boundary, clip, name, left, right, hclip, hstage, -, -, hiff, -⟩ :=
    blend_ends_with_left_iff hp (Composition.measured_streamLength hp)
      (mem_stages_of_compile_threeClips hp) List.mem_cons_self
  obtain ⟨hinputs, -, houtputs⟩ := Stage.mk.inj hstage
  obtain ⟨rfl, -⟩ := List.cons.inj hinputs
  have houtput : Label.numbered .join 1 = .numbered .join boundary := (List.cons.inj houtputs).1
  obtain rfl : 1 = boundary := by
    simpa [Label.numbered] using houtput
  obtain rfl := Option.some.inj hclip
  exact mt hiff.mp (by decide)

/-- The second blend of three clips ends after 6 seconds of 9.5. -/
theorem blend_ends_before_left_threeClips :
    ∃ program length left, threeClips.compile (fun _ _ ↦ none) = .ok program ∧
      threeClips.Measured program.stages length ∧
      Transition.joinStage
        (Transition.blendFilter "fade" (threeClips.blendDuration 1) (threeClips.blendOffset 1))
        left (.numbered .placed 2) (.numbered .join 1) ∈ program.stages ∧
      (threeClips.blendOffset 1).value + (threeClips.blendDuration 1).value = 6 ∧
      length left = 19 / 2 := by
  obtain ⟨parts, -, hp⟩ := accepted_threeClips.compile_eq_ok (by decide) fun _ _ ↦ none
  refine ⟨_, _, _, hp, Composition.measured_streamLength hp,
    mem_stages_of_compile_threeClips hp, ?_, ?_⟩
  · have hoffset : (threeClips.blendOffset 1).value = (11 : ℤ) / (2 : Nat) :=
      Binary64.value_eq_div (by decide) (by decide +kernel)
    have hduration : (threeClips.blendDuration 1).value = (1 : ℤ) / (2 : Nat) :=
      Binary64.value_eq_div (by decide) (by decide +kernel)
    rw [hoffset, hduration]
    norm_num
  · have hoffset : (threeClips.blendOffset 0).value = (7 : ℤ) / (2 : Nat) :=
      Binary64.value_eq_div (by decide) (by decide +kernel)
    have hclip : (6 : Binary64).value = (6 : ℤ) / (1 : Nat) :=
      Binary64.value_eq_div (by decide) (by decide +kernel)
    have hwindow : (threeClips.joinAfter 0).window? =
        some (threeClips.blendDuration 0, threeClips.blendOffset 0) := by
      decide +kernel
    have hsecond : threeClips.clipLength 1 = (6 : Binary64).value := rfl
    rw [Composition.streamLength_join (by decide +kernel),
      Composition.carriedLength_succ_of_window hwindow, hsecond, hoffset, hclip]
    norm_num

end Montage
