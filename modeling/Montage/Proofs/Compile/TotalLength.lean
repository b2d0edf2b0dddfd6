import Montage.Proofs.Compile.Timing
import Montage.Proofs.Render.Orderly

/-!
# The total length

The total of a timeline is what music is trimmed to, what progress is measured against and what a
render reports. The picture is as long if nothing blends. A blend begins at an offset that belongs
to the clip before its boundary, so what was joined before that clip is not seen: the last blend
decides how much of the total the picture lacks.
-/

namespace Montage

open Montage.Numeric (Binary64 num)
open Montage.Graph

namespace Composition

/-- The clips at a boundary are blended, and those at no later one. -/
def BlendsLast (composition : Composition) (boundary : Nat) : Prop :=
  composition.Blends boundary ∧ ∀ later, boundary < later → ¬ composition.Blends later

/-- The program lasts for its total, the running sum of the clips: music is trimmed to the numeral
of the total, and every render of the composition is measured against it and reports it. The sound
is as long up to the rounding of the numeral. The picture is as long as the clips if nothing blends.
Else it lacks the clips before the one at the last blend, and what is seen at once in that blend;
each clip is rounded once. -/
structure LastsTotal (composition : Composition) (program : Program) : Prop where
  total : program.totalDuration = composition.durations.foldl (· + ·) 0
  trimmed : ∃ stage ∈ program.stages, ∃ output, stage.outputs = [output] ∧
    program.audioOut = some output ∧
    stage.filter? "atrim" = some ⟨"atrim", [opt "duration" (num program.totalDuration)]⟩
  sound : ∀ length, composition.Timed program length → program.totalDuration.isFinite = true →
    ∀ output ∈ program.audioOut, |length output - program.totalDuration.value| ≤ 1 / 2000
  picture : ∀ length, composition.Timed program length →
    (∀ boundary, ¬ composition.Blends boundary) ∧
        length program.videoOut = (composition.durations.map (·.value)).sum ∨
      ∃ boundary, composition.BlendsLast boundary ∧ (program.totalDuration.isFinite = true →
        2 ^ 53 * |length program.videoOut +
            ((composition.durations.take boundary).map (·.value)).sum +
            (composition.blendDuration boundary).value - program.totalDuration.value| ≤
          composition.clips.length * program.totalDuration.value)
  rendered : ∀ (job : RenderJob) (request : RenderRequest) (uploads : TempFiles)
    (remover : Remover) (files : FileSystem), request.bound = .ok composition →
    ∀ result after, (job.render request uploads remover).run { files } = (result, after) →
    (∀ run ∈ after.requests, run.totalDuration = program.totalDuration) ∧
      ∀ output, result = .ok output → output.duration = program.totalDuration

variable {composition : Composition} {length : Label → ℚ} {boundary : Nat}

/-! ### The length of the joined clips -/

private theorem length_placed {stages : List Stage} (h : composition.Measured stages length)
    {index : Nat} (hi : index < composition.clips.length) :
    length (.numbered .placed index) = composition.clipLength index := by
  have hclip := List.getElem?_eq_getElem hi
  rw [h.placed index _ hclip, clipLength, hclip, Option.map_some, Option.getD_some]

/-- Every boundary adds its clip, to what was joined before or to what comes before the blend. -/
private theorem length_join (ht : Transition.ofSetting composition.transition ≠ .cut)
    (h : composition.Measured (composition.boundaryStages boundary) length)
    (hb : boundary + 1 < composition.clips.length)
    (hl : length (before boundary) = composition.carriedLength boundary) :
    length (.numbered .join boundary) = composition.carriedLength (boundary + 1) := by
  have hplaced := length_placed h hb
  unfold boundaryStages boundaryEffects boundaryJoin at h
  rw [carriedLength]
  rcases joinAfter_cases ht boundary with ⟨-, hj⟩ | ⟨-, ⟨name, hj⟩ | ⟨effect, hj⟩⟩
  · rw [hj] at h ⊢
    have hjoin := h.concat _ List.mem_cons_self rfl _ List.mem_cons_self
    rw [hjoin, ← hl, ← hplaced]
    simp [Transition.Join.stage, Transition.Join.streams]
  · rw [hj] at h ⊢
    rw [h.blend _ List.mem_cons_self rfl _ _ rfl boundary List.mem_cons_self, hplaced]
  · rw [hj] at h ⊢
    obtain ⟨-, hleading⟩ := effect_names effect (composition.blendDuration boundary)
      (composition.blendOffset boundary)
    have hedge := h.effect _ (List.mem_cons_of_mem _ List.mem_cons_self) hleading _ rfl _
      List.mem_cons_self
    rw [h.blend _ (List.mem_cons_of_mem _ (List.mem_cons_of_mem _ List.mem_cons_self)) rfl _ _ rfl
      boundary List.mem_cons_self, hedge, hplaced]

private theorem length_before (ht : Transition.ofSetting composition.transition ≠ .cut)
    {count : Nat}
    (h : composition.Measured ((List.range count).flatMap composition.boundaryStages) length)
    (hc : count < composition.clips.length) :
    length (before count) = composition.carriedLength count := by
  induction count with
  | zero => exact length_placed h hc
  | succ count ih =>
    rw [List.range_succ, List.flatMap_append, List.flatMap_singleton] at h
    exact length_join ht (h.mono fun stage hs ↦ List.mem_append_right _ hs) hc
      (ih (h.mono fun stage hs ↦ List.mem_append_left _ hs) (Nat.lt_of_succ_lt hc))

/-- Boundaries without a blend add their clips to what stands before them. -/
private theorem carriedLength_add (boundary : Nat) {count : Nat}
    (hc : boundary + count < composition.clips.length)
    (h : ∀ later, boundary ≤ later → ¬ composition.Blends later) :
    composition.carriedLength (boundary + count) = composition.carriedLength boundary +
      ((List.range' (boundary + 1) count).map composition.clipLength).sum := by
  induction count with
  | zero => simp
  | succ count ih =>
    have hjoin : (composition.joinAfter (boundary + count)).window? = none := by
      by_contra hw
      exact h (boundary + count) (Nat.le_add_right _ _) ⟨hc, hw⟩
    have hlast : boundary + 1 + count = boundary + count + 1 := by
      omega
    rw [← Nat.add_assoc, carriedLength_succ_of_concat hjoin, ih (Nat.lt_of_succ_lt hc),
      List.range'_1_concat, List.map_append, List.sum_append, List.map_singleton,
      List.sum_singleton, hlast, add_assoc]

/-- The lengths of the clips from one on are those of the document. -/
private theorem map_clipLength {start count : Nat} (h : start + count = composition.clips.length) :
    (List.range' start count).map composition.clipLength =
      (composition.durations.drop start).map (·.value) := by
  apply List.ext_getElem
  · simp [durations, ← h]
  · intro index hi _
    have hlt : start + index < composition.clips.length := by
      rw [List.length_map, List.length_range'] at hi
      omega
    simp [clipLength, durations, List.getElem?_eq_getElem hlt]

private theorem not_blends_of_cut (ht : Transition.ofSetting composition.transition = .cut)
    (boundary : Nat) : ¬ composition.Blends boundary := by
  rintro ⟨-, hw⟩
  refine hw ?_
  rw [joinAfter_eq, ht, Transition.join]
  split <;> rfl

/-- If nothing blends all clips are carried. -/
private theorem carriedLength_of_uncut (hn : composition.clips ≠ [])
    (h : ∀ boundary, ¬ composition.Blends boundary) :
    composition.carriedLength (composition.clips.length - 1) =
      (composition.durations.map (·.value)).sum := by
  have hpos := List.length_pos_iff.mpr hn
  have hlast : 0 + (composition.clips.length - 1) < composition.clips.length := by
    omega
  have hcount : composition.clips.length - 1 + 1 = composition.clips.length := by
    omega
  have hcarried := composition.carriedLength_add 0 hlast fun later _ ↦ h later
  have hall : (List.range' 0 composition.clips.length).map composition.clipLength =
      composition.durations.map (·.value) := map_clipLength (Nat.zero_add _)
  rw [← hcount, List.range'_succ, List.map_cons] at hall
  rw [Nat.zero_add, carriedLength] at hcarried
  rw [hcarried, ← hall, List.sum_cons]

/-- What is joined is as long as the last boundary carries. -/
private theorem length_joined {fragment : Fragment} (hn : composition.clips ≠ [])
    (h : ClipsJoined composition.transition composition.timeline (.numbered .placed 0)
      (placedLabels 1 composition.clips.tail) fragment)
    (hm : composition.Measured fragment.stages length) :
    length fragment.output = composition.carriedLength (composition.clips.length - 1) := by
  have hpos := List.length_pos_iff.mpr hn
  rcases joined_cases hn h with ⟨h1, rfl⟩ | ⟨h2, ht, rfl⟩ | ⟨h2, ht, rfl⟩
  · rw [h1]
    exact length_placed hm hpos
  · have hinputs : ((List.range composition.clips.length).map (Label.numbered .placed)).map length =
        (List.range composition.clips.length).map composition.clipLength := by
      rw [List.map_map]
      exact List.map_congr_left fun index hi ↦ length_placed hm (List.mem_range.mp hi)
    have hjoin := hm.concat _ List.mem_cons_self rfl _ List.mem_cons_self
    have hall : (List.range' 0 composition.clips.length).map composition.clipLength =
        composition.durations.map (·.value) := map_clipLength (Nat.zero_add _)
    rw [carriedLength_of_uncut hn (not_blends_of_cut ht), ← hall, ← List.range_eq_range', ← hinputs]
    exact hjoin
  · exact length_before ht hm (by omega)

/-- The last blend carries its offset and the clips after it. -/
private theorem carriedLength_of_blendsLast (h : composition.BlendsLast boundary) :
    composition.carriedLength (composition.clips.length - 1) =
      (composition.blendOffset boundary).value +
        ((composition.durations.drop (boundary + 1)).map (·.value)).sum := by
  obtain ⟨⟨hb, hw⟩, hlater⟩ := h
  obtain ⟨⟨duration, offset⟩, hwindow⟩ := Option.ne_none_iff_exists'.mp hw
  obtain ⟨count, hcount⟩ := Nat.exists_eq_add_of_le hb
  have hcarried := composition.carriedLength_add (boundary + 1)
    (by omega : boundary + 1 + count < composition.clips.length) fun later hl ↦ hlater later hl
  have hrest : (List.range' (boundary + 1) (count + 1)).map composition.clipLength =
      (composition.durations.drop (boundary + 1)).map (·.value) := map_clipLength (by omega)
  have hlast : composition.clips.length - 1 = boundary + 1 + count := by
    omega
  rw [List.range'_succ, List.map_cons] at hrest
  rw [hlast, hcarried, carriedLength_succ_of_window hwindow, ← hrest, List.sum_cons, add_assoc]

/-- If clips are blended at all there is a last boundary at which they are. -/
private theorem exists_blendsLast (h : composition.Blends boundary) :
    ∃ last, composition.BlendsLast last := by
  have hle : boundary ≤ composition.clips.length := (Nat.lt_of_succ_lt h.1).le
  refine ⟨Nat.findGreatest composition.Blends composition.clips.length,
    Nat.findGreatest_spec hle h, fun later hl hb ↦ ?_⟩
  exact Nat.findGreatest_is_greatest hl (Nat.lt_of_succ_lt hb.1).le hb

/-! ### The total of the clips -/

/-- What the picture lacks after the last blend makes it the total, up to one rounding for each
clip. -/
private theorem BlendsLast.total_near (h : composition.BlendsLast boundary)
    (ha : composition.Accepted) (hf : composition.timeline.totalDuration.isFinite = true) :
    2 ^ 53 * |composition.carriedLength (composition.clips.length - 1) +
        ((composition.durations.take boundary).map (·.value)).sum +
        (composition.blendDuration boundary).value - composition.timeline.totalDuration.value| ≤
      composition.clips.length * composition.timeline.totalDuration.value := by
  have hlengths : Timeline.AreLengths composition.durations := ha.duration_pos
  have hsize : composition.durations.length = composition.clips.length := List.length_map _
  obtain ⟨window, hw, hshown⟩ := exists_window (Nat.lt_of_succ_lt h.1.1)
  rw [totalDuration_timeline] at hf ⊢
  obtain ⟨hstop, hle⟩ := hlengths.stop_le_total hw hf
  obtain ⟨hfinite, -, hbelow, -⟩ := hlengths.duration_near hw hstop
  have hbefore := hlengths.stop_near hw hstop
  have hafter := hlengths.total_near hf (boundary + 1)
  rw [← hshown] at hfinite hbelow hbefore
  have hoffset := h.1.offset_near ha hfinite
  rw [← Timeline.stop_eq_startOf hw, Nat.cast_sub (hsize ▸ h.1.1.le), abs_sub_comm] at hafter
  have hscaled := mul_le_mul_of_nonneg_left hle (Nat.cast_nonneg (α := ℚ) boundary)
  rw [carriedLength_of_blendsLast h, ← hsize]
  generalize (Timeline.startOf composition.durations composition.durations.length).value = total
    at hle hafter hscaled ⊢
  generalize ((composition.durations.take boundary).map (·.value)).sum = taken at hbefore ⊢
  generalize ((composition.durations.drop (boundary + 1)).map (·.value)).sum = rest at hafter ⊢
  have hsplit : (composition.blendOffset boundary).value + rest + taken +
      (composition.blendDuration boundary).value - total =
        (composition.blendOffset boundary).value + (composition.blendDuration boundary).value -
            (composition.windowLength boundary).value +
          (taken + (composition.windowLength boundary).value - window.stop.value) +
            (window.stop.value + rest - total) := by
    ring
  have htriangle := abs_add_three
    ((composition.blendOffset boundary).value + (composition.blendDuration boundary).value -
      (composition.windowLength boundary).value)
    (taken + (composition.windowLength boundary).value - window.stop.value)
    (window.stop.value + rest - total)
  rw [hsplit]
  push_cast at hafter
  linarith

end Composition

/-- The picture of a program is as long as what the last boundary carries. -/
private theorem Parts.Fit.length_picture {fonts : FontResolver} {composition : Composition}
    {parts : Parts} {length : Label → ℚ} (h : parts.Fit fonts composition)
    (hn : composition.clips ≠ []) (ht : composition.Timed (parts.program composition) length) :
    length (parts.program composition).videoOut =
      composition.carriedLength (composition.clips.length - 1) := by
  rw [h.length_videoOut hn ht]
  exact Composition.length_joined hn h.joined (ht.toMeasured.mono parts.mem_stages_of_mem_joined)

/-- What a render of a composition asks for and reports is the total of its timeline. -/
private theorem RenderJob.Ending.totalDuration_eq {job : RenderJob} {request : RenderRequest}
    {files left : FileSystem} {requests : List Engine.Request}
    {result : Except (Halt RenderError) RenderOutput} {composition : Composition}
    (hb : request.bound = .ok composition)
    (h : Ending job (job.prepared request) files requests result left) :
    (∀ run ∈ requests, run.totalDuration = composition.timeline.totalDuration) ∧
      ∀ output, result = .ok output → output.duration = composition.timeline.totalDuration := by
  cases h with
  | unprepared =>
    refine ⟨List.forall_mem_nil _, ?_⟩
    rintro output ⟨⟩
  | @executed program _ _ _ hprepared hexecution =>
    obtain ⟨bound, hbound, -, hcompile⟩ := prepared_eq_ok.mp hprepared
    obtain rfl := Except.ok.inj (hb.symm.trans hbound)
    obtain ⟨-, parts, -, rfl⟩ := Composition.exists_parts_of_compile hcompile
    cases hexecution with
    | noDirectory =>
      refine ⟨List.forall_mem_nil _, ?_⟩
      rintro output ⟨⟩
    | failed =>
      refine ⟨List.forall_mem_singleton.mpr rfl, ?_⟩
      rintro output ⟨⟩
    | missing =>
      refine ⟨List.forall_mem_singleton.mpr rfl, ?_⟩
      rintro output ⟨⟩
    | rendered =>
      refine ⟨List.forall_mem_singleton.mpr rfl, ?_⟩
      rintro output ⟨⟩
      rfl

/-- With music the total of a program is the length of all that it makes, up to rounding, but for
what its last blend takes from the picture. -/
theorem compile_lastsTotal {fonts : FontResolver} {composition : Composition} {program : Program}
    {settings : Music} (h : composition.compile fonts = .ok program)
    (hm : composition.music = some settings) : composition.LastsTotal program := by
  obtain ⟨ha, parts, hfit, rfl⟩ := Composition.exists_parts_of_compile h
  have hn := ha.clips_ne_nil
  have haudio : (parts.program composition).audioOut = some (.named .audioOut) := by
    rw [Parts.program, Composition.soundtrack, hm]
    rfl
  constructor
  · exact Timeline.totalDuration_windowsOf composition.durations
  · refine ⟨_, ?_, .named .audioOut, rfl, haudio, Soundtrack.filter?_atrim_musicStage settings
      composition.clips.length composition.timeline.totalDuration _⟩
    rw [hfit.stages_eq hn, Composition.musicStages, hm]
    exact List.mem_append_left _ (List.mem_append_right _ List.mem_cons_self)
  · intro length ht hf output ho
    obtain rfl := Option.some.inj (haudio.symm.trans ho)
    rw [hfit.length_audioOut hn ht hm hf]
    exact Binary64.abs_thousandths_sub_le hf
  · intro length ht
    rw [hfit.length_picture hn ht]
    by_cases hblends : ∃ boundary, composition.Blends boundary
    · obtain ⟨boundary, hb⟩ := hblends
      obtain ⟨last, hlast⟩ := Composition.exists_blendsLast hb
      exact Or.inr ⟨last, hlast, hlast.total_near ha⟩
    · have huncut := not_exists.mp hblends
      exact Or.inl ⟨huncut, Composition.carriedLength_of_uncut hn huncut⟩
  · intro job request uploads remover files hb result after hrun
    rw [RenderJob.render_eq] at hrun
    obtain ⟨result', left, after', hfinish, hending, -, -⟩ :=
      RenderJob.finish_ending (job.prepare_answers request) uploads remover files
    obtain ⟨rfl, rfl⟩ := Prod.mk.inj (hfinish.symm.trans hrun)
    exact hending.totalDuration_eq hb

/-- A reel of three clips with music and a fade at both boundaries. -/
def scoredClips : Composition :=
  { threeClips with music := some { source := ⟨"song.mp3"⟩ } }

private theorem accepted_scoredClips : scoredClips.Accepted :=
  Composition.accepted_of_toOption (by decide +kernel)

private theorem blendsLast_scoredClips : scoredClips.BlendsLast 1 := by
  refine ⟨by decide +kernel, fun later hl hb ↦ ?_⟩
  have hlt : later + 1 < 3 := hb.1
  omega

theorem compile_lastsTotal_scoredClips :
    ∃ program, scoredClips.compile (fun _ _ ↦ none) = .ok program ∧
      scoredClips.LastsTotal program ∧ scoredClips.BlendsLast 1 := by
  obtain ⟨parts, -, hp⟩ := accepted_scoredClips.compile_eq_ok (by decide) fun _ _ ↦ none
  exact ⟨_, hp, compile_lastsTotal hp rfl, blendsLast_scoredClips⟩

/-- The music goes on for 4.5 seconds after the picture: the first clip and half a second are not
seen. -/
theorem picture_ends_before_music_scoredClips :
    ∃ program, scoredClips.compile (fun _ _ ↦ none) = .ok program ∧
      program.totalDuration.value = 13 ∧ (∃ length, scoredClips.Timed program length) ∧
      ∀ length, scoredClips.Timed program length →
        length program.videoOut = 17 / 2 ∧ ∀ output ∈ program.audioOut, length output = 13 := by
  obtain ⟨parts, hfit, hp⟩ := accepted_scoredClips.compile_eq_ok (by decide) fun _ _ ↦ none
  have hn := accepted_scoredClips.clips_ne_nil
  refine ⟨_, hp, ?_, ⟨_, Composition.timed_playLength hp⟩, fun length ht ↦ ⟨?_, ?_⟩⟩
  · have htotal : scoredClips.timeline.totalDuration.value = (13 : ℤ) / (1 : Nat) :=
      Binary64.value_eq_div (by decide) (by decide +kernel)
    have hprogram : (parts.program scoredClips).totalDuration =
        scoredClips.timeline.totalDuration := rfl
    rw [hprogram, htotal]
    norm_num
  · have hoffset : (scoredClips.blendOffset 1).value = (11 : ℤ) / (2 : Nat) :=
      Binary64.value_eq_div (by decide) (by decide +kernel)
    have hrest : ((scoredClips.durations.drop (1 + 1)).map (·.value)).sum =
        (3 : Binary64).value + 0 := rfl
    have hclip : (3 : Binary64).value = (3 : ℤ) / (1 : Nat) :=
      Binary64.value_eq_div (by decide) (by decide +kernel)
    rw [hfit.length_picture hn ht, Composition.carriedLength_of_blendsLast blendsLast_scoredClips,
      hoffset, hrest, hclip]
    norm_num
  · intro output ho
    obtain rfl : Label.named .audioOut = output := Option.some.inj ho
    have hfinite : scoredClips.timeline.totalDuration.isFinite = true := by
      decide +kernel
    have hthousandths : scoredClips.timeline.totalDuration.thousandths = 13000 := by
      decide +kernel
    rw [hfit.length_audioOut hn ht rfl hfinite, hthousandths]
    norm_num

end Montage
