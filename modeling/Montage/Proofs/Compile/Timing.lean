import Montage.Proofs.Compile.DrawingOrder
import Montage.Proofs.Numeric.Numerals

/-!
# The lengths of picture and sound

What the layers are drawn on keeps its length, and music ends where it is trimmed. So the picture of
a program is as long as the joined clips, and the sound as long as the numeral of the total says.
-/

namespace Montage

open Montage.Numeric
open Montage.Graph
open Montage.Decoration (Drawn Layer)

/-- The filter passes its first input on at full length. -/
def Graph.Filter.KeepsLength (filter : Filter) : Prop :=
  filter.name ∈ ["drawtext", "drawbox", "format"] ∨
    filter.name = "overlay" ∧ filter.param? "shortest" = none

theorem Graph.Filter.KeepsLength.name_mem {filter : Filter} (h : filter.KeepsLength) :
    filter.name ∈ ["drawtext", "drawbox", "format", "overlay"] := by
  rcases h with hdraw | ⟨hoverlay, -⟩
  · exact List.mem_append_left ["overlay"] hdraw
  · rw [hoverlay]
    decide

def Graph.Stage.KeepsLength (stage : Stage) : Prop := ∀ filter ∈ stage.filters, filter.KeepsLength

/-- What a stage writes has these lengths, in seconds, if what it reads has: a stream keeps its
length where it is drawn on, and a file that is repeated without end is as long as it is trimmed
to. -/
structure Graph.Stage.Timed (stage : Stage) (files : List InputFile) (length : Label → ℚ) :
    Prop where
  kept : stage.KeepsLength → ∀ input ∈ stage.inputs.head?, ∀ output ∈ stage.outputs,
    length output = length input
  trimmed : ∀ input file, stage.inputs = [.ofAudio input] → files[input]? = some file →
    file.options = ["-stream_loop", "-1"] →
    ∀ filter ∈ stage.filter? "atrim", ∀ text ∈ filter.param? "duration",
    ∀ seconds ∈ decimalValue? text, ∀ output ∈ stage.outputs, length output = seconds

/-- The streams of a program have these lengths, those of the joins and all others. -/
structure Composition.Timed (composition : Composition) (program : Program) (length : Label → ℚ) :
    Prop extends composition.Measured program.stages length where
  timed : ∀ stage ∈ program.stages, stage.Timed program.inputs length

/-! ### Along a path -/

/-- Where every stage keeps the length, so does the path. -/
private theorem Graph.Leads.length_eq {length : Label → ℚ} {start stop : Label}
    {stages : List Stage} (h : Leads start stages stop)
    (hs : ∀ stage ∈ stages, ∀ input ∈ stage.inputs.head?, ∀ output ∈ stage.outputs,
      length output = length input) : length stop = length start := by
  induction h with
  | nil => rfl
  | cons hi ho _ ih =>
    obtain ⟨hfirst, hrest⟩ := List.forall_mem_cons.mp hs
    rw [ih hrest]
    exact hfirst _ hi _ (ho ▸ List.mem_cons_self)

/-- Where the start and all outputs have one length, so has what each stage reads first. -/
private theorem Graph.Leads.length_input {length : Label → ℚ} {total : ℚ} {start stop : Label}
    {stages : List Stage} (h : Leads start stages stop) (hstart : length start = total)
    (hs : ∀ stage ∈ stages, ∀ output ∈ stage.outputs, length output = total) :
    ∀ stage ∈ stages, ∀ input ∈ stage.inputs.head?, length input = total := by
  induction h with
  | nil => exact List.forall_mem_nil _
  | cons hi ho _ ih =>
    obtain ⟨hfirst, hrest⟩ := List.forall_mem_cons.mp hs
    refine List.forall_mem_cons.mpr ⟨?_, ih (hfirst _ (ho ▸ List.mem_cons_self)) hrest⟩
    intro input hm
    obtain rfl := Option.some.inj (hi.symm.trans hm)
    exact hstart

/-- What draws a layer keeps the length of what it draws on. -/
private theorem Decoration.Layer.DrawnBy.keepsLength {scene : Scene} {layer : Layer} {drawn : Drawn}
    (h : layer.DrawnBy scene drawn) : drawn.stage.KeepsLength := by
  have hdraws : ∀ {name : String}, name ∈ ["drawtext", "drawbox"] →
      name ∈ ["drawtext", "drawbox", "format"] := by
    intro name hn
    exact List.mem_append_left ["format"] hn
  cases h with
  | caption _ _ hname =>
    refine List.forall_mem_singleton.mpr (Or.inl ?_)
    rw [hname]
    exact List.mem_cons_self
  | bar _ _ hstages =>
    obtain ⟨-, hplaced⟩ := List.cons.inj hstages
    obtain ⟨-, hfilters, -⟩ := Stage.mk.inj (List.cons.inj hplaced).1
    refine List.forall_mem_singleton.mpr ?_
    rw [← (List.cons.inj hfilters).1]
    exact Or.inr ⟨rfl, rfl⟩
  | overlay hk hf =>
    exact fun filter hm ↦ Or.inl (hdraws (names_of_overlayFilters hk hf filter hm))
  | title hf =>
    refine List.forall_mem_singleton.mpr (Or.inl ?_)
    rw [name_of_titleFilter hf]
    exact List.mem_cons_self
  | badge _ _ hf =>
    exact fun filter hm ↦ Or.inl (hdraws (names_of_badgeFilters hf filter hm))

private theorem keepsLength_format (input output : Label) :
    (Stage.chain input [pixelFormatFilter] output).KeepsLength :=
  List.forall_mem_singleton.mpr (Or.inl (by decide))

namespace Parts.Fit

variable {fonts : FontResolver} {composition : Composition} {parts : Parts} {length : Label → ℚ}

/-- The stages of a program with the path that the joined stream takes through them. -/
private theorem exists_path (h : parts.Fit fonts composition) (hn : composition.clips ≠ []) :
    ∃ drawn : List Drawn, (∀ drawing ∈ drawn, ∃ layer : Layer,
        layer.DrawnBy (composition.scene fonts) drawing) ∧
      Leads parts.joined.output (drawn.map (·.stage) ++
        [.chain parts.decorated.output [pixelFormatFilter] (.named .videoOut)])
        (.named .videoOut) ∧
      (parts.program composition).stages =
        composition.clipStages parts.background ++ parts.joined.stages ++
          drawn.flatMap (·.stages) ++ composition.musicStages ++
          [.chain parts.decorated.output [pixelFormatFilter] (.named .videoOut)] := by
  obtain ⟨drawn, hdrawn, hdecorated, hleads⟩ := h.draws
  refine ⟨drawn, fun drawing hd ↦ ?_, hleads.append (.single rfl rfl), ?_⟩
  · obtain ⟨layer, -, hlayer⟩ := Layer.exists_drawnBy hdrawn drawing hd
    exact ⟨layer, hlayer⟩
  · rw [h.stages_eq hn, h.joining_eq hn, hdecorated]

/-- The picture is as long as the joined clips. -/
theorem length_videoOut (h : parts.Fit fonts composition) (hn : composition.clips ≠ [])
    (ht : composition.Timed (parts.program composition) length) :
    length (parts.program composition).videoOut = length parts.joined.output := by
  obtain ⟨drawn, hdrawn, hleads, hstages⟩ := h.exists_path hn
  refine hleads.length_eq (List.forall_mem_append.mpr ⟨?_, List.forall_mem_singleton.mpr ?_⟩)
  · intro stage hs
    obtain ⟨drawing, hd, rfl⟩ := List.mem_map.mp hs
    obtain ⟨layer, hlayer⟩ := hdrawn drawing hd
    have hmem : drawing.stage ∈ drawn.flatMap (·.stages) :=
      List.mem_flatMap.mpr ⟨drawing, hd, List.mem_append_right _ List.mem_cons_self⟩
    refine (ht.timed _ ?_).kept hlayer.keepsLength
    rw [hstages]
    exact List.mem_append_left _ (List.mem_append_left _ (List.mem_append_right _ hmem))
  · refine (ht.timed _ ?_).kept (keepsLength_format _ _)
    rw [hstages]
    exact List.mem_append_right _ List.mem_cons_self

end Parts.Fit

/-! ### The sound -/

/-- The filter of the music that trims it. -/
theorem Soundtrack.filter?_atrim_musicStage (settings : Music) (input : Nat) (total : Binary64)
    (output : Label) :
    (musicStage settings input total output).filter? "atrim" =
      some ⟨"atrim", [opt "duration" (num total)]⟩ := by
  unfold musicStage fadeIn fadeOut
  cases settings.fadeIn <;> cases settings.fadeOut <;> rfl

/-- The sound is as long as its numeral says. -/
theorem Parts.Fit.length_audioOut {fonts : FontResolver} {composition : Composition} {parts : Parts}
    {length : Label → ℚ} (h : parts.Fit fonts composition) (hn : composition.clips ≠ [])
    (ht : composition.Timed (parts.program composition) length) {settings : Music}
    (hm : composition.music = some settings)
    (hf : composition.timeline.totalDuration.isFinite = true) :
    length (.named .audioOut) = (composition.timeline.totalDuration.thousandths : ℚ) / 1000 := by
  have hstage : Soundtrack.musicStage settings composition.clips.length
      composition.timeline.totalDuration (.named .audioOut) ∈
        (parts.program composition).stages := by
    rw [h.stages_eq hn, Composition.musicStages, hm]
    exact List.mem_append_left _ (List.mem_append_right _ List.mem_cons_self)
  have hinput : (parts.program composition).inputs[composition.clips.length]? =
      some (Soundtrack.musicInput settings) := by
    simp [Parts.program, hm]
  exact (ht.timed _ hstage).trimmed _ _ rfl hinput rfl _
    (Soundtrack.filter?_atrim_musicStage settings _ _ _) _ rfl _ (decimalValue?_num hf) _
    List.mem_cons_self

/-! ### Every program has timing -/

namespace Composition

/-- The length of the joined clips. -/
def joinedLength (composition : Composition) : ℚ :=
  composition.streamLength (before (composition.clips.length - 1))

/-- The lengths of all streams of a program, also of those that no join reads or writes. -/
def playLength (composition : Composition) (label : Label) : ℚ :=
  match label with
  | .signal ⟨.audioOut, _⟩ _ => (composition.timeline.totalDuration.thousandths : ℚ) / 1000
  | .signal ⟨.caption, _⟩ _ => composition.joinedLength
  | .signal ⟨.overlay, _⟩ _ => composition.joinedLength
  | .signal ⟨.title, _⟩ _ => composition.joinedLength
  | .signal ⟨.badge, _⟩ _ => composition.joinedLength
  | .signal ⟨.videoOut, _⟩ _ => composition.joinedLength
  | label => composition.streamLength label

variable {composition : Composition} {fonts : FontResolver} {parts : Parts}

/-- Lengths that agree on what the stages read and write are measured alike. -/
theorem Measured.congr {stages : List Stage} {length other : Label → ℚ}
    (h : composition.Measured stages length)
    (hp : ∀ index, other (.numbered .placed index) = length (.numbered .placed index))
    (hj : ∀ boundary, other (.numbered .join boundary) = length (.numbered .join boundary))
    (hs : ∀ stage ∈ stages, ∀ l ∈ stage.inputs ++ stage.outputs, other l = length l) :
    composition.Measured stages other := by
  have hinput : ∀ stage ∈ stages, ∀ l ∈ stage.inputs, other l = length l :=
    fun stage hm l hl ↦ hs stage hm l (List.mem_append_left _ hl)
  have houtput : ∀ stage ∈ stages, ∀ l ∈ stage.outputs, other l = length l :=
    fun stage hm l hl ↦ hs stage hm l (List.mem_append_right _ hl)
  constructor
  · intro index clip hc
    rw [hp]
    exact h.placed index clip hc
  · intro stage hm hx output ho
    rw [houtput stage hm output ho, h.concat stage hm hx output ho,
      List.map_congr_left (hinput stage hm)]
  · intro stage hm hx left right hi boundary ho
    have hr : right ∈ stage.inputs := by
      rw [hi]
      exact List.mem_cons_of_mem _ List.mem_cons_self
    rw [hj, hinput stage hm right hr, h.blend stage hm hx left right hi boundary ho]
  · intro stage hm hx input hi output ho
    have hr : input ∈ stage.inputs := by
      rw [hi]
      exact List.mem_cons_self
    rw [houtput stage hm output ho, hinput stage hm input hr,
      h.effect stage hm hx input hi output ho]

/-- What a join reads or writes: a placed clip, the result of a join or an edge. -/
private def IsJoined (l : Label) : Prop :=
  ∃ role ∈ [Role.placed, .join, .edge], ∃ index, l = .numbered role index

private theorem isJoined_of_mem_boundaryStages (composition : Composition) (boundary : Nat) :
    ∀ stage ∈ composition.boundaryStages boundary, ∀ l ∈ stage.inputs ++ stage.outputs,
      IsJoined l := by
  have hplaced : ∀ index, IsJoined (.numbered .placed index) :=
    fun index ↦ ⟨.placed, by decide, index, rfl⟩
  have hjoin : ∀ index, IsJoined (.numbered .join index) :=
    fun index ↦ ⟨.join, by decide, index, rfl⟩
  have hedge : ∀ index, IsJoined (.numbered .edge index) :=
    fun index ↦ ⟨.edge, by decide, index, rfl⟩
  have hbefore : IsJoined (before boundary) := by
    cases boundary with
    | zero => exact hplaced 0
    | succ boundary => exact hjoin boundary
  have hstage : ∀ {left right : Label}, IsJoined left → IsJoined right →
      ∀ l ∈ [left, right] ++ [.numbered .join boundary], IsJoined l := by
    intro left right hl hr
    exact List.forall_mem_cons.mpr ⟨hl, List.forall_mem_cons.mpr ⟨hr,
      List.forall_mem_singleton.mpr (hjoin boundary)⟩⟩
  have heffect : ∀ {input : Label} (index : Nat), IsJoined input →
      ∀ l ∈ [input] ++ [.numbered .edge index], IsJoined l := by
    intro input index hi
    exact List.forall_mem_cons.mpr ⟨hi, List.forall_mem_singleton.mpr (hedge index)⟩
  unfold boundaryStages boundaryEffects boundaryJoin
  cases composition.joinAfter boundary with
  | concat => exact List.forall_mem_singleton.mpr (hstage hbefore (hplaced _))
  | blend => exact List.forall_mem_singleton.mpr (hstage hbefore (hplaced _))
  | edges =>
    exact List.forall_mem_cons.mpr ⟨heffect _ hbefore, List.forall_mem_cons.mpr
      ⟨heffect _ (hplaced _), List.forall_mem_singleton.mpr (hstage (hedge _) (hedge _))⟩⟩

private theorem isJoined_of_mem_joined (hn : composition.clips ≠ [])
    (h : parts.Fit fonts composition) :
    ∀ stage ∈ parts.joined.stages, ∀ l ∈ stage.inputs ++ stage.outputs, IsJoined l := by
  rcases joined_cases hn h.joined with ⟨-, hj⟩ | ⟨-, -, hj⟩ | ⟨-, -, hj⟩
  · rw [hj]
    exact List.forall_mem_nil _
  · rw [hj]
    refine List.forall_mem_singleton.mpr (List.forall_mem_append.mpr ⟨?_, ?_⟩)
    · intro l hl
      obtain ⟨index, -, rfl⟩ := List.mem_map.mp hl
      exact ⟨.placed, by decide, index, rfl⟩
    · exact List.forall_mem_singleton.mpr ⟨.join, by decide, 0, rfl⟩
  · rw [hj]
    intro stage hs
    obtain ⟨boundary, -, hs⟩ := List.mem_flatMap.mp hs
    exact composition.isJoined_of_mem_boundaryStages boundary stage hs

private theorem playLength_of_isJoined {l : Label} (h : IsJoined l) :
    composition.playLength l = composition.streamLength l := by
  obtain ⟨role, hrole, index, rfl⟩ := h
  simp only [List.mem_cons, List.not_mem_nil, or_false] at hrole
  rcases hrole with rfl | rfl | rfl <;> rfl

private theorem playLength_joined (hn : composition.clips ≠ []) (h : parts.Fit fonts composition) :
    composition.playLength parts.joined.output = composition.joinedLength := by
  unfold joinedLength
  rcases joined_cases hn h.joined with ⟨h1, hj⟩ | ⟨h2, ht, hj⟩ | ⟨-, -, hj⟩
  · rw [hj, h1]
    rfl
  · obtain ⟨boundary, hb⟩ : ∃ boundary, composition.clips.length - 1 = boundary + 1 :=
      Nat.exists_eq_succ_of_ne_zero (by omega)
    rw [hj, hb]
    exact (if_pos ht).trans (if_pos ht).symm
  · rw [hj]
    cases composition.clips.length - 1 <;> rfl

/-- A stage that joins streams or transforms their edges does not keep lengths. -/
private theorem not_keepsLength_of_joins {stage : Stage}
    (h : (stage.joins || stage.transformsEdge) = true) : ¬ stage.KeepsLength := by
  intro hk
  have hdisjoint : ∀ name ∈ ["concat", "xfade", "rotate", "eq"],
      name ∉ ["drawtext", "drawbox", "format", "overlay"] := by
    decide
  have huses : ∀ name ∈ ["concat", "xfade", "rotate", "eq"], stage.uses name = false := by
    intro name hn
    rw [Stage.uses, List.any_eq_false]
    intro filter hf hname
    rw [← eq_of_beq hname] at hn
    exact hdisjoint _ hn (hk filter hf).name_mem
  simp [Stage.joins, Stage.transformsEdge, huses] at h

/-- What draws a layer writes one label of its own, and its sources read nothing. -/
private theorem playLength_of_drawnBy {scene : Scene} {layer : Layer} {drawn : Drawn}
    (h : layer.DrawnBy scene drawn) :
    (∀ source ∈ drawn.sources, source.inputs = []) ∧
      ∀ output ∈ drawn.stage.outputs, composition.playLength output = composition.joinedLength := by
  cases h with
  | caption => exact ⟨List.forall_mem_nil _, List.forall_mem_singleton.mpr rfl⟩
  | bar => exact ⟨List.forall_mem_singleton.mpr rfl, List.forall_mem_singleton.mpr rfl⟩
  | overlay => exact ⟨List.forall_mem_nil _, List.forall_mem_singleton.mpr rfl⟩
  | title => exact ⟨List.forall_mem_nil _, List.forall_mem_singleton.mpr rfl⟩
  | badge => exact ⟨List.forall_mem_nil _, List.forall_mem_singleton.mpr rfl⟩

/-- No filter of a stage that keeps lengths trims sound. -/
private theorem filter?_atrim_of_keepsLength {stage : Stage} (h : stage.KeepsLength) :
    stage.filter? "atrim" = none := by
  have hatrim : "atrim" ∉ ["drawtext", "drawbox", "format", "overlay"] := by
    decide
  rw [Stage.filter?, List.find?_eq_none]
  intro filter hf hname
  rw [← eq_of_beq hname] at hatrim
  exact hatrim (h filter hf).name_mem

variable {files : List InputFile} {length : Label → ℚ} {stage : Stage}

private theorem timed_of_keepsLength (hk : stage.KeepsLength)
    (h : ∀ input ∈ stage.inputs.head?, ∀ output ∈ stage.outputs, length output = length input) :
    stage.Timed files length where
  kept _ := h
  trimmed _ _ _ _ _ filter hf := by
    rw [filter?_atrim_of_keepsLength hk] at hf
    cases hf

/-- A stage without timing of its own: it reads no sound and nothing of it is kept. -/
private theorem timed_of_not_keepsLength (hi : ∀ input, stage.inputs ≠ [.ofAudio input])
    (hk : ¬ stage.KeepsLength) : stage.Timed files length where
  kept h := absurd h hk
  trimmed input _ h := absurd h (hi input)

private theorem timed_of_inputs_eq_nil (h : stage.inputs = []) : stage.Timed files length where
  kept _ input hi := by
    rw [h] at hi
    cases hi
  trimmed input _ hi := by
    rw [h] at hi
    cases hi

private theorem timed_placedStages (canvas : Canvas) (index : Nat) (clip : Clip) :
    ∀ stage ∈ placedStages canvas index clip (.numbered .clip index) (.numbered .canvas index)
      (.numbered .placed index), stage.Timed files length := by
  have htrim : "trim" ∉ ["drawtext", "drawbox", "format", "overlay"] := by
    decide
  have hoverlay : "overlay" ∉ ["drawtext", "drawbox", "format"] := by
    decide
  unfold placedStages
  refine List.forall_mem_cons.mpr ⟨timed_of_not_keepsLength ?_ ?_, List.forall_mem_cons.mpr
    ⟨timed_of_inputs_eq_nil rfl, List.forall_mem_singleton.mpr (timed_of_not_keepsLength ?_ ?_)⟩⟩
  · intro input hi
    cases (List.cons.inj hi).1
  · intro hk
    exact absurd (hk _ List.mem_cons_self).name_mem htrim
  · intro input hi
    cases (List.cons.inj hi).2
  · intro hk
    rcases hk _ List.mem_cons_self with hname | ⟨-, hshortest⟩
    · exact absurd hname hoverlay
    · cases hshortest

private theorem timed_joined (hn : composition.clips ≠ []) (h : parts.Fit fonts composition) :
    ∀ stage ∈ parts.joined.stages, stage.Timed files length := by
  intro stage hs
  refine timed_of_not_keepsLength ?_ ?_
  · intro input hi
    obtain ⟨role, -, index, hl⟩ := isJoined_of_mem_joined hn h stage hs (.ofAudio input)
      (List.mem_append_left _ (hi ▸ List.mem_cons_self))
    cases hl
  · rw [← h.joining_eq hn] at hs
    exact not_keepsLength_of_joins (List.mem_filter.mp hs).2

private theorem timed_musicStages (composition : Composition) :
    ∀ stage ∈ composition.musicStages, stage.Timed files composition.playLength := by
  have hvolume : "volume" ∉ ["drawtext", "drawbox", "format", "overlay"] := by
    decide
  intro stage hs
  obtain ⟨settings, -, rfl⟩ := Option.map_eq_some_iff.mp (Option.mem_toList.mp hs)
  constructor
  · intro hk
    exact absurd (hk _ List.mem_cons_self).name_mem hvolume
  · intro input file _ _ _ filter hf text ht seconds hsec output ho
    rw [Soundtrack.filter?_atrim_musicStage] at hf
    obtain rfl := Option.some.inj hf
    obtain rfl : num composition.timeline.totalDuration = text := Option.some.inj ht
    rw [List.mem_singleton.mp ho]
    cases hfinite : composition.timeline.totalDuration.isFinite with
    | true =>
      rw [decimalValue?_num hfinite] at hsec
      exact Option.some.inj hsec
    | false =>
      rw [decimalValue?_num_of_not_finite hfinite] at hsec
      cases hsec

/-- Every program has lengths for all its streams. -/
theorem timed_playLength {program : Program} (h : composition.compile fonts = .ok program) :
    composition.Timed program composition.playLength := by
  have hmeasured := measured_streamLength h
  obtain ⟨ha, parts, hfit, rfl⟩ := Composition.exists_parts_of_compile h
  have hn := ha.clips_ne_nil
  obtain ⟨drawn, hdrawn, hleads, hstages⟩ := hfit.exists_path hn
  constructor
  · refine Measured.of_joinsNothing_or ?_ hfit.joinsNothing_or
    exact (hmeasured.mono parts.mem_stages_of_mem_joined).congr (fun _ ↦ rfl) (fun _ ↦ rfl)
      fun stage hs l hl ↦ playLength_of_isJoined (isJoined_of_mem_joined hn hfit stage hs l hl)
  · have hdraws : ∀ drawing ∈ drawn, (∀ source ∈ drawing.sources, source.inputs = []) ∧
        ∀ output ∈ drawing.stage.outputs,
          composition.playLength output = composition.joinedLength := by
      intro drawing hd
      obtain ⟨layer, hlayer⟩ := hdrawn drawing hd
      exact playLength_of_drawnBy hlayer
    have hinputs := hleads.length_input (playLength_joined hn hfit)
      (List.forall_mem_append.mpr ⟨List.forall_mem_map.mpr fun drawing hd ↦ (hdraws drawing hd).2,
        List.forall_mem_singleton.mpr (List.forall_mem_singleton.mpr rfl)⟩)
    obtain ⟨hdrawnInputs, hformatInput⟩ := List.forall_mem_append.mp hinputs
    rw [hstages]
    simp only [List.forall_mem_append, List.forall_mem_singleton]
    refine ⟨⟨⟨⟨?_, timed_joined hn hfit⟩, ?_⟩, timed_musicStages composition⟩, ?_⟩
    · intro stage hs
      obtain ⟨⟨clip, index⟩, -, hs⟩ := List.mem_flatMap.mp hs
      exact timed_placedStages _ index clip stage hs
    · intro stage hs
      obtain ⟨drawing, hd, hs⟩ := List.mem_flatMap.mp hs
      obtain ⟨hsources, houtputs⟩ := hdraws drawing hd
      rcases List.mem_append.mp hs with hs | hs
      · exact timed_of_inputs_eq_nil (hsources stage hs)
      · obtain rfl := List.mem_singleton.mp hs
        obtain ⟨layer, hlayer⟩ := hdrawn drawing hd
        refine timed_of_keepsLength hlayer.keepsLength fun input hi output ho ↦ ?_
        rw [houtputs output ho]
        exact (hdrawnInputs _ (List.mem_map_of_mem hd) input hi).symm
    · refine timed_of_keepsLength (keepsLength_format _ _) fun input hi ↦
        List.forall_mem_singleton.mpr ?_
      exact (hformatInput _ List.mem_cons_self input hi).symm

end Composition

end Montage
