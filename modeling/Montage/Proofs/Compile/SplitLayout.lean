import Montage.Proofs.Compile.Layout

/-!
# The layout of a split screen

Which program a split screen is compiled to. The pads it reads are those of both videos and of the
sources that are heard.
-/

namespace Montage

open Montage.Numeric (Binary64)
open Montage.Graph

namespace SplitScreen

/-- The requirements that the check of a split screen stands for. -/
structure Accepted (screen : SplitScreen) : Prop where
  primary : screen.primary.isEmpty = false
  secondary : screen.secondary.isEmpty = false
  primaryVolume : Composition.isNonNegative screen.primaryVolume = true
  secondaryVolume : Composition.isNonNegative screen.secondaryVolume = true
  primaryDuration : ∀ d ∈ screen.primaryDuration, Composition.isPositive d = true
  secondaryDuration : ∀ d ∈ screen.secondaryDuration, Composition.isPositive d = true
  backgroundColor : Color.isHex screen.backgroundColor = true

private theorem refuse_eq_ok {defect : Defect} {wrong : Bool} :
    refuse defect wrong = .ok () ↔ wrong = false := by
  cases wrong <;> simp [refuse]

/-- The check passes exactly the accepted split screens. -/
theorem check_eq_ok_iff (screen : SplitScreen) : screen.check = .ok () ↔ screen.Accepted := by
  simp only [check, checkDuration, bind_eq_ok, refuse_eq_ok, forM_eq_ok, Bool.or_eq_false_iff,
    Bool.not_eq_eq_eq_not, Bool.not_false]
  constructor
  · rintro ⟨⟨hp, hs⟩, hpv, hsv, hpd, hsd, hb⟩
    exact ⟨hp, hs, hpv, hsv, hpd, hsd, hb⟩
  · rintro ⟨hp, hs, hpv, hsv, hpd, hsd, hb⟩
    exact ⟨⟨hp, hs⟩, hpv, hsv, hpd, hsd, hb⟩

end SplitScreen

namespace Soundtrack

/-- The pads of the sources that are heard. -/
def audiblePads (primary secondary : SourceAudio) : List Label :=
  (if primary.isAudible then [.ofAudio 0] else []) ++
    (if secondary.isAudible then [.ofAudio 1] else [])

/-- The fragment that makes the sound of a split screen. -/
def splitFragment (primary secondary : SourceAudio) : Option Fragment :=
  match Mix.of primary secondary with
  | .silent => none
  | .single source =>
    let chosen := if source = 0 then primary else secondary
    some (.single (voice source chosen (.named .audioOut)) (.named .audioOut))
  | .both =>
    some ⟨mixStages primary secondary (.numbered .voice 0) (.numbered .voice 1)
      (.named .audioOut), .named .audioOut⟩

private theorem voice_segment (input : Nat) (source : SourceAudio) :
    Segment (requestsFor [.voice, .audioOut]) [.ofAudio input] []
      [voice input source (.named .audioOut)] [.named .audioOut] := by
  have hstage : Segment {⟨.audioOut, none⟩} _ _ [voice input source (.named .audioOut)] _ :=
    .single rfl (List.cons_ne_nil _ _)
  refine hstage.mono ?_
  rintro r rfl
  exact List.mem_cons_of_mem _ List.mem_cons_self

private theorem mixStages_segment (primary secondary : SourceAudio) :
    Segment (requestsFor [.voice, .audioOut]) [.ofAudio 0, .ofAudio 1] []
      (mixStages primary secondary (.numbered .voice 0) (.numbered .voice 1) (.named .audioOut))
      [.named .audioOut] where
  wired := by
    refine .cons (.refl []) (.cons (.refl _) (.cons ?_ (.refl _)))
    simpa [Stage.signals, voice, Stage.chain] using List.Perm.swap _ _ []
  nodup := by
    simp [mixStages, voice, written, Stage.chain, Label.numbered, Label.named]
  issued := by
    simp [mixStages, voice, written, Stage.chain, Label.numbered, Label.named, requestsFor]
  pads_eq := rfl
  filters := by
    simp [mixStages, voice, Stage.chain]

/-- The sound of a split screen reads the audio of the sources that are heard. -/
theorem splitFragment_segment (primary secondary : SourceAudio) :
    Segment (requestsFor [.voice, .audioOut]) (audiblePads primary secondary) []
      (stagesOf (splitFragment primary secondary))
      ((splitFragment primary secondary).map (·.output)).toList := by
  unfold splitFragment audiblePads Mix.of
  cases primary.isAudible <;> cases secondary.isAudible
  · exact .nil _ _
  · exact voice_segment 1 secondary
  · exact voice_segment 0 primary
  · exact mixStages_segment primary secondary

theorem splitScreen_yields (primary secondary : SourceAudio) :
    (splitScreen primary secondary).Yields (requestsFor [.voice, .audioOut])
      (splitFragment primary secondary) := by
  unfold splitScreen splitFragment
  cases Mix.of primary secondary with
  | silent => exact Builder.yields_pure _ _
  | single source =>
    refine Builder.Yields.mono (Builder.Yields.bind_pure (Builder.yields_named .audioOut) _) ?_
    rintro r rfl
    exact List.mem_cons_of_mem _ List.mem_cons_self
  | both =>
    refine .mono (.numbered_bind (.numbered_bind (.named_bind (Builder.yields_pure _ ∅) ?_)
      ?_) ?_) ?_
    · simp
    · simp
    · simp
    · rintro r (rfl | rfl | rfl | hr)
      · exact List.mem_cons_self
      · exact List.mem_cons_self
      · exact List.mem_cons_of_mem _ List.mem_cons_self
      · exact absurd hr (Set.notMem_empty r)

end Soundtrack

namespace SplitScreen

variable {screen : SplitScreen} {primary secondary : SourceInfo}

/-- The sound of the primary source. -/
def primaryAudio (screen : SplitScreen) (info : SourceInfo) : Soundtrack.SourceAudio :=
  ⟨screen.primaryVolume, info.hasAudio⟩

/-- The sound of the secondary source. -/
def secondaryAudio (screen : SplitScreen) (info : SourceInfo) : Soundtrack.SourceAudio :=
  ⟨screen.secondaryVolume, info.hasAudio⟩

/-- The sound of the split screen. -/
def soundtrack (screen : SplitScreen) (primary secondary : SourceInfo) : Option Fragment :=
  Soundtrack.splitFragment (screen.primaryAudio primary) (screen.secondaryAudio secondary)

/-- The pads that the split screen reads: both videos, then the sources that are heard. -/
def pads (screen : SplitScreen) (primary secondary : SourceInfo) : List Label :=
  [.ofVideo 0, .ofVideo 1] ++
    Soundtrack.audiblePads (screen.primaryAudio primary) (screen.secondaryAudio secondary)

/-- The program of a split screen of this length on this background. -/
def program (screen : SplitScreen) (primary secondary : SourceInfo) (background : String)
    (total : Binary64) : Program where
  inputs := screen.inputPaths.map fun path ↦ ⟨path, []⟩
  stages :=
    stackedStages
        (fitFilters screen.quality.encoding.width (screen.quality.encoding.height / 2) background)
        (.numbered .source 0) (.numbered .source 1) (.named .stack) ++
      stagesOf (screen.soundtrack primary secondary) ++
      [.chain (.named .stack) [pixelFormatFilter] (.named .videoOut)]
  videoOut := .named .videoOut
  audioOut := (screen.soundtrack primary secondary).map (·.output)
  encoding := screen.quality.encoding
  totalDuration := total

private theorem buildSplitScreen_yields (h : screen.Accepted) (primary secondary : SourceInfo)
    (total : Binary64) :
    ∃ background, engineColor screen.backgroundColor = .ok background ∧ ∃ requests,
      (buildSplitScreen screen primary secondary total).Yields requests
        (screen.program primary secondary background total) := by
  obtain ⟨background, hbackground⟩ := engineColor_eq_ok h.backgroundColor
  refine ⟨background, hbackground, ?_⟩
  unfold buildSplitScreen
  apply Exists.intro
  apply Builder.Yields.lift_bind hbackground
  have hsound := Soundtrack.splitScreen_yields (screen.primaryAudio primary)
    (screen.secondaryAudio secondary)
  refine .numbered_bind (.numbered_bind (.named_bind
    (hsound.bind_roles (videoOut_yields _) (by decide)) ?_) ?_) ?_
  · simp [requestsFor]
  · simp [requestsFor]
  · simp [requestsFor]

private theorem stackedStages_segment {fit : List Filter} (hf : fit ≠ []) :
    Segment (requestsFor [.source, .stack]) [.ofVideo 0, .ofVideo 1] []
      (stackedStages fit (.numbered .source 0) (.numbered .source 1) (.named .stack))
      [.named .stack] where
  wired := by
    refine .cons (.refl []) (.cons (.refl _) (.cons ?_ (.refl _)))
    simpa [Stage.signals, Stage.chain] using List.Perm.swap _ _ []
  nodup := by
    simp [stackedStages, written, Stage.chain, Label.numbered, Label.named]
  issued := by
    simp [stackedStages, written, Stage.chain, Label.numbered, Label.named, requestsFor]
  pads_eq := rfl
  filters := by
    simp [stackedStages, Stage.chain, hf]

/-- The program of a split screen is one segment from nothing to its outputs. -/
theorem program_segment (screen : SplitScreen) (primary secondary : SourceInfo)
    (background : String) (total : Binary64) :
    ∃ requests, Segment requests (screen.pads primary secondary) []
      (screen.program primary secondary background total).stages
      (screen.program primary secondary background total).outs := by
  have hstacked := stackedStages_segment (List.cons_ne_nil _ _ :
    fitFilters screen.quality.encoding.width (screen.quality.encoding.height / 2) background ≠ [])
  have hsound := hstacked.append_roles ((Soundtrack.splitFragment_segment
    (screen.primaryAudio primary) (screen.secondaryAudio secondary)).frame_left [.named .stack])
    (by decide)
  have hout := hsound.append_roles ((videoOut_segment (Label.isPad_named .stack)).frame _)
    (by decide)
  rw [List.append_nil] at hout
  exact ⟨_, hout⟩

/-- The program of a split screen is wired. -/
theorem program_wiring (screen : SplitScreen) (primary secondary : SourceInfo)
    (background : String) (total : Binary64) :
    (screen.program primary secondary background total).Wiring := by
  obtain ⟨requests, hs⟩ := screen.program_segment primary secondary background total
  refine hs.wiring fun l hl i hi ↦ ?_
  have hinput : i = 0 ∨ i = 1 := by
    simp only [pads, Soundtrack.audiblePads, List.mem_append, List.mem_cons, List.mem_ite_nil_right,
      List.not_mem_nil, or_false] at hl
    rcases hl with (rfl | rfl) | ⟨-, rfl⟩ | ⟨-, rfl⟩
    · exact Or.inl (Option.some.inj hi).symm
    · exact Or.inr (Option.some.inj hi).symm
    · exact Or.inl (Option.some.inj hi).symm
    · exact Or.inr (Option.some.inj hi).symm
  show i < 2
  omega

/-- A split screen whose sources have a length compiles if its check passes it. -/
theorem Accepted.compile_eq_ok (h : screen.Accepted)
    (hp : Composition.isPositive (primary.duration.min secondary.duration) = true) :
    ∃ background, engineColor screen.backgroundColor = .ok background ∧
      screen.compile primary secondary = .ok (screen.program primary secondary background
        (primary.duration.min secondary.duration)) := by
  obtain ⟨background, hb, requests, hy⟩ := buildSplitScreen_yields h primary secondary
    (primary.duration.min secondary.duration)
  refine ⟨background, hb, ?_⟩
  have hc := (check_eq_ok_iff screen).mpr h
  have hcheck := (screen.program_wiring primary secondary background
    (primary.duration.min secondary.duration)).check_eq_ok
  simp only [compile, hc, hp, hy.run', checked_eq_ok hcheck, Except.mapError, bind, Except.bind]
  rfl

/-- A split screen without a length does not compile. -/
theorem Accepted.compile_eq_failure (h : screen.Accepted)
    (hp : Composition.isPositive (primary.duration.min secondary.duration) = false) :
    screen.compile primary secondary =
      .error (.failure (.sourceDurations primary.duration secondary.duration)) := by
  have hc := (check_eq_ok_iff screen).mpr h
  simp only [compile, hc, hp, Except.mapError, bind, Except.bind]
  rfl

/-- A split screen compiles unless its check refuses it or it has no length. -/
theorem compile_eq_or (screen : SplitScreen) (primary secondary : SourceInfo) :
    (∃ defect, screen.check = .error defect ∧
      screen.compile primary secondary = .error (.failure (.splitScreen defect))) ∨
    screen.Accepted ∧
      (screen.compile primary secondary =
          .error (.failure (.sourceDurations primary.duration secondary.duration)) ∨
        ∃ background, engineColor screen.backgroundColor = .ok background ∧
          screen.compile primary secondary = .ok (screen.program primary secondary background
            (primary.duration.min secondary.duration))) := by
  cases hc : screen.check with
  | error defect =>
    refine Or.inl ⟨defect, rfl, ?_⟩
    simp only [compile, hc, Except.mapError, bind, Except.bind]
  | ok =>
    have ha := (check_eq_ok_iff screen).mp hc
    refine Or.inr ⟨ha, ?_⟩
    cases hp : Composition.isPositive (primary.duration.min secondary.duration) with
    | false => exact Or.inl (ha.compile_eq_failure hp)
    | true => exact Or.inr (ha.compile_eq_ok hp)

/-- A split screen has no badges, and its compilation never overflows. -/
theorem compile_ne_overflow (screen : SplitScreen) (primary secondary : SourceInfo) :
    screen.compile primary secondary ≠ .error .overflow := by
  rcases screen.compile_eq_or primary secondary with ⟨defect, -, h⟩ | ⟨-, h | ⟨background, -, h⟩⟩
  all_goals
    rw [h]
    intro ho
    cases ho

end SplitScreen

end Montage
