import Mathlib
import Montage.Proofs.Compile.SplitLayout
import Montage.Proofs.Documents.Requests
import Montage.Proofs.Numeric.Monotone
import Montage.Proofs.Render.Course

/-!
# Facts on sources, declared or probed

Length and sound of a source may be declared in the request or taken from a report on the file. It
makes no difference which: a split screen compiles as it does with the reports written into it. A
source is not probed without need, unless its volume is no number. Of a muted source the sound is
not asked for, and what is put in its place does not reach the program.
-/

namespace Montage

open Montage.Graph (Program Label)
open Montage.Numeric (Binary64)

/-! ### Sound that is not heard -/

namespace Soundtrack

variable {primary primary' secondary secondary' : SourceAudio}

/-- A voice depends on the volume of its source only. -/
private theorem voice_congr {source source' : SourceAudio} (h : source.volume = source'.volume)
    (input : Nat) (output : Label) : voice input source output = voice input source' output := by
  rw [voice, voice, h]

/-- The sound of a split screen depends on the volumes of its sources and on which are heard. -/
theorem splitScreen_congr (hp : primary.volume = primary'.volume)
    (hs : secondary.volume = secondary'.volume) (hpa : primary.isAudible = primary'.isAudible)
    (hsa : secondary.isAudible = secondary'.isAudible) :
    splitScreen primary secondary = splitScreen primary' secondary' := by
  have hmix : Mix.of primary secondary = Mix.of primary' secondary' := by
    rw [Mix.of, Mix.of, hpa, hsa]
  unfold splitScreen
  rw [hmix]
  cases Mix.of primary' secondary' with
  | silent => rfl
  | single source =>
    have hchosen : (if source = 0 then primary else secondary).volume =
        (if source = 0 then primary' else secondary').volume := by
      split
      · exact hp
      · exact hs
    simp only [voice_congr hchosen]
  | both => simp only [mixStages, voice_congr hp, voice_congr hs]

end Soundtrack

/-! ### Sources of a split screen -/

/-- A source of a split screen, with what is declared of it. -/
structure DeclaredSource where
  path : FilePath
  duration : Option Binary64
  hasAudio : Option Bool
  volume : Binary64

namespace DeclaredSource

/-- A source of which a fact is missing: its length is not declared, or its sound is not and its
volume is above zero. -/
def Unknown (source : DeclaredSource) : Prop :=
  source.duration = none ∨ source.hasAudio = none ∧ 0 < source.volume

/-- A source of whose sound nothing is declared, and whose volume is no number. -/
def Undecided (source : DeclaredSource) : Prop :=
  source.hasAudio = none ∧ source.volume.isNaN = true

instance (source : DeclaredSource) : Decidable source.Unknown :=
  inferInstanceAs (Decidable (_ ∨ _))

instance (source : DeclaredSource) : Decidable source.Undecided :=
  inferInstanceAs (Decidable (_ ∧ _))

/-- The facts on a source: what is declared, and for the rest what a report says. -/
def known (source : DeclaredSource) (report : MediaInfo) : SourceInfo :=
  ⟨source.duration.getD report.duration, source.hasAudio.getD report.hasAudio⟩

/-- The sound of a source with these facts. -/
def audio (source : DeclaredSource) (info : SourceInfo) : Soundtrack.SourceAudio :=
  ⟨source.volume, info.hasAudio⟩

/-- Facts that make no difference for a source: one length, and both heard or both not. -/
structure Alike (source : DeclaredSource) (info info' : SourceInfo) : Prop where
  duration : info.duration = info'.duration
  audible : (source.audio info).isAudible = (source.audio info').isAudible

/-- What is known of the sound without a report: what is declared, or that a muted source is not
heard. -/
def settledAudio (source : DeclaredSource) : Option Bool :=
  source.hasAudio <|> (if source.volume ≤ 0 then some false else none)

/-- What is not at most zero is above zero, or no number. -/
private theorem not_le_zero_iff {x : Binary64} : ¬ x ≤ 0 ↔ 0 < x ∨ x.isNaN = true := by
  cases hx : x.isNaN with
  | true =>
    refine iff_of_true (fun hle ↦ ?_) (Or.inr rfl)
    rw [(Binary64.isNaN_of_le hle).1] at hx
    contradiction
  | false =>
    constructor
    · intro h
      exact Or.inl (Binary64.lt_of_not_le Binary64.isNaN_zero hx h)
    · rintro (hlt | h)
      · exact Binary64.not_le_of_lt hlt
      · contradiction

/-- What is missing or undecided is a length, or a sound that is not at most as loud as zero. -/
private theorem unknown_or_undecided_iff {source : DeclaredSource} :
    source.Unknown ∨ source.Undecided ↔
      source.duration = none ∨ source.hasAudio = none ∧ ¬ source.volume ≤ 0 := by
  rw [Unknown, Undecided, not_le_zero_iff, or_assoc, ← and_or_left]

theorem unknown_or_undecided_iff_settled {source : DeclaredSource} :
    source.Unknown ∨ source.Undecided ↔
      source.duration = none ∨ source.settledAudio = none := by
  rw [unknown_or_undecided_iff, settledAudio]
  cases source.hasAudio with
  | none => by_cases h : source.volume ≤ 0 <;> simp [h]
  | some hasAudio => simp

theorem not_undecided_of_isFinite {source : DeclaredSource} (h : source.volume.isFinite = true) :
    ¬ source.Undecided := by
  rintro ⟨-, hnan⟩
  rw [Binary64.isNaN_of_isFinite h] at hnan
  cases hnan

theorem sourceProbes_eq (source : DeclaredSource) :
    sourceProbes source.path source.duration source.hasAudio source.volume =
      if source.Unknown ∨ source.Undecided then [source.path] else [] := by
  have hmust : mustProbe source.duration source.hasAudio source.volume = true ↔
      source.Unknown ∨ source.Undecided := by
    rw [unknown_or_undecided_iff, mustProbe]
    simp
  exact if_congr hmust rfl rfl

/-- A source that is at most as loud as zero is not heard. -/
private theorem isAudible_of_muted {source : DeclaredSource} (h : source.volume ≤ 0)
    (info : SourceInfo) : (source.audio info).isAudible = false := by
  have hlt : ¬ 0 < source.volume := fun hlt ↦ Binary64.not_le_of_lt hlt h
  rw [Soundtrack.SourceAudio.isAudible, audio, decide_eq_false hlt, Bool.and_false]

/-- That a muted source is taken to be without sound makes no difference. -/
theorem alike_settledAudio (source : DeclaredSource) (report : MediaInfo) :
    source.Alike
      ⟨source.duration.getD report.duration, source.settledAudio.getD report.hasAudio⟩
      (source.known report) where
  duration := rfl
  audible := by
    by_cases h : source.volume ≤ 0
    · rw [isAudible_of_muted h, isAudible_of_muted h]
    · rw [settledAudio, if_neg h, known]
      cases source.hasAudio <;> rfl

end DeclaredSource

namespace SplitScreen

/-- The upper source. -/
def upper (screen : SplitScreen) : DeclaredSource :=
  ⟨screen.primary, screen.primaryDuration, screen.primaryHasAudio, screen.primaryVolume⟩

/-- The lower source. -/
def lower (screen : SplitScreen) : DeclaredSource :=
  ⟨screen.secondary, screen.secondaryDuration, screen.secondaryHasAudio, screen.secondaryVolume⟩

/-- The split screen with everything declared that it leaves open, as the reports on its sources
say. -/
def declaring (screen : SplitScreen) (primary secondary : MediaInfo) : SplitScreen :=
  { screen with
    primaryDuration := some (screen.primaryDuration.getD primary.duration)
    secondaryDuration := some (screen.secondaryDuration.getD secondary.duration)
    primaryHasAudio := some (screen.primaryHasAudio.getD primary.hasAudio)
    secondaryHasAudio := some (screen.secondaryHasAudio.getD secondary.hasAudio) }

/-- The files of the sources of which a fact is missing or undecided, in order. -/
def unknownFiles (screen : SplitScreen) : List FilePath :=
  ([screen.upper, screen.lower].filter fun source ↦ source.Unknown ∨ source.Undecided).map (·.path)

theorem probes_eq (screen : SplitScreen) : screen.probes = screen.unknownFiles := by
  have hboth : screen.probes =
      (if screen.upper.Unknown ∨ screen.upper.Undecided then [screen.upper.path] else []) ++
        if screen.lower.Unknown ∨ screen.lower.Undecided then [screen.lower.path] else [] :=
    congrArg₂ (· ++ ·) screen.upper.sourceProbes_eq screen.lower.sourceProbes_eq
  rw [hboth, unknownFiles]
  by_cases hu : screen.upper.Unknown ∨ screen.upper.Undecided <;>
    by_cases hl : screen.lower.Unknown ∨ screen.lower.Undecided <;> simp [hu, hl]

/-- The check refuses a volume that is no number. -/
theorem not_undecided_of_check {screen : SplitScreen} (h : screen.check = .ok ()) :
    ∀ source ∈ [screen.upper, screen.lower], ¬ source.Undecided := by
  have ha := (check_eq_ok_iff screen).mp h
  have hfinite : ∀ {volume : Binary64}, Composition.isNonNegative volume = true →
      volume.isFinite = true := by
    intro volume hv
    exact (Bool.and_eq_true_iff.mp hv).1
  exact List.forall_mem_cons.mpr
    ⟨DeclaredSource.not_undecided_of_isFinite (hfinite ha.primaryVolume),
      List.forall_mem_singleton.mpr
        (DeclaredSource.not_undecided_of_isFinite (hfinite ha.secondaryVolume))⟩

private theorem forM_checkDuration_getD {duration : Option Binary64} {known : Binary64}
    (h : Composition.isPositive known = true) :
    (some (duration.getD known)).forM checkDuration = duration.forM checkDuration := by
  cases duration with
  | none =>
    show checkDuration known = _
    rw [checkDuration, h]
    rfl
  | some declared => rfl

/-- Declaring lengths that are lengths does not change what the check says. -/
theorem check_declaring (screen : SplitScreen) {primary secondary : MediaInfo}
    (hp : Composition.isPositive primary.duration = true)
    (hs : Composition.isPositive secondary.duration = true) :
    (screen.declaring primary secondary).check = screen.check := by
  simp only [check, declaring, forM_checkDuration_getD hp, forM_checkDuration_getD hs]

/-- Declaring lengths that are lengths makes no difference to a program that is made from given
facts on the sources. -/
theorem compile_declaring (screen : SplitScreen) {reported reported' : MediaInfo}
    (hr : Composition.isPositive reported.duration = true)
    (hr' : Composition.isPositive reported'.duration = true) (primary secondary : SourceInfo) :
    (screen.declaring reported reported').compile primary secondary =
      screen.compile primary secondary := by
  rw [compile, compile, check_declaring screen hr hr']
  rfl

/-- Facts that make no difference for the sources make none for the program. -/
theorem compile_congr {screen : SplitScreen} {primary primary' secondary secondary' : SourceInfo}
    (hp : screen.upper.Alike primary primary') (hs : screen.lower.Alike secondary secondary') :
    screen.compile primary secondary = screen.compile primary' secondary' := by
  have hsound : Soundtrack.splitScreen ⟨screen.primaryVolume, primary.hasAudio⟩
      ⟨screen.secondaryVolume, secondary.hasAudio⟩ =
        Soundtrack.splitScreen ⟨screen.primaryVolume, primary'.hasAudio⟩
          ⟨screen.secondaryVolume, secondary'.hasAudio⟩ :=
    Soundtrack.splitScreen_congr rfl rfl hp.audible hs.audible
  have hbuild : ∀ total, buildSplitScreen screen primary secondary total =
      buildSplitScreen screen primary' secondary' total := by
    intro total
    rw [buildSplitScreen, buildSplitScreen, hsound]
  simp only [compile, hbuild, hp.duration, hs.duration]

end SplitScreen

/-! ### Looking at the sources -/

namespace RenderJob

variable {job : RenderJob} {files : FileSystem}

/-- Of a source that is probed if it has to be, what is declared is known, and for the rest what the
report says. -/
theorem sourceKnown_of_report (source : DeclaredSource) {report : MediaInfo}
    (h : source.Unknown ∨ source.Undecided → job.prober files source.path = .ok report) :
    job.sourceKnown source.path source.duration source.hasAudio source.volume files =
      .ok ⟨source.duration.getD report.duration, source.settledAudio.getD report.hasAudio⟩ := by
  rw [DeclaredSource.unknown_or_undecided_iff_settled] at h
  unfold DeclaredSource.settledAudio at h ⊢
  unfold sourceKnown
  cases hd : source.duration with
  | none => simp only [h (Or.inl hd), Option.getD_none]
  | some duration =>
    cases ha : source.hasAudio <|> (if source.volume ≤ 0 then some false else none) with
    | none => simp only [h (Or.inr ha), Option.getD_none]
    | some hasAudio => rfl

/-- Of a source of which everything is declared, that is known. -/
theorem sourceKnown_declared (path : FilePath) (info : SourceInfo) (volume : Binary64) :
    job.sourceKnown path (some info.duration) (some info.hasAudio) volume files = .ok info := rfl

/-- A split screen whose sources are there and known is compiled. The sources that have to be probed
have been probed then, and nothing else. -/
theorem compileScreen_outcome (screen : SplitScreen) {primary secondary : SourceInfo}
    {session : Session}
    (hthere : ∀ path ∈ screen.inputPaths, session.files.pathExists path = true)
    (hp : job.sourceKnown screen.primary screen.primaryDuration screen.primaryHasAudio
      screen.primaryVolume session.files = .ok primary)
    (hs : job.sourceKnown screen.secondary screen.secondaryDuration screen.secondaryHasAudio
      screen.secondaryVolume session.files = .ok secondary) :
    ((job.compileScreen screen).outcome session).1 =
        (screen.compile primary secondary).mapError (.map .ofCompile) ∧
      ((job.compileScreen screen).outcome session).2.probed = session.probed ++ screen.probes := by
  unfold compileScreen
  rw [RenderStep.outcome_bind, requireInputs_outcome, inputsThere_eq_ok.mpr hthere]
  dsimp only
  rw [RenderStep.outcome_bind, sourceInfo_outcome, hp]
  dsimp only
  rw [RenderStep.outcome_bind, sourceInfo_outcome, hs]
  dsimp only
  rw [SplitScreen.probes, ← List.append_assoc]
  cases screen.compile primary secondary with
  | error e => exact ⟨rfl, rfl⟩
  | ok program => exact ⟨rfl, rfl⟩

/-- Whether facts on sources are declared or reported makes no difference. A split screen comes to
the program, or the error, that it comes to with the reports written into it, and no source of that
one is probed. Both compile what is declared, and what the reports say of the rest. Of the screen
itself exactly the sources are probed of which a fact is missing, and those of undeclared sound
whose volume is no number. A screen that passes the check or was read from a document has none of
these. -/
theorem compileScreen_declaring (job : RenderJob) (screen : SplitScreen)
    (primary secondary : MediaInfo) (session : Session)
    (hthere : ∀ path ∈ screen.inputPaths, session.files.pathExists path = true)
    (hp : screen.upper.Unknown ∨ screen.upper.Undecided →
      job.prober session.files screen.primary = .ok primary)
    (hs : screen.lower.Unknown ∨ screen.lower.Undecided →
      job.prober session.files screen.secondary = .ok secondary)
    (hprimary : Composition.isPositive primary.duration = true)
    (hsecondary : Composition.isPositive secondary.duration = true) :
    let plain := (job.compileScreen screen).outcome session
    let declared := (job.compileScreen (screen.declaring primary secondary)).outcome session
    plain.1 = declared.1 ∧ declared.2.probed = session.probed ∧
      plain.1 = (screen.compile (screen.upper.known primary)
        (screen.lower.known secondary)).mapError (.map .ofCompile) ∧
      plain.2.probed = session.probed ++ screen.unknownFiles ∧
      ((screen.check = .ok () ∨ ∃ document : Json, document.Valid ∧
          SplitScreen.decode document = .ok screen) →
        ∀ source ∈ [screen.upper, screen.lower], ¬ source.Undecided) := by
  intro plain declared
  obtain ⟨hplain, hprobed⟩ := job.compileScreen_outcome screen hthere
    (sourceKnown_of_report screen.upper hp) (sourceKnown_of_report screen.lower hs)
  obtain ⟨hdeclared, hquiet⟩ := job.compileScreen_outcome (screen.declaring primary secondary)
    hthere (sourceKnown_declared screen.primary (screen.upper.known primary) screen.primaryVolume)
    (sourceKnown_declared screen.secondary (screen.lower.known secondary) screen.secondaryVolume)
  -- Of a muted source the screen itself takes the sound to be absent; nothing depends on that.
  have hsettled := SplitScreen.compile_congr (screen.upper.alike_settledAudio primary)
    (screen.lower.alike_settledAudio secondary)
  rw [hsettled] at hplain
  rw [screen.compile_declaring hprimary hsecondary] at hdeclared
  refine ⟨hplain.trans hdeclared.symm, hquiet.trans (List.append_nil _), hplain, ?_, ?_⟩
  · exact hprobed.trans (congrArg _ screen.probes_eq)
  · rintro (hcheck | ⟨document, hvalid, hread⟩)
    · exact SplitScreen.not_undecided_of_check hcheck
    · have hfinite : screen.Representable := SplitScreen.wire.representable_of_decode hvalid hread
      exact List.forall_mem_cons.mpr
        ⟨DeclaredSource.not_undecided_of_isFinite hfinite.primaryVolume,
          List.forall_mem_singleton.mpr
            (DeclaredSource.not_undecided_of_isFinite hfinite.secondaryVolume)⟩

/-- A job to which every file is reported to last nine seconds, with sound. -/
def nineSeconds : RenderJob where
  config := {}
  engine _ files := ⟨[], .error .cancelled, files⟩
  prober _ _ := .ok ⟨9, 1920, 1080, true⟩
  id := ⟨"1"⟩
  completedAt := ⟨0, 0, 0⟩

/-- A split screen with a muted source of five seconds, and one of which nothing is declared. -/
def mutedUpper : SplitScreen where
  primary := ⟨"a"⟩
  secondary := ⟨"b"⟩
  primaryVolume := 0
  primaryDuration := some 5

/-- Only the source of which nothing is declared is probed. -/
theorem compileScreen_declaring_mutedUpper :
    let session : Session := { files := ⟨[(["a"], .file [] false), (["b"], .file [] false)]⟩ }
    let report : MediaInfo := ⟨9, 1920, 1080, true⟩
    let plain := (nineSeconds.compileScreen mutedUpper).outcome session
    let declared := (nineSeconds.compileScreen (mutedUpper.declaring report report)).outcome session
    plain.1 = declared.1 ∧ declared.2.probed = [] ∧ plain.2.probed = [⟨"b"⟩] := by
  intro session report plain declared
  have ha : session.files.pathExists ⟨"a"⟩ = true := by cbv
  have hb : session.files.pathExists ⟨"b"⟩ = true := by cbv
  have hnine : Composition.isPositive report.duration = true := by decide +kernel
  obtain ⟨hsame, hquiet, -, hprobed, -⟩ := compileScreen_declaring nineSeconds mutedUpper report
    report session (List.forall_mem_cons.mpr ⟨ha, List.forall_mem_singleton.mpr hb⟩)
    (fun _ ↦ rfl) (fun _ ↦ rfl) hnine hnine
  have hunknown : mutedUpper.unknownFiles = [⟨"b"⟩] := by decide +kernel
  rw [hunknown] at hprobed
  exact ⟨hsame, hquiet, hprobed⟩

/-- A split screen of which all is declared but the sound of a source without a volume. -/
def nanUpper : SplitScreen where
  primary := ⟨"a"⟩
  secondary := ⟨"b"⟩
  primaryVolume := .nan
  primaryDuration := some 5
  secondaryDuration := some 5
  secondaryHasAudio := some true

/-- The source whose volume is no number is probed, though its length is declared and its volume is
not above zero. -/
theorem probes_nanUpper :
    let session : Session := { files := ⟨[(["a"], .file [] false), (["b"], .file [] false)]⟩ }
    ((nineSeconds.compileScreen nanUpper).outcome session).2.probed = [nanUpper.upper.path] ∧
      nanUpper.upper.duration ≠ none ∧ ¬ 0 < nanUpper.upper.volume := by
  intro session
  have ha : session.files.pathExists ⟨"a"⟩ = true := by cbv
  have hb : session.files.pathExists ⟨"b"⟩ = true := by cbv
  have hprobes : nanUpper.probes = [nanUpper.upper.path] := by decide +kernel
  obtain ⟨-, hprobed⟩ := nineSeconds.compileScreen_outcome nanUpper
    (List.forall_mem_cons.mpr ⟨ha, List.forall_mem_singleton.mpr hb⟩)
    (sourceKnown_of_report nanUpper.upper fun _ ↦ rfl)
    (sourceKnown_of_report nanUpper.lower fun _ ↦ rfl)
  rw [hprobed, hprobes]
  exact ⟨rfl, Option.some_ne_none _, by decide +kernel⟩

end RenderJob

end Montage
