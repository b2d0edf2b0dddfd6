import Mathlib.Control.Monad.Basic
import Mathlib.Logic.Basic
import Montage.Probe

/-!
# The length of a probed file

A report gives up to two texts for the length of a file, that of the container and that of the
first video stream. The reader picks the first text that is there and only then reads it, so a text
that is no number hides the other one.
-/

namespace Montage.Probe

open Montage.Numeric (Binary64 numeral?)
open Montage.Json (Document)

/-- What a text reads as, if it is there and a numeral. -/
def reading? (text : Option String) : Option Binary64 := text.bind fun text ↦ numeral? text.toList

/-- The first number among the readings of two texts, or zero. -/
def firstNumber (counts : Binary64 → Bool) (container stream : Option String) : Binary64 :=
  ((reading? container).filter counts <|> (reading? stream).filter counts).getD 0

/-- The text that is picked does not read as a number, and the stream's text gives another length
than it does. -/
def Hides (counts : Binary64 → Bool) (container stream : Option String) : Prop :=
  (reading? (container <|> stream)).any counts = false ∧
    (reading? (container <|> stream)).getD 0 ≠ ((reading? stream).filter counts).getD 0

/-- The number of the picked text comes first. Without one the stream decides. -/
private theorem firstNumber_eq (counts : Binary64 → Bool) (container stream : Option String) :
    firstNumber counts container stream =
      if (reading? (container <|> stream)).any counts then (reading? (container <|> stream)).getD 0
      else ((reading? stream).filter counts).getD 0 := by
  have hfilter : ∀ reading : Option Binary64,
      reading.filter counts = if reading.any counts then reading else none := by
    rintro (_ | x)
    · rfl
    · rw [Option.filter_some, Option.any_some]
  unfold firstNumber
  cases container with
  | none =>
    change ((reading? stream).filter counts).getD 0 =
      if (reading? stream).any counts then (reading? stream).getD 0 else _
    rw [hfilter]
    split <;> rfl
  | some text =>
    change _ = if (reading? (some text)).any counts then (reading? (some text)).getD 0 else _
    rw [hfilter (reading? (some text))]
    cases reading? (some text) with
    | none => rfl
    | some x =>
      rw [Option.any_some]
      split <;> rfl

private theorem getD_reading_eq_iff (counts : Binary64 → Bool) (container stream : Option String) :
    (reading? (container <|> stream)).getD 0 = firstNumber counts container stream ↔
      ¬ Hides counts container stream := by
  rw [firstNumber_eq, Hides, not_and, ne_eq, not_not]
  split
  · next h => exact ⟨fun _ hnot ↦ absurd h (by rw [hnot]; exact Bool.false_ne_true), fun _ ↦ rfl⟩
  · next h => exact ⟨fun heq _ ↦ heq, fun heq ↦ heq (Bool.eq_false_iff.mpr h)⟩

/-- Whichever doubles count as numbers, the length of a probed file is the first number among the
texts of the container and of the first video stream, unless the first text hides the second. -/
theorem ofOutput_duration_iff {stdout : List UInt8} {report : Report} {video : ProbedStream}
    (hdecode : (Document.ofBytes ⟨stdout.toArray⟩).decode Report.decode = .ok report)
    (hvideo : report.streams.find? (·.codecType == "video") = some video) :
    ∃ info, ofOutput stdout = .ok info ∧
      info.duration = (reading? (report.containerDuration <|> video.duration)).getD 0 ∧
      ∀ counts, info.duration = firstNumber counts report.containerDuration video.duration ↔
        ¬ Hides counts report.containerDuration video.duration := by
  have hinfo : report.info? = some
      { duration := (reading? (report.containerDuration <|> video.duration)).getD 0
        width := video.width.getD 0
        height := video.height.getD 0
        hasAudio := report.streams.any (·.codecType == "audio") } := by
    rw [Report.info?, hvideo]
    rfl
  have hread : ofOutput stdout = report.info?.elim
      (.error (.invalidComposition "No video stream found")) .ok := by
    rw [ofOutput, hdecode]
    cases hcase : report.info? <;> simp only [Except.mapError, bind, Except.bind, hcase] <;> rfl
  rw [hinfo] at hread
  exact ⟨_, hread, rfl, fun counts ↦ getD_reading_eq_iff counts _ _⟩

/-- A prober's output for a file with one stream, a video of three and a half seconds. -/
def shortVideo (container : String) : List UInt8 :=
  ("\x7b\"format\":\x7b\"duration\":\"" ++ container ++ "\"\x7d,\"streams\":[" ++
    "\x7b\"codec_type\":\"video\",\"duration\":\"3.5\"\x7d]\x7d").toUTF8.toList

theorem ofOutput_duration_iff_shortVideo :
    ((Document.ofBytes ⟨(shortVideo "4.25").toArray⟩).decode Report.decode =
        .ok ⟨some "4.25", [⟨"video", none, none, some "3.5"⟩]⟩ ∧
      [(⟨"video", none, none, some "3.5"⟩ : ProbedStream)].find? (·.codecType == "video") =
        some ⟨"video", none, none, some "3.5"⟩) ∧
    ∃ info, ofOutput (shortVideo "4.25") = .ok info ∧ info.duration = 4.25 ∧
      ∀ counts, info.duration = firstNumber counts (some "4.25") (some "3.5") ↔
        ¬ Hides counts (some "4.25") (some "3.5") := by
  have hdecode : (Document.ofBytes ⟨(shortVideo "4.25").toArray⟩).decode Report.decode =
      .ok ⟨some "4.25", [⟨"video", none, none, some "3.5"⟩]⟩ := by decide +kernel
  obtain ⟨info, hread, hduration, hiff⟩ := ofOutput_duration_iff hdecode rfl
  refine ⟨⟨hdecode, rfl⟩, info, hread, hduration.trans ?_, hiff⟩
  decide +kernel

/-- A container's text that is no number hides the length of the stream. -/
theorem ofOutput_duration_unmeasured :
    (Document.ofBytes ⟨(shortVideo "N/A").toArray⟩).decode Report.decode =
        .ok ⟨some "N/A", [⟨"video", none, none, some "3.5"⟩]⟩ ∧
      ofOutput (shortVideo "N/A") = .ok ⟨0, 0, 0, false⟩ ∧
      firstNumber Binary64.isFinite (some "N/A") (some "3.5") = 3.5 := by
  have hdecode : (Document.ofBytes ⟨(shortVideo "N/A").toArray⟩).decode Report.decode =
      .ok ⟨some "N/A", [⟨"video", none, none, some "3.5"⟩]⟩ := by decide +kernel
  refine ⟨hdecode, ?_, by decide +kernel⟩
  rw [ofOutput, hdecode]
  exact congrArg Except.ok (by decide +kernel)

end Montage.Probe
