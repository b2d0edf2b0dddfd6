import Montage.Graph.Builder

/-!
# Soundtracks

A composition is silent or carries background music over its whole length; the sound of its clips
is dropped. A split screen mixes, passes on or drops the sound of its sources by their volumes.
-/

namespace Montage.Soundtrack

open Montage.Numeric (Binary64 num)
open Montage.Graph

/-- The longest fade of music in seconds (`MUSIC_FADE_SECS`). -/
def fadeLength : Binary64 := 2

/-- The music as an input file: repeated without end, so that a short track covers the whole
composition. -/
def musicInput (music : Music) : InputFile := ⟨music.source, ["-stream_loop", "-1"]⟩

def volume (level : Binary64) : Filter := ⟨"volume", [pos (num level)]⟩

def fadeIn (music : Music) : List Filter :=
  if music.fadeIn then
    [⟨"afade", [opt "t" "in", opt "st" "0", opt "d" (num fadeLength)]⟩]
  else []

def fadeOut (music : Music) (total : Binary64) : List Filter :=
  let length := fadeLength.min total
  if music.fadeOut then
    [⟨"afade", [opt "t" "out", opt "st" (num ((total - length).max 0)), opt "d" (num length)]⟩]
  else []

/-- The chain that fits the music, input file `input`, to a composition of this length. -/
def musicStage (settings : Music) (input : Nat) (total : Binary64) (output : Label) : Stage :=
  .chain (.ofAudio input)
    ([volume settings.volume] ++ fadeIn settings ++ fadeOut settings total ++
      [⟨"atrim", [opt "duration" (num total)]⟩, ⟨"asetpts", [pos "PTS-STARTPTS"]⟩])
    output

/-- Turns the music, input file `input`, into the soundtrack of a composition (`build_music`). -/
def music (settings : Music) (input : Nat) (total : Binary64) : Builder Fragment := do
  let output ← named .audioOut
  return .single (musicStage settings input total output) output

/-- The sound of a source of a split screen. -/
structure SourceAudio where
  volume : Binary64
  hasAudio : Bool
deriving DecidableEq

/-- Whether a source is heard (`SourceAudio.audible`). -/
def SourceAudio.isAudible (source : SourceAudio) : Bool := source.hasAudio && 0 < source.volume

/-- Which sources are heard (`DualAudioMode`). -/
inductive Mix where
  | silent
  | single (source : Nat)
  | both
deriving DecidableEq

/-- Which of two sources are heard (`DualAudioMode.select`). -/
def Mix.of (primary secondary : SourceAudio) : Mix :=
  match primary.isAudible, secondary.isAudible with
  | true, true => both
  | true, false => single 0
  | false, true => single 1
  | false, false => silent

def voice (input : Nat) (source : SourceAudio) (output : Label) : Stage :=
  .chain (.ofAudio input) [volume source.volume] output

/-- The stages that mix the sound of both sources. -/
def mixStages (primary secondary : SourceAudio) (first second output : Label) : List Stage :=
  [voice 0 primary first, voice 1 secondary second,
   ⟨[first, second],
    [⟨"amix", [opt "inputs" "2", opt "duration" "shortest", opt "dropout_transition" "0"]⟩],
    [output]⟩]

/-- Makes the soundtrack of a split screen from inputs 0 and 1 (`build_dual_audio`). -/
def splitScreen (primary secondary : SourceAudio) : Builder (Option Fragment) :=
  match Mix.of primary secondary with
  | .silent => return none
  | .single source => do
    let output ← named .audioOut
    let chosen := if source = 0 then primary else secondary
    return some (.single (voice source chosen output) output)
  | .both => do
    let first ← numbered .voice 0
    let second ← numbered .voice 1
    let output ← named .audioOut
    return some ⟨mixStages primary secondary first second output, output⟩

end Montage.Soundtrack
