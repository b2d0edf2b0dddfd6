import Montage.CompileError

/-!
# The timeline

When each clip plays. The clips follow each other without gaps, so the windows are the running sums
of the clip lengths.
-/

namespace Montage

open Montage.Numeric (Binary64)

/-- The time from `start` up to but not including `stop`, in seconds (`ClipWindow`). -/
structure TimeWindow where
  start : Binary64
  stop : Binary64
deriving DecidableEq

def TimeWindow.duration (window : TimeWindow) : Binary64 := window.stop - window.start

/-- The windows of the clips in order (`ClipTimeline`). -/
structure Timeline where
  windows : List TimeWindow
deriving DecidableEq

namespace Timeline

/-- The windows of clips of these lengths, numbered from `index` and beginning at `start`. -/
def windowsFrom (index : Nat) (start : Binary64) :
    List Binary64 → Except CompileError (List TimeWindow)
  | [] => .ok []
  | duration :: rest => do
    if !Composition.isNonNegative duration then throw (.clipDuration index duration)
    let stop := start + duration
    return ⟨start, stop⟩ :: (← windowsFrom (index + 1) stop rest)

/-- The timeline of clips of these lengths, beginning at zero (`ClipTimeline.build`). -/
def ofDurations (durations : List Binary64) : Except CompileError Timeline :=
  Timeline.mk <$> windowsFrom 0 0 durations

def window? (timeline : Timeline) (clip : Nat) : Option TimeWindow := timeline.windows[clip]?

/-- The length of a clip as its window shows it (`ClipTimeline.duration`). -/
def duration? (timeline : Timeline) (clip : Nat) : Option Binary64 :=
  (timeline.window? clip).map (·.duration)

/-- The end of the last window (`ClipTimeline.total_duration`). -/
def totalDuration (timeline : Timeline) : Binary64 :=
  (timeline.windows.getLast?.map (·.stop)).getD 0

def size (timeline : Timeline) : Nat := timeline.windows.length

end Timeline

end Montage
