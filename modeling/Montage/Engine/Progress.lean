import Montage.Timestamp

/-!
# Progress

The engine reports its position as `time=HH:MM:SS.ff` among other diagnostics. The latest report is
turned into a percentage of the total length, and a percentage is reported only if it exceeds all
earlier ones.
-/

namespace Montage.Engine

open Montage.Numeric (Binary64)
open Montage.Text (isBlank isDigit)

/-- A colon and two digits at the start of a text, and what follows. -/
def twoDigits? : List Char → Option (List Char × List Char)
  | ':' :: a :: b :: rest => if isDigit a && isDigit b then some ([':', a, b], rest) else none
  | _ => none

/-- A dot and digits at the start of a text; nothing if no digit follows the dot. -/
def fraction : List Char → List Char
  | '.' :: rest =>
    match rest.takeWhile isDigit with
    | [] => []
    | digits => '.' :: digits
  | _ => []

/-- The timestamp of a marker that starts here (`time_marker`): `time=`, white space, digits, two
groups of two digits, a fraction. -/
def markerHere? (cs : List Char) : Option (List Char) :=
  match cs with
  | 't' :: 'i' :: 'm' :: 'e' :: '=' :: rest =>
    let rest := rest.dropWhile isBlank
    match rest.takeWhile isDigit with
    | [] => none
    | hours => do
      let (minutes, rest) ← twoDigits? (rest.dropWhile isDigit)
      let (seconds, rest) ← twoDigits? rest
      return hours ++ minutes ++ seconds ++ fraction rest
  | _ => none

/-- The timestamp of the last marker in a text. -/
def lastMarker? : List Char → Option (List Char)
  | [] => none
  | c :: rest => lastMarker? rest <|> markerHere? (c :: rest)

/-- The seconds of the last marker in a text, if its digits are those of timestamps
(`latest_time_marker`). -/
def latestTime? (cs : List Char) : Option Binary64 :=
  (lastMarker? cs).bind fun marker => (Timestamp.parse (String.ofList marker)).toOption

/-- The whole percentage of `total` that `seconds` covers, between 0 and 100 (`percent_of`). -/
def percentOf (seconds total : Binary64) : Nat :=
  if total ≤ 0 || !seconds.isFinite then 0
  else ((seconds / total) * 100).toIntWithin 0 100 |>.toNat

/-- The progress of one render (`ProgressTracker`): its length and the last percentage reported. -/
structure Tracker where
  total : Binary64
  last : Option Nat := none

namespace Tracker

/-- Reports a percentage if it exceeds the last one (`ProgressTracker.advance`). -/
def advance (tracker : Tracker) (percent : Nat) : Option Nat × Tracker :=
  if tracker.last.all (· < percent) then (some percent, { tracker with last := some percent })
  else (none, tracker)

/-- The engine has come to a position in seconds (`ProgressTracker.observe_seconds`). -/
def observeSeconds (tracker : Tracker) (seconds : Binary64) : Option Nat × Tracker :=
  tracker.advance (percentOf seconds tracker.total)

/-- The engine has written diagnostics; the latest marker counts
(`ProgressTracker.observe_text`). -/
def observeText (tracker : Tracker) (text : List Char) : Option Nat × Tracker :=
  match latestTime? text with
  | some seconds => tracker.observeSeconds seconds
  | none => (none, tracker)

/-- The render is complete (`ProgressTracker.finish`). -/
def finish (tracker : Tracker) : Option Nat × Tracker := tracker.advance 100

end Tracker

end Montage.Engine
