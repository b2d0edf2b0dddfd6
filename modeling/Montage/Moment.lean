import Montage.Numeric.Decimal
import Montage.Text.Blank

/-!
# Moments

Dates with the time of day in UTC, read from and written as text such as
`2024-05-01T08:20:30.250Z`. Other offsets are read and converted.
-/

namespace Montage

open Montage.Numeric (tenTo zeroPadded)

/-- A moment: the days since 1970-01-01, the second of the day and the nanosecond. A leap second is
a nanosecond of a billion or more. -/
structure Moment where
  day : Int
  second : Nat
  nanosecond : Nat
deriving DecidableEq

namespace Moment

/-- The days since 1970-01-01 of a date of the proleptic Gregorian calendar. Years are counted from
March, so that the leap day ends a year. -/
def dayOfDate (year : Int) (month day : Nat) : Int :=
  let y := if month ≤ 2 then year - 1 else year
  let m : Int := ((month + 9) % 12 : Nat)
  365 * y + y.fdiv 4 - y.fdiv 100 + y.fdiv 400 + (153 * m + 2).fdiv 5 + (day : Int) - 1 - 719468

private def isLeap (year : Int) : Bool :=
  year % 4 == 0 && (year % 100 != 0 || year % 400 == 0)

/-- The number of days in a month. -/
def daysInMonth (year : Int) (month : Nat) : Nat :=
  if month = 2 then (if isLeap year then 29 else 28)
  else if month ∈ [4, 6, 9, 11] then 30
  else 31

/-- The date of a day: year, month and day of the month. -/
def dateOfDay (day : Int) : Int × Nat × Nat :=
  let z := day + 719468
  let era := z.fdiv 146097
  let dayOfEra := z - era * 146097
  let yearOfEra :=
    (dayOfEra - dayOfEra / 1460 + dayOfEra / 36524 - dayOfEra / 146096) / 365
  let dayOfYear := dayOfEra - (365 * yearOfEra + yearOfEra / 4 - yearOfEra / 100)
  let shifted := (5 * dayOfYear + 2) / 153
  let dayOfMonth := (dayOfYear - (153 * shifted + 2) / 5 + 1).toNat
  let month := (if shifted < 10 then shifted + 3 else shifted - 9).toNat
  (yearOfEra + era * 400 + (if month ≤ 2 then 1 else 0), month, dayOfMonth)

private def digitsOf (cs : List Char) : Nat :=
  cs.foldl (fun n c => 10 * n + (c.toNat - '0'.toNat)) 0

/-- One or two digits after white space. -/
private def shortNumber? (cs : List Char) : Option (Nat × List Char) :=
  let cs := Text.trimStartChars cs
  match (cs.take 2).takeWhile Char.isDigit with
  | [] => none
  | digits => some (digitsOf digits, cs.drop digits.length)

private def year? (cs : List Char) : Option (Int × List Char) :=
  let cs := Text.trimStartChars cs
  let plain (limit : Nat) (cs : List Char) : Option (Nat × List Char) :=
    match (cs.take limit).takeWhile Char.isDigit with
    | [] => none
    | digits => some (digitsOf digits, cs.drop digits.length)
  match cs with
  | '-' :: rest => (plain rest.length rest).map fun (n, rest) => (-(n : Int), rest)
  | '+' :: rest => (plain rest.length rest).map fun (n, rest) => ((n : Int), rest)
  | cs => (plain 4 cs).map fun (n, rest) => ((n : Int), rest)

private def mark? (mark : Char) (cs : List Char) : Option (List Char) :=
  match Text.trimStartChars cs with
  | c :: rest => if c = mark then some rest else none
  | [] => none

/-- A fraction of a second in nanoseconds; digits after the ninth are dropped. -/
private def fraction? (cs : List Char) : Option (Nat × List Char) :=
  match cs with
  | '.' :: rest =>
    match rest.takeWhile Char.isDigit with
    | [] => none
    | digits =>
      let kept := digits.take 9
      some (digitsOf kept * tenTo (9 - kept.length), rest.dropWhile Char.isDigit)
  | cs => some (0, cs)

/-- An offset from UTC in seconds: `Z`, `UTC`, or a sign with hours and minutes. -/
private def offset? (cs : List Char) : Option (Int × List Char) :=
  if (cs.take 3).map Char.toLower = ['u', 't', 'c'] then some (0, cs.drop 3)
  else match cs with
  | 'Z' :: rest | 'z' :: rest => some (0, rest)
  | sign :: a :: b :: rest =>
    if (sign = '+' ∨ sign = '-' ∨ sign = '\u2212') ∧ a.isDigit ∧ b.isDigit then
      let rest := rest.dropWhile fun c => c = ':' || Text.isBlank c
      match rest with
      | c :: d :: rest =>
        if c.isDigit ∧ d.isDigit ∧ digitsOf [c, d] < 60 then
          let seconds : Int := (digitsOf [a, b] * 3600 + digitsOf [c, d] * 60 : Nat)
          some (if sign = '+' then seconds else -seconds, rest)
        else none
      | _ => none
    else none
  | _ => none

/-- The years that dates may have. -/
private def isYear (year : Int) : Bool := -262143 ≤ year && year ≤ 262142

/-- The moment of a date, a time of day and an offset from UTC in seconds, if they are possible and
the date in UTC is as well. -/
private def ofParts? (year : Int) (month day hour minute second nano : Nat) (offset : Int) :
    Option Moment :=
  if !isYear year ∨ month < 1 ∨ 12 < month ∨ day < 1 ∨ daysInMonth year month < day ∨ 23 < hour ∨
      59 < minute ∨ 60 < second ∨ 86400 ≤ offset.natAbs then none
  else
    let leap := second = 60
    let ofDay := hour * 3600 + minute * 60 + (if leap then 59 else second)
    let utc := dayOfDate year month day * 86400 + (ofDay : Int) - offset
    let day := utc.fdiv 86400
    if !isYear (dateOfDay day).1 then none
    else some ⟨day, (utc.fmod 86400).toNat, if leap then nano + 1000000000 else nano⟩

/-- Reads a moment. -/
def parse? (text : String) : Option Moment := do
  let (year, cs) ← year? text.toList
  let cs ← mark? '-' cs
  let (month, cs) ← shortNumber? cs
  let cs ← mark? '-' cs
  let (day, cs) ← shortNumber? cs
  let cs ← match cs with
    | 'T' :: rest | 't' :: rest | ' ' :: rest => some rest
    | _ => none
  let (hour, cs) ← shortNumber? cs
  let cs ← mark? ':' cs
  let (minute, cs) ← shortNumber? cs
  let cs ← mark? ':' cs
  let (second, cs) ← shortNumber? cs
  let (nano, cs) ← fraction? cs
  let (offset, cs) ← offset? (Text.trimStartChars cs)
  if !(Text.trimStartChars cs).isEmpty then none
  ofParts? year month day hour minute second nano offset

private def two (n : Nat) : String := zeroPadded 2 (toString n)

private def yearText (year : Int) : String :=
  if 0 ≤ year ∧ year ≤ 9999 then zeroPadded 4 (toString year)
  else (if year < 0 then "-" else "+") ++ zeroPadded 4 (toString year.natAbs)

private def fractionText (nano : Nat) : String :=
  let nano := nano % 1000000000
  if nano = 0 then ""
  else if nano % 1000000 = 0 then "." ++ zeroPadded 3 (toString (nano / 1000000))
  else if nano % 1000 = 0 then "." ++ zeroPadded 6 (toString (nano / 1000))
  else "." ++ zeroPadded 9 (toString nano)

/-- The text of a moment in UTC, with as many groups of three decimals as it needs. -/
def text (moment : Moment) : String :=
  let (year, month, day) := dateOfDay moment.day
  let second := moment.second % 60 + moment.nanosecond / 1000000000
  yearText year ++ "-" ++ two month ++ "-" ++ two day ++ "T" ++ two (moment.second / 3600) ++ ":" ++
    two (moment.second / 60 % 60) ++ ":" ++ two second ++ fractionText moment.nanosecond ++ "Z"

end Moment

end Montage
