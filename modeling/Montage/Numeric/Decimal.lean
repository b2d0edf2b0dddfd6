import Montage.Numeric.Binary64

/-!
# Doubles as decimal text

Three ways of writing a double: with a fixed number of places, compactly with at most three
places, and with the fewest digits that read back to the same double. All work in exact integers
on the units of the double. Where the point and the exponent go is stated by a `Layout`.
-/

namespace Montage.Numeric

/-- A text with at least `width` characters, filled on the left with zeros. -/
def zeroPadded (width : Nat) (text : String) : String :=
  String.ofList (List.replicate (width - text.length) '0') ++ text

/-- The number `digits * 10 ^ exponent`. -/
structure Decimal where
  digits : Nat
  exponent : Int
deriving DecidableEq

/-- Which of two equally near numerals is written for a double. -/
inductive Tie where
  | greater
  | even
deriving DecidableEq

/-- Where a number is written positionally and where with an exponent, by the position of its point
counted from the first digit (no bound means positional), how a whole number ends, and which of two
equally near numerals is written. -/
structure Layout where
  lowestPoint : Option Int
  highestPoint : Option Int
  wholeEnd : String
  tie : Tie

namespace Layout

/-- Numbers in messages: always positional, whole numbers without a point. -/
def plain : Layout := ⟨none, none, "", .greater⟩

/-- Numbers in documents: an exponent below `1e-5` and from `1e16` on, whole numbers end in `.0`. -/
def document : Layout := ⟨some (-4), some 16, ".0", .even⟩

private def zeros (n : Int) : String := String.ofList (List.replicate n.toNat '0')

private def positional (layout : Layout) (digits : List Char) (point : Int) : String :=
  if point ≤ 0 then "0." ++ zeros (-point) ++ String.ofList digits
  else if (digits.length : Int) ≤ point then
    String.ofList digits ++ zeros (point - digits.length) ++ layout.wholeEnd
  else String.ofList (digits.take point.toNat) ++ "." ++ String.ofList (digits.drop point.toNat)

private def scientific (digits : List Char) (point : Int) : String :=
  let fraction := digits.drop 1
  String.ofList (digits.take 1) ++ (if fraction.isEmpty then "" else "." ++ String.ofList fraction)
    ++ "e" ++ toString (point - 1)

/-- The text of a nonnegative decimal number. -/
def write (layout : Layout) (d : Decimal) : String :=
  if d.digits = 0 then "0" ++ layout.wholeEnd
  else
    let digits := Nat.toDigits 10 d.digits
    let point := digits.length + d.exponent
    let tooLow := layout.lowestPoint.any (fun bound => point < bound)
    let tooHigh := layout.highestPoint.any (fun bound => bound < point)
    if tooLow || tooHigh then scientific digits point else layout.positional digits point

end Layout

namespace Binary64

/-- The position of the decimal point of a positive number of units: the least `e` with the number
below `10 ^ e`. -/
def decimalPoint (units : Nat) : Int :=
  ((Nat.toDigits 10 (units * tenTo 350 / unitsPerOne)).length : Int) - 350

/-- The multiple of `10 ^ exponent` nearest to the double at `place` among the two around it, if one
of them reads back to that double; of two equally near ones the one that `tie` names. A text reads
back if it lies between the midpoints to the neighbouring doubles, or on one when the place is
even. -/
def onGrid? (tie : Tie) (place : Nat) (exponent : Int) : Option Decimal :=
  let above := if 0 ≤ exponent then tenTo exponent.toNat else 1
  let below := if 0 ≤ exponent then 1 else tenTo (-exponent).toNat
  let step := 2 * unitsPerOne * above
  let value := 2 * unitsAt place * below
  let low := (unitsAt (place - 1) + unitsAt place) * below
  let high := (unitsAt place + unitsAt (place + 1)) * below
  let inside (n : Nat) : Bool :=
    if place % 2 = 0 then low ≤ n * step && n * step ≤ high else low < n * step && n * step < high
  let down := value / step
  let up := down + 1
  let tieDown := tie = .even && down % 2 = 0
  let downNearer := value - down * step < up * step - value ||
    (tieDown && value - down * step = up * step - value)
  if inside down && (!inside up || downNearer) then some ⟨down, exponent⟩
  else if inside up then some ⟨up, exponent⟩
  else none

private def dropZeros : Nat → Decimal → Decimal
  | 0, d => d
  | fuel + 1, d =>
    if d.digits % 10 = 0 then dropZeros fuel ⟨d.digits / 10, d.exponent + 1⟩ else d

/-- The decimal number with the fewest digits that reads back to the double at a finite place, and
of those the nearest to it. Seventeen digits always suffice. -/
def shortest (tie : Tie) (place : Nat) : Decimal :=
  if place = 0 then ⟨0, 0⟩
  else
    let point := decimalPoint (unitsAt place)
    let found := (List.range 17).findSome? fun (n : Nat) => onGrid? tie place (point - (n + 1))
    match found with
    | some d => dropZeros 17 d
    | none => ⟨0, 0⟩

def signText (negative : Bool) : String := if negative then "-" else ""

/-- The fewest digits that read back, laid out as `layout` says. Zeros keep their sign. -/
def write (layout : Layout) : Binary64 → String
  | nan => "NaN"
  | signed negative place =>
    signText negative ++
      if place.val = infinitePlace then "inf" else layout.write (shortest layout.tie place.val)

/-- The text of a double in messages. -/
def toText (x : Binary64) : String := x.write .plain

/-- The multiple of `10 ^ -places` nearest to the absolute value at a place, ties to even. -/
def scaledAt (places place : Nat) : Nat :=
  roundHalfEven (unitsAt place * tenTo places) unitsPerOne

def fixedDigits (places scaled : Nat) : String :=
  toString (scaled / tenTo places) ++ "." ++ zeroPadded places (toString (scaled % tenTo places))

/-- A double with a positive number of decimal places. The sign is kept, also before a zero. -/
def fixed (places : Nat) : Binary64 → String
  | nan => "NaN"
  | signed negative place =>
    signText negative ++
      if place.val = infinitePlace then "inf" else fixedDigits places (scaledAt places place.val)

/-- The nearest multiple of a thousandth to a finite double, in thousandths. -/
def thousandths : Binary64 → Int
  | nan => 0
  | signed negative place =>
    if negative then -(scaledAt 3 place.val : Int) else (scaledAt 3 place.val : Int)

end Binary64

def fractionText (thousandths : Nat) : String :=
  if thousandths = 0 then ""
  else if thousandths % 100 = 0 then "." ++ toString (thousandths / 100)
  else if thousandths % 10 = 0 then "." ++ zeroPadded 2 (toString (thousandths / 10))
  else "." ++ zeroPadded 3 (toString thousandths)

/-- The shortest numeral of a number of thousandths: no superfluous zeros, no negative zero. -/
def thousandthsText (n : Int) : String :=
  (if n < 0 then "-" else "") ++ toString (n.natAbs / 1000) ++ fractionText (n.natAbs % 1000)

/-- A number in a filter graph: rounded to at most three decimals, without superfluous zeros. -/
def num (x : Binary64) : String :=
  if x.isFinite then thousandthsText x.thousandths else x.toText

end Montage.Numeric
