import Montage.Numeric.Power
import Montage.Numeric.Rounding

/-!
# Double-precision numbers

Seconds, volumes and percentages are doubles. A double is kept as its sign and its place among
the nonnegative doubles in increasing order, so that comparing doubles compares places. Every
finite double is a whole number of units of `2 ^ -1074`; each operation computes its exact result
in units and rounds once, to nearest and ties to even.
-/

namespace Montage.Numeric

/-- The place of infinity among the absolute values, after every finite one. -/
def infinitePlace : Nat := 2047 * twoTo 52

/-- A double: not a number, or a sign and the place of its absolute value. -/
inductive Binary64 where
  | nan
  | signed (negative : Bool) (place : Fin (infinitePlace + 1))
deriving DecidableEq

namespace Binary64

/-- The number of units in one: `2 ^ 1074`. -/
def unitsPerOne : Nat := twoTo 1074

/-- The absolute value at a finite place, in units. -/
def unitsAt (place : Nat) : Nat :=
  if place < twoTo 53 then place
  else (twoTo 52 + place % twoTo 52) * twoTo (place / twoTo 52 - 1)

/-- The place of the double nearest to `num / den` units; infinity from the overflow threshold. -/
def nearestPlace (num den : Nat) : Fin (infinitePlace + 1) :=
  let shift := (num / den).log2 - 52
  let place := shift * twoTo 52 + roundHalfEven num (den * twoTo shift)
  ⟨min place infinitePlace, by omega⟩

/-- The double nearest to `num / den` with the given sign. -/
def ofRatio (negative : Bool) (num den : Nat) : Binary64 :=
  signed negative (nearestPlace (num * unitsPerOne) den)

/-- The double nearest to a whole number of units. -/
def ofUnits (units : Int) : Binary64 :=
  signed (units < 0) (nearestPlace units.natAbs 1)

/-- The double nearest to an integer. -/
def ofInt (n : Int) : Binary64 := ofRatio (n < 0) n.natAbs 1

/-- The double nearest to a natural number. -/
def ofNat (n : Nat) : Binary64 := ofRatio false n 1

/-- The double nearest to `digits * 10 ^ exponent`. Exponents far outside the range of doubles
are settled without building the power. -/
def ofDecimal (negative : Bool) (digits : Nat) (exponent : Int) : Binary64 :=
  if digits = 0 then signed negative 0
  else if 400 < exponent then signed negative (Fin.last _)
  else if exponent < -400 - (digits.log2 : Int) then signed negative 0
  else if 0 ≤ exponent then ofRatio negative (digits * tenTo exponent.toNat) 1
  else ofRatio negative digits (tenTo (-exponent).toNat)

instance (n : Nat) : OfNat Binary64 n := ⟨ofNat n⟩

instance : OfScientific Binary64 :=
  ⟨fun digits down exponent =>
    ofDecimal false digits (if down then -(exponent : Int) else exponent)⟩

instance : Inhabited Binary64 := ⟨0⟩

/-- Positive or negative infinity. -/
def infinity (negative : Bool) : Binary64 := signed negative (Fin.last _)

/-- Negative zero, the neutral element of addition for every double. -/
def negativeZero : Binary64 := signed true 0

def isNaN : Binary64 → Bool
  | nan => true
  | signed .. => false

def isFinite : Binary64 → Bool
  | nan => false
  | signed _ place => place.val < infinitePlace

/-- Whether the sign is negative; zeros have a sign as well. -/
def isNegative : Binary64 → Bool
  | nan => false
  | signed negative _ => negative

/-- The exact value of a finite double in units. -/
def units : Binary64 → Int
  | nan => 0
  | signed negative place =>
    if negative then -(unitsAt place.val : Int) else (unitsAt place.val : Int)

/-- The place with its sign: the order of the doubles that are numbers. Both zeros have place 0. -/
def signedPlace? : Binary64 → Option Int
  | nan => none
  | signed negative place => some (if negative then -(place.val : Int) else (place.val : Int))

/-- `x < y` as numbers; not-a-number is below nothing. -/
def lt (x y : Binary64) : Bool :=
  match x.signedPlace?, y.signedPlace? with
  | some a, some b => a < b
  | _, _ => false

/-- `x ≤ y` as numbers; not-a-number is below nothing. -/
def le (x y : Binary64) : Bool :=
  match x.signedPlace?, y.signedPlace? with
  | some a, some b => a ≤ b
  | _, _ => false

instance : LT Binary64 := ⟨fun x y => x.lt y = true⟩
instance : LE Binary64 := ⟨fun x y => x.le y = true⟩
instance (x y : Binary64) : Decidable (x < y) := inferInstanceAs (Decidable (x.lt y = true))
instance (x y : Binary64) : Decidable (x ≤ y) := inferInstanceAs (Decidable (x.le y = true))

/-- Equality as numbers: the zeros are equal, not-a-number equals nothing. -/
def same (x y : Binary64) : Bool := x ≤ y && y ≤ x

def neg : Binary64 → Binary64
  | nan => nan
  | signed negative place => signed (!negative) place

def abs : Binary64 → Binary64
  | nan => nan
  | signed _ place => signed false place

/-- The double nearest to the exact sum. A zero sum is negative only if both operands are. -/
def add (x y : Binary64) : Binary64 :=
  match x, y with
  | nan, _ => nan
  | _, nan => nan
  | signed s a, signed t b =>
    if a.val = infinitePlace then
      if b.val = infinitePlace ∧ s ≠ t then nan else signed s a
    else if b.val = infinitePlace then signed t b
    else
      let sum := (signed s a).units + (signed t b).units
      if sum = 0 then signed (s && t) 0 else ofUnits sum

def sub (x y : Binary64) : Binary64 := x.add y.neg

/-- The double nearest to the exact product. -/
def mul (x y : Binary64) : Binary64 :=
  match x, y with
  | nan, _ => nan
  | _, nan => nan
  | signed s a, signed t b =>
    if a.val = infinitePlace ∨ b.val = infinitePlace then
      if a.val = 0 ∨ b.val = 0 then nan else infinity (s != t)
    else signed (s != t) (nearestPlace (unitsAt a.val * unitsAt b.val) unitsPerOne)

/-- The double nearest to the exact quotient; a number over zero is infinite. -/
def div (x y : Binary64) : Binary64 :=
  match x, y with
  | nan, _ => nan
  | _, nan => nan
  | signed s a, signed t b =>
    if a.val = infinitePlace then
      if b.val = infinitePlace then nan else infinity (s != t)
    else if b.val = infinitePlace then signed (s != t) 0
    else if b.val = 0 then
      if a.val = 0 then nan else infinity (s != t)
    else ofRatio (s != t) (unitsAt a.val) (unitsAt b.val)

/-- The remainder of the division truncated toward zero, with the sign of `x`. -/
def rem (x y : Binary64) : Binary64 :=
  match x, y with
  | nan, _ => nan
  | _, nan => nan
  | signed s a, signed _ b =>
    if a.val = infinitePlace ∨ b.val = 0 then nan
    else if b.val = infinitePlace then signed s a
    else signed s (nearestPlace (unitsAt a.val % unitsAt b.val) 1)

instance : Neg Binary64 := ⟨neg⟩
instance : Add Binary64 := ⟨add⟩
instance : Sub Binary64 := ⟨sub⟩
instance : Mul Binary64 := ⟨mul⟩
instance : Div Binary64 := ⟨div⟩
instance : Mod Binary64 := ⟨rem⟩

/-- The greatest integer not above a finite double. -/
def floorInt (x : Binary64) : Int := x.units.fdiv unitsPerOne

/-- The double at the greatest integer not above `x`; zeros and infinities are kept. -/
def floor (x : Binary64) : Binary64 :=
  match x with
  | nan => nan
  | signed s a =>
    if a.val = infinitePlace ∨ a.val = 0 then signed s a
    else ofRatio s (signed s a).floorInt.natAbs 1

/-- Whether a double is a whole number; infinities are not. -/
def isWhole (x : Binary64) : Bool := x.isFinite && x.units % unitsPerOne == 0

/-- The integer part, brought into `[low, high]`; not-a-number gives 0. -/
def toIntWithin (low high : Int) : Binary64 → Int
  | nan => 0
  | signed negative place =>
    if place.val = infinitePlace then (if negative then low else high)
    else max low (min high ((signed negative place).units.tdiv unitsPerOne))

/-- The smaller of two doubles, the second of two equal ones (such as the two zeros); a number wins
over not-a-number. -/
protected def min (x y : Binary64) : Binary64 :=
  if x.isNaN then y else if y.isNaN then x else if x < y then x else y

/-- The greater of two doubles, the second of two equal ones (such as the two zeros); a number wins
over not-a-number. -/
protected def max (x y : Binary64) : Binary64 :=
  if x.isNaN then y else if y.isNaN then x else if y < x then x else y

/-- The sum of a list from left to right. -/
def sum (xs : List Binary64) : Binary64 := xs.foldl (· + ·) negativeZero

/-- Adding two doubles in either order gives the same double. -/
theorem add_comm (x y : Binary64) : x.add y = y.add x := by
  cases x with
  | nan => cases y <;> rfl
  | signed s a =>
    cases y with
    | nan => rfl
    | signed t b =>
      simp only [add, Int.add_comm (units (signed t b))]
      by_cases ha : a.val = infinitePlace <;> by_cases hb : b.val = infinitePlace
      · have hab : a = b := Fin.ext (ha.trans hb.symm)
        subst hab
        by_cases hst : s = t
        · subst hst; rfl
        · simp [ha, hst, Ne.symm hst]
      · simp [ha, hb]
      · simp [ha, hb]
      · simp [ha, hb, Bool.and_comm]

end Binary64

end Montage.Numeric
