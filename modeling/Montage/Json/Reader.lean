import Montage.Json.Basic

/-!
# Reading JSON text

The reader works on bytes with an explicit stack of open containers, so that any nesting depth is
read. Text that breaks the grammar closes every open container as incomplete.
-/

namespace Montage.Json

open Montage.Numeric (Binary64 twoTo)

private def skipSpace : List UInt8 → List UInt8
  | 0x20 :: rest | 0x09 :: rest | 0x0A :: rest | 0x0D :: rest => skipSpace rest
  | bytes => bytes

private def isDigitByte (b : UInt8) : Bool := 0x30 ≤ b && b ≤ 0x39

private def digitsValue (digits : List UInt8) : Nat :=
  digits.foldl (fun n b => 10 * n + (b.toNat - 0x30)) 0

private def hexValue? (b : UInt8) : Option Nat :=
  if isDigitByte b then some (b.toNat - 0x30)
  else if 0x41 ≤ b && b ≤ 0x46 then some (b.toNat - 0x37)
  else if 0x61 ≤ b && b ≤ 0x66 then some (b.toNat - 0x57)
  else none

private def hexQuad? (a b c d : UInt8) : Option Nat := do
  let a ← hexValue? a
  let b ← hexValue? b
  let c ← hexValue? c
  let d ← hexValue? d
  return ((a * 16 + b) * 16 + c) * 16 + d

private def escapedByte? : UInt8 → Option UInt8
  | 0x22 => some 0x22
  | 0x5C => some 0x5C
  | 0x2F => some 0x2F
  | 0x62 => some 0x08
  | 0x66 => some 0x0C
  | 0x6E => some 0x0A
  | 0x72 => some 0x0D
  | 0x74 => some 0x09
  | _ => none

/-- A string being read: its bytes so far, a high surrogate that waits for its partner, and whether
the string can still be a text. -/
private structure Draft where
  bytes : ByteArray
  high? : Option Nat
  sound : Bool

namespace Draft

private def push (d : Draft) (b : UInt8) : Draft :=
  ⟨d.bytes.push b, none, d.sound && d.high?.isNone⟩

private def pushUnit (d : Draft) (unit : Nat) : Draft :=
  if 0xD800 ≤ unit ∧ unit < 0xDC00 then ⟨d.bytes, some unit, d.sound && d.high?.isNone⟩
  else if 0xDC00 ≤ unit ∧ unit < 0xE000 then
    match d.high? with
    | some high =>
      let scalar := 0x10000 + (high - 0xD800) * 0x400 + (unit - 0xDC00)
      ⟨d.bytes ++ (String.singleton (Char.ofNat scalar)).toUTF8, none, d.sound⟩
    | none => ⟨d.bytes, none, false⟩
  else
    ⟨d.bytes ++ (String.singleton (Char.ofNat unit)).toUTF8, none, d.sound && d.high?.isNone⟩

private def text? (d : Draft) : Option String :=
  if d.sound && d.high?.isNone then String.fromUTF8? d.bytes else none

end Draft

/-- Reads a string after its opening quote: its text, if it is one, and what follows. -/
private def readString (d : Draft) : List UInt8 → Option (Option String × List UInt8)
  | [] => none
  | 0x22 :: rest => some (d.text?, rest)
  | 0x5C :: 0x75 :: w :: x :: y :: z :: rest =>
    match hexQuad? w x y z with
    | some unit => readString (d.pushUnit unit) rest
    | none => none
  | 0x5C :: c :: rest =>
    match escapedByte? c with
    | some b => readString (d.push b) rest
    | none => none
  | b :: rest => if b < 0x20 || b == 0x5C then none else readString (d.push b) rest

/-- Numbers without fraction and exponent are integers while they fit 64 bits. A negative zero is a
double. -/
private def number (negative whole : Bool) (digits : Nat) (exponent : Int) : Json :=
  if whole && !negative && digits < twoTo 64 then .integer digits
  else if whole && negative && 0 < digits && digits ≤ twoTo 63 then .integer (-digits)
  else
    let value := Binary64.ofDecimal negative digits exponent
    if value.isFinite then .real value else .huge

private def readExponent (bytes : List UInt8) : Option (Option Int × List UInt8) :=
  match bytes with
  | 0x65 :: rest | 0x45 :: rest =>
    let (negative, rest) := match rest with
      | 0x2D :: rest => (true, rest)
      | 0x2B :: rest => (false, rest)
      | rest => (false, rest)
    match rest.takeWhile isDigitByte with
    | [] => none
    | digits =>
      let value : Int := digitsValue digits
      some (some (if negative then -value else value), rest.dropWhile isDigitByte)
  | rest => some (none, rest)

private def readFraction (bytes : List UInt8) : Option (List UInt8 × List UInt8) :=
  match bytes with
  | 0x2E :: rest =>
    match rest.takeWhile isDigitByte with
    | [] => none
    | digits => some (digits, rest.dropWhile isDigitByte)
  | rest => some ([], rest)

private def readWhole (bytes : List UInt8) : Option (List UInt8 × List UInt8) :=
  match bytes.takeWhile isDigitByte with
  | [] => none
  | 0x30 :: _ :: _ => none
  | digits => some (digits, bytes.dropWhile isDigitByte)

private def readNumber (negative : Bool) (bytes : List UInt8) : Option (Json × List UInt8) := do
  let (whole, rest) ← readWhole bytes
  let (fraction, rest) ← readFraction rest
  let (exponent?, rest) ← readExponent rest
  let isWhole := fraction.isEmpty && exponent?.isNone
  let exponent := exponent?.getD 0 - (fraction.length : Int)
  return (number negative isWhole (digitsValue (whole ++ fraction)) exponent, rest)

private def readScalar (bytes : List UInt8) : Option (Json × List UInt8) :=
  match bytes with
  | 0x6E :: 0x75 :: 0x6C :: 0x6C :: rest => some (.null, rest)
  | 0x74 :: 0x72 :: 0x75 :: 0x65 :: rest => some (.bool true, rest)
  | 0x66 :: 0x61 :: 0x6C :: 0x73 :: 0x65 :: rest => some (.bool false, rest)
  | 0x22 :: rest =>
    (readString ⟨ByteArray.empty, none, true⟩ rest).map fun (text?, rest) =>
      (match text? with
        | some text => .string text
        | none => .garbled, rest)
  | 0x2D :: rest => readNumber true rest
  | bytes => readNumber false bytes

/-- A container whose end has not been read, with what it holds so far in reverse. -/
private inductive Open where
  | array (items : List Json)
  | object (members : List (Option String × Json)) (name : Option String)

namespace Open

private def give (value : Json) : Open → Json
  | array items => .array (value :: items).reverse false
  | object members name => .object ((name, value) :: members).reverse false

private def abandon : Open → Json
  | array items => .array items.reverse false
  | object members name => .object ((name, .missing) :: members).reverse false

end Open

/-- The value left when the text breaks inside the open containers, the innermost being `innermost`
already closed as incomplete. -/
private def unwind (innermost : Json) (stack : List Open) : Json :=
  stack.foldl (fun value container => container.give value) innermost

private def broken (stack : List Open) : Document :=
  match stack with
  | [] => ⟨.missing, false⟩
  | container :: outer => ⟨unwind container.abandon outer, false⟩

/-- The value that stands at the start of a text; of a container no more than its kind. -/
private def valueAt (bytes : List UInt8) : Json :=
  match skipSpace bytes with
  | 0x7B :: _ => .object [] false
  | 0x5B :: _ => .array [] false
  | 0x22 :: _ => .missing
  | bytes => ((readScalar bytes).map (·.1)).getD .missing

/-- Reads the name of a member and its colon. The first component is the name if there is one. -/
private def readName (bytes : List UInt8) : Option (Option String) × Option (List UInt8) :=
  match skipSpace bytes with
  | 0x22 :: rest =>
    match readString ⟨ByteArray.empty, none, true⟩ rest with
    | some (name, rest) =>
      match skipSpace rest with
      | 0x3A :: rest => (some name, some rest)
      | _ => (some name, none)
    | none => (none, none)
  | _ => (none, none)

mutual

/-- Reads a value inside the open containers. -/
private def readValue (fuel : Nat) (bytes : List UInt8) (stack : List Open) : Document :=
  match fuel with
  | 0 => broken stack
  | fuel + 1 =>
    match skipSpace bytes with
    | 0x7B :: rest =>
      match skipSpace rest with
      | 0x7D :: rest => close fuel (.object [] true) rest stack
      | rest => readMember fuel [] rest stack
    | 0x5B :: rest =>
      match skipSpace rest with
      | 0x5D :: rest => close fuel (.array [] true) rest stack
      | rest => readValue fuel rest (.array [] :: stack)
    | bytes =>
      match readScalar bytes with
      | some (value, rest) => close fuel value rest stack
      | none => broken stack

/-- Reads a member of an object that holds `members` so far. -/
private def readMember (fuel : Nat) (members : List (Option String × Json)) (bytes : List UInt8)
    (stack : List Open) : Document :=
  match fuel with
  | 0 => broken stack
  | fuel + 1 =>
    match readName bytes with
    | (some name, some rest) => readValue fuel rest (.object members name :: stack)
    | (some name, none) => broken (.object members name :: stack)
    | (none, _) =>
      let object := if members.isEmpty then .misnamed (valueAt bytes) else
        .object members.reverse false
      ⟨unwind object stack, false⟩

/-- Hands a finished value to the innermost open container. -/
private def close (fuel : Nat) (value : Json) (bytes : List UInt8) (stack : List Open) : Document :=
  match fuel with
  | 0 => broken stack
  | fuel + 1 =>
    match stack, skipSpace bytes with
    | [], rest => ⟨value, rest.isEmpty⟩
    | .array items :: outer, 0x2C :: rest => readValue fuel rest (.array (value :: items) :: outer)
    | .array items :: outer, 0x5D :: rest =>
      close fuel (.array (value :: items).reverse true) rest outer
    | .object members name :: outer, 0x2C :: rest =>
      readMember fuel ((name, value) :: members) rest outer
    | .object members name :: outer, 0x7D :: rest =>
      close fuel (.object ((name, value) :: members).reverse true) rest outer
    | container :: outer, _ => ⟨unwind (container.give value) outer, false⟩

end

/-- Reads a JSON text given as bytes. Every step but the last takes a byte or closes a scalar, so
twice the number of bytes is enough. -/
def Document.ofBytes (bytes : ByteArray) : Document :=
  readValue (2 * bytes.size + 2) bytes.toList []

/-- Reads a JSON text. -/
def Document.ofString (text : String) : Document := .ofBytes text.toUTF8

end Montage.Json
