/-!
# Bytes as text

Reading bytes as UTF-8 where some may be wrong. Each longest start of a character that is not
continued properly, and each byte that starts no character, becomes one replacement character.
-/

namespace Montage.Text

/-- Stands for bytes that are no text. -/
def replacement : Char := '\uFFFD'

/-- Whether `b` is in a range of bytes. -/
def between (low high : UInt8) (b : UInt8) : Bool := low ≤ b && b ≤ high

/-- Whether `b` goes on with a character. -/
def isContinuation (b : UInt8) : Bool := between 0x80 0xBF b

/-- Whether `b` may follow `first` in a character of three or four bytes. -/
def mayFollow (first b : UInt8) : Bool :=
  if first == 0xE0 then between 0xA0 0xBF b
  else if first == 0xED then between 0x80 0x9F b
  else if first == 0xF0 then between 0x90 0xBF b
  else if first == 0xF4 then between 0x80 0x8F b
  else isContinuation b

private def scalar (leading : Nat) (continuations : List UInt8) : Char :=
  Char.ofNat (continuations.foldl (fun n b => n * 64 + (b.toNat - 0x80)) leading)

/-- A character of two, three or four bytes, with the bytes after the first. The number is how many
of those belong to the character or to its broken start. -/
def tail (first : UInt8) (rest : List UInt8) : Char × Nat :=
  if between 0xC2 0xDF first then
    match rest with
    | b :: _ => if isContinuation b then (scalar (first.toNat - 0xC0) [b], 1) else (replacement, 0)
    | [] => (replacement, 0)
  else if between 0xE0 0xEF first then
    match rest with
    | b :: c :: _ =>
      if !mayFollow first b then (replacement, 0)
      else if isContinuation c then (scalar (first.toNat - 0xE0) [b, c], 2)
      else (replacement, 1)
    | [b] => (replacement, if mayFollow first b then 1 else 0)
    | [] => (replacement, 0)
  else if between 0xF0 0xF4 first then
    match rest with
    | b :: c :: d :: _ =>
      if !mayFollow first b then (replacement, 0)
      else if !isContinuation c then (replacement, 1)
      else if isContinuation d then (scalar (first.toNat - 0xF0) [b, c, d], 3)
      else (replacement, 2)
    | [b, c] =>
      if !mayFollow first b then (replacement, 0)
      else (replacement, if isContinuation c then 2 else 1)
    | [b] => (replacement, if mayFollow first b then 1 else 0)
    | [] => (replacement, 0)
  else (replacement, 0)

/-- The text of the bytes after the first `skip`, which belong to an earlier character. -/
def decodeFrom : Nat → List UInt8 → List Char
  | _, [] => []
  | skip + 1, _ :: rest => decodeFrom skip rest
  | 0, first :: rest =>
    if first < 0x80 then Char.ofNat first.toNat :: decodeFrom 0 rest
    else
      let (c, used) := tail first rest
      c :: decodeFrom used rest

/-- The text of the bytes, with replacement characters where they are no UTF-8. -/
def decodeLossy (bytes : List UInt8) : List Char := decodeFrom 0 bytes

end Montage.Text
