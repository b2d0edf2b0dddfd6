import Montage.Json.Basic
import Montage.Numeric.Decimal

/-!
# Writing JSON text

Values as text, on one line or indented by two spaces. Controls are escaped, all other characters
are written as they are; a number that is not finite is written as `null`.
-/

namespace Montage.Json

open Montage.Numeric (Binary64 zeroPadded)

private def escapedChar (c : Char) : String :=
  match c with
  | '"' => "\\\""
  | '\\' => "\\\\"
  | '\n' => "\\n"
  | '\r' => "\\r"
  | '\t' => "\\t"
  | '\x08' => "\\b"
  | '\x0c' => "\\f"
  | c =>
    if c.toNat < 0x20 then "\\u" ++ zeroPadded 4 (String.ofList (Nat.toDigits 16 c.toNat))
    else String.singleton c

/-- A text as a JSON string. -/
def stringText (s : String) : String := "\"" ++ String.join (s.toList.map escapedChar) ++ "\""

private def realText (x : Binary64) : String :=
  if x.isFinite then x.write .document else "null"

/-- The text between brackets: nothing, or the items on lines of their own if there is an indent. -/
private def enclosed (opening closing : String) (indent : Option Nat) (items : List String) :
    String :=
  match items, indent with
  | [], _ => opening ++ closing
  | items, none => opening ++ ",".intercalate items ++ closing
  | items, some depth =>
    let line (level : Nat) : String := "\n" ++ String.ofList (List.replicate (2 * level) ' ')
    opening ++ line (depth + 1) ++ ("," ++ line (depth + 1)).intercalate items ++ line depth ++
      closing

mutual

/-- The text of a value, indented from a depth on or on one line. -/
private def textAt (indent : Option Nat) : Json → String
  | null => "null"
  | bool value => if value then "true" else "false"
  | integer value => toString value
  | real value => realText value
  | string value => stringText value
  | array items _ => enclosed "[" "]" indent (itemTexts (indent.map (· + 1)) items)
  | object members _ => enclosed "\x7b" "\x7d" indent (memberTexts (indent.map (· + 1)) members)
  | huge | garbled | misnamed _ | missing => "null"

private def itemTexts (indent : Option Nat) : List Json → List String
  | [] => []
  | item :: rest => textAt indent item :: itemTexts indent rest

private def memberTexts (indent : Option Nat) : List (Option String × Json) → List String
  | [] => []
  | (name, value) :: rest =>
    (stringText (name.getD "") ++ (if indent.isSome then ": " else ":") ++ textAt indent value) ::
      memberTexts indent rest

end

/-- The value on one line. -/
def compact (value : Json) : String := textAt none value

/-- The value on indented lines. -/
def pretty (value : Json) : String := textAt (some 0) value

end Montage.Json
