import Montage.Text.Printable

/-!
# Quoted text in messages

A text between double quotes in which every character that would not be seen is written by name or
by number.
-/

namespace Montage.Text

private def hexText (n : Nat) : String := String.ofList (Nat.toDigits 16 n)

private def shown (c : Char) : String :=
  match c with
  | '\x00' => "\\0"
  | '\t' => "\\t"
  | '\n' => "\\n"
  | '\r' => "\\r"
  | '"' => "\\\""
  | '\\' => "\\\\"
  | c => if isPrintable c then String.singleton c else "\\u\x7b" ++ hexText c.toNat ++ "\x7d"

/-- The text between double quotes, with escapes for what would not be seen. -/
def quoted (s : String) : String := "\"" ++ String.join (s.toList.map shown) ++ "\""

end Montage.Text
