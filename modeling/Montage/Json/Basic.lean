import Montage.Numeric.Binary64

/-!
# JSON documents

A document as far as its text could be read. Where the text breaks off or goes wrong, the
containers around the place are marked incomplete, so that a reader of the value meets faults of
form and faults of content in the order of the text.
-/

namespace Montage

open Montage.Numeric (Binary64)

/-- A JSON value. Whole numbers of 64 bits are integers, all other numbers doubles; `huge` is a
number beyond the doubles, `garbled` a string that is no text (a lone surrogate, bytes that are not
UTF-8), `misnamed` an object that begins with another value in the place of a name, and `missing`
stands where the text holds no value. -/
inductive Json where
  | null
  | bool (value : Bool)
  | integer (value : Int)
  | real (value : Binary64)
  | huge
  | string (value : String)
  | garbled
  | array (items : List Json) (complete : Bool)
  | object (members : List (Option String × Json)) (complete : Bool)
  | misnamed (name : Json)
  | missing

namespace Json

/-- Why a text is not the wanted value: its form is wrong, or its content. -/
inductive Fault where
  | malformed
  | mismatched
deriving DecidableEq

def Fault.message : Fault → String
  | malformed => "malformed text"
  | mismatched => "unexpected value"

/-- An object with the given members. -/
def record (members : List (String × Json)) : Json :=
  .object (members.map fun member => (some member.1, member.2)) true

/-- A list of values. -/
def list (items : List Json) : Json := .array items true

/-- A double as a number; `null` if it is not finite. -/
def ofReal (value : Binary64) : Json := if value.isFinite then .real value else .null

/-- An optional value; `null` if there is none. -/
def ofOption {α : Type} (encode : α → Json) : Option α → Json
  | some value => encode value
  | none => .null

/-- Whether the text of the value is well formed to its end. -/
def isComplete : Json → Bool
  | missing | misnamed _ => false
  | array _ complete => complete
  | object _ complete => complete
  | _ => true

/-- The fault of a value of the wrong type. Scalars are read before their type is refused, so a
scalar that cannot be read is malformed; a container is refused at its first character. -/
def fault : Json → Fault
  | missing | huge | garbled => .malformed
  | _ => .mismatched

end Json

/-- A JSON text: its value, and whether only white space follows it. -/
structure Json.Document where
  root : Json
  closed : Bool

end Montage
