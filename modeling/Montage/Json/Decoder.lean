import Montage.Json.Basic

/-!
# Decoding JSON values

Decoders for scalars, lists and records. A record is read member by member in the order of the
text, so the first fault of the text wins; unknown members are passed over, a known member given
twice is a fault, and a record may also be given as an array of its fields in declaration order.
-/

namespace Montage.Json

open Montage.Numeric (Binary64)

/-- What reads a value of one type out of a JSON value. -/
abbrev Decoder (α : Type) := Json → Except Fault α

def decodeString : Decoder String
  | .string value => .ok value
  | other => .error other.fault

def decodeBool : Decoder Bool
  | .bool value => .ok value
  | other => .error other.fault

/-- A double; integers are taken at their nearest double. -/
def decodeReal : Decoder Binary64
  | .real value => .ok value
  | .integer value => .ok (Binary64.ofInt value)
  | other => .error other.fault

/-- A natural number below `bound`. -/
def decodeNat (bound : Nat) : Decoder Nat
  | .integer value =>
    if 0 ≤ value ∧ value.toNat < bound then .ok value.toNat else .error .mismatched
  | other => .error other.fault

/-- A value that may be `null`. -/
def decodeOption {α : Type} (decode : Decoder α) : Decoder (Option α)
  | .null => .ok none
  | other => some <$> decode other

/-- A list of values. -/
def decodeList {α : Type} (decode : Decoder α) : Decoder (List α)
  | .array items complete => do
    let values ← items.mapM decode
    if complete then return values else throw .malformed
  | other => .error other.fault

/-- One of the named values, given by its name or as an object `name : null`. What stands in the
place of the name is refused as a value of the wrong type. -/
def decodeChoice {α : Type} (choices : List (String × α)) : Decoder α
  | .string name => find name
  | .object ((some name, value) :: rest) complete => do
    let choice ← find name
    match value, rest with
    | .null, [] => if complete then return choice else throw .malformed
    | .null, _ => throw .malformed
    | other, _ => throw other.fault
  | .misnamed name => .error name.fault
  | _ => .error .malformed
where
  find (name : String) : Except Fault α :=
    match choices.lookup name with
    | some choice => .ok choice
    | none => .error .mismatched

/-- What happens when a field is absent: a fault, `none` (though not in the array form), or the
default. -/
inductive Presence where
  | required
  | nullable
  | defaulted
deriving DecidableEq

/-- A field of a record type: its name, whether it may be absent, and how its value is put into the
record. -/
structure RecordField (α : Type) where
  name : String
  presence : Presence
  put : Json → α → Except Fault α

namespace RecordField

variable {α β : Type}

def required (name : String) (decode : Decoder β) (set : β → α → α) : RecordField α :=
  ⟨name, .required, fun value record => (set · record) <$> decode value⟩

def nullable (name : String) (decode : Decoder β) (set : Option β → α → α) : RecordField α :=
  ⟨name, .nullable, fun value record => (set · record) <$> decodeOption decode value⟩

def defaulted (name : String) (decode : Decoder β) (set : β → α → α) : RecordField α :=
  ⟨name, .defaulted, fun value record => (set · record) <$> decode value⟩

end RecordField

variable {α : Type}

/-- Reads the members of an object one by one into `record`. Returns the names that were seen. -/
def putMembers (fields : List (RecordField α)) :
    List (Option String × Json) → List String → α → Except Fault (List String × α)
  | [], seen, record => .ok (seen, record)
  | (none, _) :: _, _, _ => .error .malformed
  | (some name, value) :: rest, seen, record =>
    match fields.find? (·.name == name) with
    | some field =>
      if name ∈ seen then .error .mismatched
      else do putMembers fields rest (name :: seen) (← field.put value record)
    | none => if value.isComplete then putMembers fields rest seen record else .error .malformed

/-- Reads the items of an array into the fields in order. -/
def putItems : List (RecordField α) → List Json → Bool → α → Except Fault α
  | [], [], complete, record => if complete then .ok record else .error .malformed
  | [], _ :: _, _, _ => .error .malformed
  | field :: fields, [], complete, record =>
    if !complete then .error .malformed
    else if field.presence = .defaulted then putItems fields [] complete record
    else .error .mismatched
  | field :: fields, item :: items, complete, record => do
    putItems fields items complete (← field.put item record)

/-- Reads a record, given the values of its absent fields and the fields themselves. -/
def decodeRecord (blank : α) (fields : List (RecordField α)) : Decoder α
  | .object members complete => do
    let (seen, record) ← putMembers fields members [] blank
    if !complete then throw .malformed
    if fields.all fun field => field.presence ≠ .required || field.name ∈ seen then return record
    else throw .mismatched
  | .array items complete => putItems fields items complete blank
  | .misnamed _ => .error .malformed
  | other => .error other.fault

/-- Reads a whole text as one value. -/
def Document.decode (document : Document) (decode : Decoder α) : Except Fault α := do
  let value ← decode document.root
  if document.closed then return value else throw .malformed

end Montage.Json
