import Mathlib.Logic.Relation
import Montage.Json.Decoder

/-!
# Changes to documents

Documents that mean the same are not written the same: a field that has its default may be left out,
fields stand in any order, and there may be fields that the reader does not know. A layout says
where the objects of a document are and what their fields hold by default, so that such changes can
be made at any depth.
-/

namespace Montage.Json

open Montage.Numeric (Binary64 twoTo)

/-- A value as programs exchange it: complete to its end, with whole numbers of 64 bits and finite
doubles. -/
inductive Valid : Json → Prop
  | null : Valid .null
  | bool (value : Bool) : Valid (.bool value)
  | integer {value : Int} : -(twoTo 63 : Int) ≤ value → value < (twoTo 64 : Int) →
      Valid (.integer value)
  | real {value : Binary64} : value.isFinite = true → Valid (.real value)
  | string (value : String) : Valid (.string value)
  | array {items : List Json} : (∀ item ∈ items, Valid item) → Valid (.array items true)
  | object {members : List (Option String × Json)} : (∀ member ∈ members, member.1 ≠ none) →
      (∀ member ∈ members, Valid member.2) → Valid (.object members true)

/-- The shape of the documents of a type: where their objects are, which fields those have, and what
a field holds if it is left out. Fields without such a default have to be given. -/
inductive Layout where
  | scalar
  | optional (layout : Layout)
  | list (item : Layout)
  | record (fields : List (String × Option Json × Layout))

/-- One change to an object anywhere in a document: a field that holds its default is left out, the
fields are put in another order, or a field is added that the layout does not know. -/
inductive Change : Layout → Json → Json → Prop
  | remove {fields : List (String × Option Json × Layout)} {name : String} {value : Json}
      {layout : Layout} (before after : List (Option String × Json)) :
      (name, some value, layout) ∈ fields →
      Change (.record fields) (.object (before ++ (some name, value) :: after) true)
        (.object (before ++ after) true)
  | reorder {fields : List (String × Option Json × Layout)}
      {members others : List (Option String × Json)} :
      members.Perm others →
      Change (.record fields) (.object members true) (.object others true)
  | add {fields : List (String × Option Json × Layout)} {name : String} {value : Json}
      (before after : List (Option String × Json)) :
      name ∉ fields.map (·.1) → value.isComplete = true →
      Change (.record fields) (.object (before ++ after) true)
        (.object (before ++ (some name, value) :: after) true)
  | field {fields : List (String × Option Json × Layout)} {name : String} {default? : Option Json}
      {layout : Layout} {value value' : Json} (before after : List (Option String × Json)) :
      (name, default?, layout) ∈ fields → Change layout value value' →
      Change (.record fields) (.object (before ++ (some name, value) :: after) true)
        (.object (before ++ (some name, value') :: after) true)
  | item {layout : Layout} {value value' : Json} (before after : List Json) :
      Change layout value value' →
      Change (.list layout) (.array (before ++ value :: after) true)
        (.array (before ++ value' :: after) true)
  | present {layout : Layout} {value value' : Json} :
      Change layout value value' → Change (.optional layout) value value'

/-- The second document comes from the first by changes to its objects. -/
def Changed (layout : Layout) : Json → Json → Prop := Relation.ReflTransGen (Change layout)

/-- A writer and a reader of documents agree. What is written of a value is read as that value,
whatever changes are made to its objects, and what was read and written once stays the same when it
is read and written again. -/
structure Interchange {α : Type} (encode : α → Json) (decode : Decoder α) (layout : Layout)
    (Representable : α → Prop) : Prop where
  decode_encode : ∀ {a}, Representable a → decode (encode a) = .ok a
  decode_of_changed : ∀ {a document}, Representable a → Changed layout (encode a) document →
    decode document = .ok a
  idempotent : ∀ {document written}, document.Valid → encode <$> decode document = .ok written →
    encode <$> decode written = .ok written

/-- Only containers are changed, and they stay containers. -/
theorem Change.ne_null {layout : Layout} {value value' : Json} (h : Change layout value value') :
    value ≠ .null ∧ value' ≠ .null := by
  induction h with
  | remove => exact ⟨Json.noConfusion, Json.noConfusion⟩
  | reorder => exact ⟨Json.noConfusion, Json.noConfusion⟩
  | add => exact ⟨Json.noConfusion, Json.noConfusion⟩
  | field => exact ⟨Json.noConfusion, Json.noConfusion⟩
  | item => exact ⟨Json.noConfusion, Json.noConfusion⟩
  | present _ ih => exact ih

end Montage.Json
