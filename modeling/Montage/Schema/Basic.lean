import Montage.Json.Basic

/-!
# Schemas

What a document has to look like, as a JSON Schema of draft 7: the properties of a record, and the
definitions that they refer to by name. Properties, definitions and required names are written in
the order of their names.
-/

namespace Montage

namespace Schema

/-- The shape of a value. Naturals carry the name of their range. -/
inductive Shape where
  | text
  | flag
  | real
  | natural (range : String)
  | reference (definition : String)
  | list (item : Shape)

/-- A property of a record. It may be absent if it has a default; `nullable` says that it may be
`null`. -/
structure Property where
  name : String
  shape : Shape
  nullable : Bool := false
  default : Option Json := none
  description : Option String := none

namespace Property

def required (name : String) (shape : Shape) : Property := { name, shape }

def defaulted (name : String) (shape : Shape) (default : Json) : Property :=
  { name, shape, default := some default }

/-- A property that is `null` when it is absent. -/
def nullable? (name : String) (shape : Shape) : Property :=
  { name, shape, nullable := true, default := some .null }

def described (property : Property) (description : String) : Property :=
  { property with description := some description }

end Property

/-- A named type: one of some names, or a record. -/
inductive Body where
  | choice (names : List String)
  | record (properties : List Property)

structure Definition where
  name : String
  description : Option String := none
  body : Body

end Schema

/-- The schema of a document, which is a record. -/
structure Schema where
  title : String
  description : String
  properties : List Schema.Property
  definitions : List Schema.Definition

namespace Schema

private abbrev Members := List (String × Json)

private def inOrder {α : Type} (name : α → String) (items : List α) : List α :=
  items.mergeSort fun a b => name a ≤ name b

private def describedBy (description : Option String) : Members :=
  description.toList.map fun text => ("description", .string text)

private def referenceTo (definition : String) : Json :=
  .record [("$ref", .string ("#/definitions/" ++ definition))]

/-- The members for a value of a simple type. -/
private def typed (type : String) (nullable : Bool) (rest : Members) : Members :=
  let type : Json := .string type
  ("type", if nullable then .list [type, .string "null"] else type) :: rest

/-- The members that describe a shape. A reference stands alone only if nothing else is said. -/
private def shapeMembers (nullable alone : Bool) : Shape → Members
  | .text => typed "string" nullable []
  | .flag => typed "boolean" nullable []
  | .real => typed "number" nullable [("format", .string "double")]
  | .natural range =>
    typed "integer" nullable [("format", .string range), ("minimum", .real 0)]
  | .list item => typed "array" nullable [("items", .record (shapeMembers false true item))]
  | .reference definition =>
    if nullable then
      [("anyOf", .list [referenceTo definition, .record [("type", .string "null")]])]
    else if alone then [("$ref", .string ("#/definitions/" ++ definition))]
    else [("allOf", .list [referenceTo definition])]

/-- A default with the members of a record in order. -/
private def defaultValue : Json → Json
  | .object members complete => .object (inOrder (·.1.getD "") members) complete
  | other => other

private def Property.toJson (property : Property) : Json :=
  let notes := describedBy property.description ++
    property.default.toList.map fun value => ("default", defaultValue value)
  .record (notes ++ shapeMembers property.nullable notes.isEmpty property.shape)

private def recordMembers (properties : List Property) : Members :=
  let properties := inOrder (·.name) properties
  let required := properties.filter (·.default.isNone)
  [("type", .string "object")] ++
    (if required.isEmpty then [] else
      [("required", .list (required.map fun property => .string property.name))]) ++
    [("properties", .record (properties.map fun property => (property.name, property.toJson)))]

private def Definition.toJson (definition : Definition) : Json :=
  .record <| describedBy definition.description ++
    match definition.body with
    | .choice names =>
      [("type", .string "string"), ("enum", .list (names.map .string))]
    | .record properties => recordMembers properties

/-- The schema as a document. -/
def toJson (schema : Schema) : Json :=
  .record <|
    [("$schema", .string "http://json-schema.org/draft-07/schema#"),
     ("title", .string schema.title), ("description", .string schema.description)] ++
    recordMembers schema.properties ++
    [("definitions", .record ((inOrder (·.name) schema.definitions).map fun definition =>
        (definition.name, definition.toJson)))]

end Schema

end Montage
