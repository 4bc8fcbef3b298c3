import EventQuery.Aggregation.Family
import EventQuery.Schema

set_option autoImplicit false

/-! Reading domain values from JSON trees. A structure is an object, whose unknown members are
passed over, or a list of its fields in their order; an alternative is its name, or an object
that maps this one name to null. What is read may be nested only to a limit. -/

namespace EventQuery

namespace Json

/-- How deeply lists and objects may be nested where they are read. -/
def nestingLimit : Nat := 127

/-- The fields of a structure, each `none` where it is missing. A field given twice is refused,
and so is a list with more elements than there are fields. -/
def fields? (names : List String) : Json → Option (List (Option Json))
  | object members =>
      let found := names.map (fun name =>
        (members.filter (fun member => member.1 = name)).map Prod.snd)
      if found.all (fun values => values.length ≤ 1) then some (found.map List.head?) else none
  | list elements =>
      if elements.length ≤ names.length then
        some (names.mapIdx (fun index _ => elements[index]?))
      else
        none
  | _ => none

def alternative? : Json → Option String
  | text name => some name
  | object [(name, null)] => some name
  | _ => none

def elements? {α : Type} (read : Json → Option α) : Json → Option (List α)
  | list elements => elements.mapM read
  | _ => none

def required? {α : Type} (read : Json → Option α) (field : Option Json) : Option α :=
  field.bind read

def defaulted? {α : Type} (default : α) (read : Json → Option α) : Option Json → Option α
  | some json => read json
  | none => some default

def optional? {α : Type} (read : Json → Option α) : Option Json → Option (Option α)
  | none | some null => some none
  | some json => (read json).map some

/-- The members of a free-form object under `level` lists and objects; of several members of
one name the last one stays. -/
def freeForm? (level : Nat) (json : Json) : Option (List (String × Json)) :=
  match json with
  | object members =>
      if json.readable && level + json.depth ≤ nestingLimit then
        some (members.foldl (fun kept member =>
          kept.filter (fun other => other.1 ≠ member.1) ++ [member]) [])
      else
        none
  | _ => none

end Json

namespace AttributeType

def ofJson? (json : Json) : Option AttributeType :=
  json.alternative?.bind (fun text => if text = "boolean" then some .bool else ofName? text)

end AttributeType

namespace Attribute

def ofJson? (json : Json) : Option Attribute := do
  match ← json.fields? ["name", "type"] with
  | [name, type] =>
      return ⟨← Json.required? Json.text? name, ← Json.required? AttributeType.ofJson? type⟩
  | _ => none

def toJson (column : Attribute) : Json :=
  .object [("name", .text column.name), ("type", .text column.type.name)]

end Attribute

namespace RecordSchema

mutual

/-- Reads a schema under `level` lists and objects. The fuel bounds its nesting. -/
def read? : Nat → Nat → Json → Option RecordSchema
  | 0, _, _ => none
  | fuel + 1, level, json => do
      match ← json.fields? ["name", "fields"] with
      | [name, fields] =>
          let name ← Json.required? Json.text? name
          let fields ← Json.required? (Json.elements? (readField? fuel (level + 2))) fields
          return ⟨name, fields⟩
      | _ => none

/-- Reads a field. Its type is an attribute type or else a nested schema, and is read whole
before it is known which. -/
def readField? : Nat → Nat → Json → Option SchemaField
  | 0, _, _ => none
  | fuel + 1, level, json => do
      match ← json.fields? ["name", "type"] with
      | [name, type] =>
          let name ← Json.required? Json.text? name
          let type ← type
          if type.readable && level + 1 + type.depth ≤ Json.nestingLimit then
            match AttributeType.ofJson? type with
            | some scalar => return ⟨name, .scalar scalar⟩
            | none => return ⟨name, .record (← read? fuel (level + 1) type)⟩
          else
            none
      | _ => none

end

/-- Reads a schema under `level` lists and objects. Each step descends into the tree, so its
depth is fuel enough. -/
def ofJson? (level : Nat) (json : Json) : Option RecordSchema :=
  read? (json.depth + 1) level json

end RecordSchema

namespace FunctionFamily

def ofJson? (level : Nat) (json : Json) : Option FunctionFamily := do
  match ← json.fields? ["functionNames", "factory", "properties"] with
  | [functions, factory, properties] =>
      let functions ← Json.required? (Json.elements? Json.text?) functions
      let factory ← Json.required? Json.text? factory
      let properties ← Json.defaulted? [] (Json.freeForm? (level + 1)) properties
      return ⟨functions, factory, properties⟩
  | _ => none

end FunctionFamily

end EventQuery
