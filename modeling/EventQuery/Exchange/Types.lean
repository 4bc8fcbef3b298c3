import EventQuery.Exchange.Fields
import EventQuery.Registry

set_option autoImplicit false

/-! Schemas and event types in the exchange format. -/

namespace EventQuery.Exchange

variable {m : Type → Type} [Monad m] [MonadExceptOf String m]

mutual

def schema : RecordSchema → Json
  | ⟨name, fields⟩ => obj [("name", str name), ("fields", arr (schemaFields fields))]
termination_by structural value => value

def schemaFields : List SchemaField → List Json
  | [] => []
  | field :: fields => schemaField field :: schemaFields fields
termination_by structural fields => fields

def schemaField : SchemaField → Json
  | ⟨name, type⟩ => obj [("name", str name), ("type", fieldType type)]
termination_by structural value => value

def fieldType : FieldType → Json
  | .scalar type => typeName type
  | .record inner => schema inner
termination_by structural value => value

end

def description (type : EventType) : List (String × Json) :=
  [("name", str type.name), ("repr", str type.representation.name),
    ("properties", arr (type.properties.map (fun property =>
      obj [("name", str property.name), ("type", typeName property.type),
        ("fragment", maybe str property.fragment), ("isFragment", .bool property.fragment.isSome),
        ("index", maybe nat (type.propertyIndex? property.name))]))),
    ("meta", match type with
      | .map _ _ | .objectArray _ _ => .null
      | .bean _ className properties =>
          obj [("class", str className), ("accessors", nat properties.length)]
      | .xml _ root _ => obj [("root", str root)]
      | .avro inner => obj [("schema", schema inner)]),
    ("fragments", arr (type.fragments.map (fun (property, fragment) =>
      arr [str property, str fragment])))]

def readSchemaWithin : Nat → Json → m RecordSchema
  | 0, _ => throw "schema nested too deeply"
  | fuel + 1, json => do
      let fields ← (← listField json "fields").mapM (fun entry => do
        let name ← textField entry "name"
        match ← field entry "type" with
        | .text type => return SchemaField.mk name (.scalar (← typeOf (.text type)))
        | inner => return SchemaField.mk name (.record (← readSchemaWithin fuel inner)))
      return ⟨← textField json "name", fields⟩

/-- The schema that an object names or writes out. -/
def readSchema (registry : Registry) (json : Json) : m RecordSchema := do
  match ← optionalText json "schemaOf" with
  | some name =>
      match registry.find? name with
      | some (.avro schema) => return schema
      | _ => throw "no such schema-tagged type"
  | none =>
      let inner ← field json "schema"
      readSchemaWithin (inner.depth + 1) inner

def readDescriptor (json : Json) : m PropertyDescriptor := do
  let name ← textField json "name"
  match ← optionalText json "fragment" with
  | some fragment => return .ofFragment name fragment
  | none => return .scalar name (← typeField json "type")

/-- A property of a bean; the field that it reads has its name unless it is given. -/
def readBeanProperty (className : String) (json : Json) : m BeanProperty := do
  let descriptor ← readDescriptor json
  let source := (← optionalText json "field").getD descriptor.name
  return ⟨descriptor, ⟨className, source⟩⟩

def readEventType (registry : Registry) (json : Json) : m EventType := do
  match json with
  | .text name =>
      match registry.find? name with
      | some type => return type
      | none => throw s!"unknown type {name}"
  | _ =>
      let properties ← listField json "properties"
      match ← textField json "repr" with
      | "map" => return .map (← textField json "name") (← properties.mapM readDescriptor)
      | "objectArray" =>
          return .objectArray (← textField json "name") (← properties.mapM readDescriptor)
      | "xml" =>
          let name ← textField json "name"
          let root := (← optionalText json "root").getD name
          return .xml name root (← properties.mapM readDescriptor)
      | "bean" =>
          let className ← textField json "class"
          return .bean (← textField json "name") className
            (← properties.mapM (readBeanProperty className))
      | "avro" => return .avro (← readSchema registry json)
      | _ => throw "unknown representation"

end EventQuery.Exchange
