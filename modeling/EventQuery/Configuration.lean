import EventQuery.Definition
import EventQuery.Document.Json.Parser
import EventQuery.Document.Reading
import EventQuery.EventType
import EventQuery.Failure

set_option autoImplicit false

/-! The configuration document: event types, variables, tables, families of aggregation
functions and whether statements keep their text. Every section may be left out. -/

namespace EventQuery

structure EventTypeEntry where
  name : String
  representation : Representation
  properties : List PropertyDescriptor
  root : Option String
  schema : Option RecordSchema

structure Configuration where
  eventTypes : List EventTypeEntry
  variableDefinitions : List VariableDefinition
  tables : List TableDefinition
  families : List FunctionFamily
  attachText : Bool

namespace EventTypeEntry

/-- The declared properties, a fragment having no type of its own. -/
def descriptors (entry : EventTypeEntry) : List PropertyDescriptor :=
  entry.properties.map (fun property =>
    if property.fragment.isSome then { property with type := .object } else property)

/-- The event type of an entry. The root element is named like the type unless the entry names
it; a schema-tagged type takes its name and its properties from the schema. -/
def toEventType (entry : EventTypeEntry) : Except ConfigurationError EventType :=
  match entry.representation with
  | .map => .ok (.map entry.name entry.descriptors)
  | .objectArray => .ok (.objectArray entry.name entry.descriptors)
  | .xml => .ok (.xml entry.name (entry.root.getD entry.name) entry.descriptors)
  | .avro =>
      match entry.schema with
      | some schema => .ok (.avro schema)
      | none => .error (.missingSchema entry.name)
  | .bean => .error (.beanFromDocument entry.name)

end EventTypeEntry

namespace Representation

def ofName? : String → Option Representation
  | "map" => some map
  | "objectArray" => some objectArray
  | "bean" => some bean
  | "xml" => some xml
  | "avro" => some avro
  | _ => none

end Representation

namespace PropertyDescriptor

def ofJson? (json : Json) : Option PropertyDescriptor := do
  match ← json.fields? ["name", "type", "fragmentType"] with
  | [name, type, fragment] =>
      let name ← Json.required? Json.text? name
      let type ← Json.defaulted? .object AttributeType.ofJson? type
      let fragment ← Json.optional? Json.text? fragment
      return ⟨name, type, fragment⟩
  | _ => none

end PropertyDescriptor

namespace EventTypeEntry

def ofJson? (level : Nat) (json : Json) : Option EventTypeEntry := do
  match ← json.fields? ["name", "representation", "properties", "rootElement", "schema"] with
  | [name, representation, properties, root, schema] =>
      let name ← Json.required? Json.text? name
      let representation ←
        Json.required? (fun json => json.alternative?.bind Representation.ofName?) representation
      let properties ←
        Json.defaulted? [] (Json.elements? PropertyDescriptor.ofJson?) properties
      let root ← Json.optional? Json.text? root
      let schema ← Json.optional? (RecordSchema.ofJson? (level + 1)) schema
      return ⟨name, representation, properties, root, schema⟩
  | _ => none

end EventTypeEntry

namespace VariableDefinition

def ofJson? (json : Json) : Option VariableDefinition := do
  match ← json.fields? ["name", "type", "constant"] with
  | [name, type, constant] =>
      let name ← Json.required? Json.text? name
      let type ← Json.required? AttributeType.ofJson? type
      let constant ← Json.defaulted? false Json.bool? constant
      return ⟨name, type, constant⟩
  | _ => none

end VariableDefinition

namespace TableDefinition

def ofJson? (json : Json) : Option TableDefinition := do
  match ← json.fields? ["name", "columns", "keyColumns"] with
  | [name, columns, keys] =>
      let name ← Json.required? Json.text? name
      let columns ← Json.required? (Json.elements? Attribute.ofJson?) columns
      let keys ← Json.defaulted? [] (Json.elements? Json.text?) keys
      return ⟨name, columns, keys⟩
  | _ => none

end TableDefinition

namespace Configuration

def attachTextOfJson? (json : Json) : Option Bool := do
  match ← json.fields? ["attachStatementText"] with
  | [attachText] => Json.defaulted? false Json.bool? attachText
  | _ => none

def ofJson? (json : Json) : Option Configuration := do
  let sections := ["eventTypes", "variables", "tables", "plugInAggregationMultiFunctions",
    "byteCode"]
  match ← json.fields? sections with
  | [eventTypes, definitions, tables, families, byteCode] =>
      let eventTypes ← Json.defaulted? [] (Json.elements? (EventTypeEntry.ofJson? 2)) eventTypes
      let definitions ← Json.defaulted? [] (Json.elements? VariableDefinition.ofJson?) definitions
      let tables ← Json.defaulted? [] (Json.elements? TableDefinition.ofJson?) tables
      let families ← Json.defaulted? [] (Json.elements? (FunctionFamily.ofJson? 2)) families
      let attachText ← Json.defaulted? false attachTextOfJson? byteCode
      return ⟨eventTypes, definitions, tables, families, attachText⟩
  | _ => none

def ofDocument? (document : String) : Option Configuration :=
  (JsonText.parse? document).bind ofJson?

end Configuration

end EventQuery
