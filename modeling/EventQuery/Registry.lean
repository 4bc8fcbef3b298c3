import EventQuery.EventType
import EventQuery.Failure

set_option autoImplicit false

/-! The registered event types. Types enter in batches; a batch is accepted as a whole or
refused as a whole. The record schemas nested in a schema-tagged type become types of their
own, so every name that a registered property refers to is registered as well. -/

namespace EventQuery

structure Registry where
  types : List EventType

namespace Registry

def empty : Registry := ⟨[]⟩

def find? (registry : Registry) (name : String) : Option EventType :=
  registry.types.find? (fun type => type.name = name)

def contains (registry : Registry) (name : String) : Bool :=
  (registry.find? name).isSome

def resolve (registry : Registry) (name : String) : Except ValidationError EventType :=
  match registry.find? name with
  | some type => .ok type
  | none => .error (.unknownSymbol .eventType name)

def names (registry : Registry) : List String :=
  (registry.types.map EventType.name).mergeSort (fun left right => left ≤ right)

def checkNames (registry : Registry) : List String → List EventType →
    Except ConfigurationError Unit
  | _, [] => .ok ()
  | seen, type :: rest =>
      if registry.contains type.name || seen.contains type.name then
        .error (.duplicateEventType type.name)
      else
        registry.checkNames (type.name :: seen) rest

/-- The schemas nested in the types of a batch, each with the name of the type it comes from. -/
def nestedSchemas (batch : List EventType) : List (String × RecordSchema) :=
  batch.flatMap (fun type =>
    match type with
    | .avro schema => schema.nested.map (fun inner => (schema.name, inner))
    | _ => [])

/-- Adds a type for each nested schema whose name is still free. A type that already has the
name must carry an equal schema. -/
def addNested (registry : Registry) : List EventType → List (String × RecordSchema) →
    Except ConfigurationError (List EventType)
  | incoming, [] => .ok incoming
  | incoming, (owner, schema) :: rest =>
      match (registry.find? schema.name).or (Registry.find? ⟨incoming⟩ schema.name) with
      | none => registry.addNested (incoming ++ [.avro schema]) rest
      | some (.avro known) =>
          if known.same schema then
            registry.addNested incoming rest
          else
            .error (.nestedSchemaConflict owner schema.name)
      | some _ => .error (.nestedSchemaConflict owner schema.name)

def fragmentReferences (types : List EventType) : List (String × String × String) :=
  types.flatMap (fun type =>
    type.fragments.map (fun (property, fragment) => (type.name, property, fragment)))

/-- Refuses fragment properties whose type is neither registered nor incoming. -/
def checkFragments (registry : Registry) (incoming : List EventType) :
    Except ConfigurationError Unit :=
  let missing? := (fragmentReferences incoming).find? (fun (_, _, fragment) =>
    !(registry.contains fragment || Registry.contains ⟨incoming⟩ fragment))
  match missing? with
  | some (type, property, fragment) => .error (.unknownFragmentType type property fragment)
  | none => .ok ()

def insert (registry : Registry) (type : EventType) : Registry :=
  ⟨registry.types.filter (fun known => known.name ≠ type.name) ++ [type]⟩

/-- The types that a batch brings: its own and those for nested schemas. -/
def gather (registry : Registry) (batch : List EventType) :
    Except ConfigurationError (List EventType) := do
  registry.checkNames [] batch
  let incoming ← registry.addNested batch (nestedSchemas batch)
  registry.checkFragments incoming
  return incoming

/-- An operation that may change the registry and may fail. When it fails, the registry is what
the steps before the failure made of it. -/
abbrev Registration := ExceptT ConfigurationError (StateM Registry)

def enter (batch : List EventType) : Registration Unit := do
  let registry ← get
  let incoming ← ofExcept (registry.gather batch)
  incoming.forM (fun type => modify (fun held => held.insert type))

def enterOne (type : EventType) : Registration EventType := do
  enter [type]
  match (← get).find? type.name with
  | some stored => return stored
  | none => throw (.duplicateEventType type.name)

def changed {α : Type} (registry : Registry) (operation : Registration α) :
    Except ConfigurationError Registry :=
  match operation.run registry with
  | (.ok _, later) => .ok later
  | (.error failure, _) => .error failure

def registerAll (registry : Registry) (batch : List EventType) :
    Except ConfigurationError Registry :=
  registry.changed (enter batch)

def register (registry : Registry) (type : EventType) : Except ConfigurationError Registry :=
  registry.changed (enterOne type)

end Registry

end EventQuery
