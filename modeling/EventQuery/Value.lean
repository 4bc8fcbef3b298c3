import EventQuery.EventType
import EventQuery.Numeric.Binary
import EventQuery.XmlNode

set_option autoImplicit false

/-! Property values and events. Besides scalars, a value is an event with its type or a raw
backing store: a map, an array, an object, an element tree or a record. An event is immutable
and carries the identity under which it was created; so does an object, which is otherwise
opaque to comparison. -/

namespace EventQuery

mutual

inductive Value where
  | null
  | string (text : String)
  | int (number : Int32)
  | long (number : Int64)
  | float (number : Binary32)
  | double (number : Binary64)
  | bool (truth : Bool)
  | bytes (octets : List UInt8)
  | event (held : Event)
  | raw (store : Store)

/-- The data of an event, or of a value that may become one. -/
inductive Store where
  /-- Of several entries under one name, the first counts. -/
  | map (entries : List (String × Value))
  | array (values : List Value)
  | object (identity : Nat) (className : String) (fields : List (String × Value))
  | node (node : XmlNode)
  /-- One value for each field position of the schema. -/
  | record (schema : RecordSchema) (values : List Value)

structure Event where
  identity : Nat
  type : EventType
  store : Store

end

instance : Inhabited Value := ⟨.null⟩

namespace Value

def isNull : Value → Bool
  | null => true
  | _ => false

def type? : Value → Option AttributeType
  | string _ => some .string
  | int _ => some .int
  | long _ => some .long
  | float _ => some .float
  | double _ => some .double
  | bool _ => some .bool
  | bytes _ => some .bytes
  | _ => none

def text? : Value → Option String
  | string text => some text
  | _ => none

def event? : Value → Option Event
  | event held => some held
  | _ => none

def store? : Value → Option Store
  | raw store => some store
  | _ => none

/-- Whether a value may be bound where a type is declared. Null fits everywhere, everything
fits `object`, and a number fits every wider numeric type. -/
def fits (value : Value) (expected : AttributeType) : Bool :=
  expected = .object || value.isNull ||
    match value.type? with
    | some actual => actual = expected || actual.widen expected = some expected
    | none => false

end Value

namespace Store

def representation : Store → Representation
  | map _ => .map
  | array _ => .objectArray
  | object _ _ _ => .bean
  | node _ => .xml
  | record _ _ => .avro

def field? (schema : RecordSchema) (values : List Value) (name : String) : Option Value :=
  (schema.fieldPosition? name).bind (fun position => values[position]?)

/-- The values of a record after a field was set; `none` when the schema has no such field. -/
def putField? (schema : RecordSchema) (values : List Value) (name : String) (value : Value) :
    Option (List Value) :=
  (schema.fieldPosition? name).map (fun position => values.set position value)

def emptyRecord (schema : RecordSchema) : List Value :=
  schema.fields.map (fun _ => .null)

end Store

/-- Makes an event of a type and a backing store of the type's representation. -/
def Event.ofStore (identity : Nat) (type : EventType) (store : Store) :
    Except (Representation × Representation) Event :=
  if type.representation = store.representation then
    .ok ⟨identity, type, store⟩
  else
    .error (type.representation, store.representation)

end EventQuery
