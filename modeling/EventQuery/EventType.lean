import EventQuery.Representation
import EventQuery.Schema

set_option autoImplicit false

/-! Event types. A type names the properties of its events and fixes how each of them is
stored. The constructors are the five representations; what a representation needs besides
property names, such as the accessors of a bean or the schema of a record, is part of its
constructor, so that a property never lacks it. -/

namespace EventQuery

/-- A property as it is declared. A property with a fragment type holds events of the type of
that name, and its own type is `object`. -/
structure PropertyDescriptor where
  name : String
  type : AttributeType
  fragment : Option String
  deriving DecidableEq, Repr

namespace PropertyDescriptor

def scalar (name : String) (type : AttributeType) : PropertyDescriptor :=
  ⟨name, type, none⟩

def ofFragment (name fragment : String) : PropertyDescriptor :=
  ⟨name, .object, some fragment⟩

end PropertyDescriptor

/-- Reads a field of the objects of one class. -/
structure BeanAccessor where
  className : String
  field : String
  deriving DecidableEq, Repr

structure BeanProperty where
  descriptor : PropertyDescriptor
  accessor : BeanAccessor
  deriving DecidableEq, Repr

inductive EventType where
  | map (name : String) (properties : List PropertyDescriptor)
  | objectArray (name : String) (properties : List PropertyDescriptor)
  | bean (name className : String) (properties : List BeanProperty)
  | xml (name root : String) (properties : List PropertyDescriptor)
  | avro (schema : RecordSchema)

/-- The property that a field of a schema gives rise to. A nested record is a fragment of the
type named like the nested schema. -/
def SchemaField.descriptor (field : SchemaField) : PropertyDescriptor :=
  match field.type with
  | .scalar type => .scalar field.name type
  | .record schema => .ofFragment field.name schema.name

theorem SchemaField.name_descriptor (field : SchemaField) : field.descriptor.name = field.name := by
  unfold descriptor
  cases field.type <;> rfl

namespace EventType

def name : EventType → String
  | map name _ => name
  | objectArray name _ => name
  | bean name _ _ => name
  | xml name _ _ => name
  | avro schema => schema.name

def representation : EventType → Representation
  | map _ _ => .map
  | objectArray _ _ => .objectArray
  | bean _ _ _ => .bean
  | xml _ _ _ => .xml
  | avro _ => .avro

def properties : EventType → List PropertyDescriptor
  | map _ properties => properties
  | objectArray _ properties => properties
  | bean _ _ properties => properties.map BeanProperty.descriptor
  | xml _ _ properties => properties
  | avro schema => schema.fields.map SchemaField.descriptor

def property? (type : EventType) (name : String) : Option PropertyDescriptor :=
  type.properties.find? (fun property => property.name = name)

def propertyIndex? (type : EventType) (name : String) : Option Nat :=
  type.properties.findIdx? (fun property => property.name = name)

def fragments (type : EventType) : List (String × String) :=
  type.properties.filterMap (fun property =>
    property.fragment.map (fun fragment => (property.name, fragment)))

def same : EventType → EventType → Bool
  | map name properties, map otherName otherProperties =>
      name = otherName && properties = otherProperties
  | objectArray name properties, objectArray otherName otherProperties =>
      name = otherName && properties = otherProperties
  | bean name className properties, bean otherName otherClassName otherProperties =>
      name = otherName && className = otherClassName && properties = otherProperties
  | xml name root properties, xml otherName otherRoot otherProperties =>
      name = otherName && root = otherRoot && properties = otherProperties
  | avro schema, avro otherSchema => schema.same otherSchema
  | _, _ => false

theorem same_self (type : EventType) : type.same type = true := by
  cases type <;> simp [same, RecordSchema.same_self]

end EventType

end EventQuery
