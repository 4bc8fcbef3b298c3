import EventQuery.AttributeType

set_option autoImplicit false

/-! Schemas of records. A schema has a name and a list of fields; the type of a field is an
attribute type or again a schema. -/

namespace EventQuery

mutual

structure RecordSchema where
  name : String
  fields : List SchemaField

structure SchemaField where
  name : String
  type : FieldType

inductive FieldType where
  | scalar (type : AttributeType)
  | record (schema : RecordSchema)

end

mutual

/-- Whether two schemas are equal in their names and, field by field, in everything below. -/
def RecordSchema.same : RecordSchema → RecordSchema → Bool
  | ⟨name, fields⟩, ⟨otherName, otherFields⟩ => name = otherName && sameFields fields otherFields
termination_by structural left _ => left

def sameFields : List SchemaField → List SchemaField → Bool
  | [], [] => true
  | field :: fields, other :: others => field.same other && sameFields fields others
  | _, _ => false
termination_by structural left _ => left

def SchemaField.same : SchemaField → SchemaField → Bool
  | ⟨name, type⟩, ⟨otherName, otherType⟩ => name = otherName && type.same otherType
termination_by structural left _ => left

def FieldType.same : FieldType → FieldType → Bool
  | .scalar type, .scalar other => type = other
  | .record schema, .record other => schema.same other
  | _, _ => false
termination_by structural left _ => left

end

mutual

theorem RecordSchema.same_self : (schema : RecordSchema) → schema.same schema = true
  | ⟨_, fields⟩ => by simp [RecordSchema.same, sameFields_self fields]
termination_by structural schema => schema

theorem sameFields_self : (fields : List SchemaField) → sameFields fields fields = true
  | [] => rfl
  | field :: fields => by simp [sameFields, SchemaField.same_self field, sameFields_self fields]
termination_by structural fields => fields

theorem SchemaField.same_self : (field : SchemaField) → field.same field = true
  | ⟨_, type⟩ => by simp [SchemaField.same, FieldType.same_self type]
termination_by structural field => field

theorem FieldType.same_self : (type : FieldType) → type.same type = true
  | .scalar _ => by simp [FieldType.same]
  | .record schema => by simp [FieldType.same, RecordSchema.same_self schema]
termination_by structural type => type

end

mutual

theorem RecordSchema.eq_of_same : (schema other : RecordSchema) → schema.same other = true →
    schema = other
  | ⟨_, fields⟩, ⟨_, others⟩, equal => by
      simp only [RecordSchema.same, Bool.and_eq_true, decide_eq_true_eq] at equal
      rw [equal.1, eq_of_sameFields fields others equal.2]
termination_by structural schema => schema

theorem eq_of_sameFields : (fields others : List SchemaField) →
    sameFields fields others = true → fields = others
  | [], [], _ => rfl
  | field :: fields, other :: others, equal => by
      simp only [sameFields, Bool.and_eq_true] at equal
      rw [SchemaField.eq_of_same field other equal.1, eq_of_sameFields fields others equal.2]
  | [], _ :: _, unequal => by cases unequal
  | _ :: _, [], unequal => by cases unequal
termination_by structural fields => fields

theorem SchemaField.eq_of_same : (field other : SchemaField) → field.same other = true →
    field = other
  | ⟨_, type⟩, ⟨_, otherType⟩, equal => by
      simp only [SchemaField.same, Bool.and_eq_true, decide_eq_true_eq] at equal
      rw [equal.1, FieldType.eq_of_same type otherType equal.2]
termination_by structural field => field

theorem FieldType.eq_of_same : (type other : FieldType) → type.same other = true → type = other
  | .scalar _, .scalar _, equal => by
      simp only [FieldType.same, decide_eq_true_eq] at equal
      rw [equal]
  | .record schema, .record other, equal => by
      simp only [FieldType.same] at equal
      rw [RecordSchema.eq_of_same schema other equal]
  | .scalar _, .record _, unequal => by cases unequal
  | .record _, .scalar _, unequal => by cases unequal
termination_by structural type => type

end

theorem RecordSchema.same_iff_eq {schema other : RecordSchema} :
    schema.same other = true ↔ schema = other := by
  constructor
  · exact RecordSchema.eq_of_same schema other
  · intro equal
    rw [equal]
    exact other.same_self

mutual

/-- The schemas nested anywhere below a schema, an outer one before those inside it. -/
def RecordSchema.nested : RecordSchema → List RecordSchema
  | ⟨_, fields⟩ => nestedInFields fields
termination_by structural left => left

def nestedInFields : List SchemaField → List RecordSchema
  | [] => []
  | field :: fields => field.nested ++ nestedInFields fields
termination_by structural left => left

def SchemaField.nested : SchemaField → List RecordSchema
  | ⟨_, type⟩ => type.nested
termination_by structural left => left

def FieldType.nested : FieldType → List RecordSchema
  | .scalar _ => []
  | .record schema => schema :: schema.nested
termination_by structural left => left

end

namespace RecordSchema

def fieldPosition? (schema : RecordSchema) (name : String) : Option Nat :=
  schema.fields.findIdx? (fun field => field.name = name)

end RecordSchema

end EventQuery
