import EventQuery.AttributeType

set_option autoImplicit false

/-! Definitions that statements refer to by name: variables and tables. -/

namespace EventQuery

structure VariableDefinition where
  name : String
  type : AttributeType
  constant : Bool
  deriving DecidableEq, Repr

structure TableDefinition where
  name : String
  columns : List Attribute
  keys : List String
  deriving DecidableEq, Repr

namespace TableDefinition

def columnType? (table : TableDefinition) (name : String) : Option AttributeType :=
  Attribute.typeOf? table.columns name

def keyType (table : TableDefinition) (column : String) : AttributeType :=
  (table.columnType? column).getD .object

end TableDefinition

end EventQuery
