set_option autoImplicit false

/-! The physical representations of events. -/

namespace EventQuery

inductive Representation where
  | map
  /-- An array with one position for each property. -/
  | objectArray
  /-- An object of a class, read through named accessors. -/
  | bean
  | xml
  /-- A record that conforms to a schema. -/
  | avro
  deriving DecidableEq, Repr

namespace Representation

def name : Representation → String
  | map => "map"
  | objectArray => "object-array"
  | bean => "bean"
  | xml => "xml"
  | avro => "avro"

end Representation

end EventQuery
