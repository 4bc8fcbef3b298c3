import EventQuery.Document.Json

set_option autoImplicit false

/-! Families of aggregation functions. The functions of one family are served together within a
statement, by what the factory of the family creates for it. -/

namespace EventQuery

structure FunctionFamily where
  functions : List String
  factory : String
  properties : List (String × Json)

namespace FunctionFamily

/-- A property that is text; a property of another kind counts as missing. -/
def text? (family : FunctionFamily) (name : String) : Option String :=
  (family.properties.lookup name).bind Json.text?

end FunctionFamily

end EventQuery
