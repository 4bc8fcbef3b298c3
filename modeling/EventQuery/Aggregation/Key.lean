import EventQuery.Aggregation.Family

set_option autoImplicit false

/-! Keys of forges. Within a statement a forge is found under the name of its factory and the
set of the function names of its family; the set is kept as an ascending list without
repetition, so that equal sets are equal lists. -/

namespace EventQuery

structure AggregationKey where
  name : String
  signature : List String
  deriving DecidableEq, Repr

namespace AggregationKey

def insertName (name : String) : List String → List String
  | [] => [name]
  | first :: rest =>
      if name < first then name :: first :: rest
      else if name = first then first :: rest
      else first :: insertName name rest

def nameSet (names : List String) : List String :=
  names.foldr insertName []

def ofNames (name : String) (names : List String) : AggregationKey :=
  ⟨name, nameSet names⟩

def ofFamily (family : FunctionFamily) : AggregationKey :=
  ofNames family.factory family.functions

end AggregationKey

end EventQuery
