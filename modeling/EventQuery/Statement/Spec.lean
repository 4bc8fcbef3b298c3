import EventQuery.Resolved
import EventQuery.SymbolContext

set_option autoImplicit false

/-! Compiled statements: the resolved clauses, the streams and aggregation calls that they refer
to by position, the subqueries, and the symbols that were gathered on the way. -/

namespace EventQuery

structure StreamBinding where
  name : String
  type : EventType

structure SelectColumn where
  name : String
  expression : Resolved

/-- A validated aggregation call; the slot is the position of its state. -/
structure CompiledAggregation where
  function : String
  key : AggregationKey
  handler : Handler
  slot : Nat

/-- A state that all calls with one state key share. -/
structure StateSlot where
  key : StateKey
  seed : StateSeed

structure StatementSpec where
  name : String
  text : Option String
  contextName : Option String
  hasPrior : Bool
  variableNames : List String
  tables : List TableAccess
  declarations : List (String × Declaration)
  scripts : List Script
  substitutions : List SubstitutionNode
  forges : List (AggregationKey × Forge)
  streams : List StreamBinding
  select : List SelectColumn
  filter : Option Resolved
  groupBy : List Resolved
  having : Option Resolved
  aggregations : List CompiledAggregation
  states : List StateSlot
  subqueries : List StatementSpec

namespace StatementSpec

def named (name : String) : StatementSpec :=
  ⟨name, none, none, false, [], [], [], [], [], [], [], [], none, [], none, [], [], []⟩

def clauses (spec : StatementSpec) : List Resolved :=
  spec.select.map SelectColumn.expression ++ spec.filter.toList ++ spec.groupBy ++
    spec.having.toList

def nodes (spec : StatementSpec) : List Resolved :=
  Resolved.nodesOfAll spec.clauses

def columnType (spec : StatementSpec) : AttributeType :=
  (spec.select.head?.map (fun column => column.expression.valueType)).getD .object

def stream? (spec : StatementSpec) (name : String) : Option StreamBinding :=
  spec.streams.find? (fun stream => stream.name = name)

def column? (spec : StatementSpec) (name : String) : Option SelectColumn :=
  spec.select.find? (fun column => column.name = name)

end StatementSpec

namespace SymbolContext

def attachTo (symbols : SymbolContext) (spec : StatementSpec) : StatementSpec :=
  { spec with
    variableNames := symbols.variableNames.foldl addName spec.variableNames
    tables := symbols.tables.foldl addTable spec.tables }

/-- Adds the variables and tables to a spec and sets all other symbols in it. -/
def foldInto (symbols : SymbolContext) (spec : StatementSpec) : StatementSpec :=
  { symbols.attachTo spec with
    contextName := symbols.contextName
    hasPrior := symbols.hasPrior
    declarations := symbols.declarations
    scripts := symbols.scripts
    substitutions := symbols.substitutions
    forges := symbols.registeredForges }

end SymbolContext

end EventQuery
