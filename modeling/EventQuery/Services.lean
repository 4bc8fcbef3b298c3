import EventQuery.Aggregation.Collect
import EventQuery.Configuration
import EventQuery.Entries

set_option autoImplicit false

/-! What all statements share: event types, variables, tables, declared expressions and the
factories and families of aggregation functions. A registration is accepted or leaves
everything as it was. -/

namespace EventQuery

structure Services where
  registry : Registry
  variableDefinitions : List VariableDefinition
  tables : List TableDefinition
  declarations : List (String × Declaration)
  factories : List (String × AggregationFactory)
  /-- Each function name with the family that it belongs to. -/
  functions : List (String × FunctionFamily)
  attachText : Bool

namespace Services

def variableNamed? (services : Services) (name : String) : Option VariableDefinition :=
  services.variableDefinitions.find? (fun definition => definition.name = name)

def table? (services : Services) (name : String) : Option TableDefinition :=
  services.tables.find? (fun definition => definition.name = name)

def declaration? (services : Services) (name : String) : Option Declaration :=
  services.declarations.lookup name

def family? (services : Services) (function : String) : Option FunctionFamily :=
  services.functions.lookup function

def registerType (services : Services) (type : EventType) :
    Except ConfigurationError Services :=
  (services.registry.register type).map (fun registry => { services with registry := registry })

def registerTypes (services : Services) (batch : List EventType) :
    Except ConfigurationError Services :=
  (services.registry.registerAll batch).map (fun registry =>
    { services with registry := registry })

def registerVariable (services : Services) (definition : VariableDefinition) :
    Except ConfigurationError Services :=
  match services.variableNamed? definition.name with
  | some _ => .error (.duplicate .variable definition.name)
  | none =>
      .ok { services with
        variableDefinitions := services.variableDefinitions ++ [definition] }

/-- Registers a table; each of its keys must be one of its columns. -/
def registerTable (services : Services) (definition : TableDefinition) :
    Except ConfigurationError Services :=
  match definition.keys.find? (fun key => (definition.columnType? key).isNone) with
  | some key => .error (.unknownKeyColumn definition.name key)
  | none =>
      match services.table? definition.name with
      | some _ => .error (.duplicate .table definition.name)
      | none => .ok { services with tables := services.tables ++ [definition] }

def declareExpression (services : Services) (declaration : Declaration) : Services :=
  { services with
    declarations := Entries.put services.declarations declaration.name declaration }

def addFactory (services : Services) (name : String) (factory : AggregationFactory) : Services :=
  { services with factories := Entries.put services.factories name factory }

/-- An operation that may change the services and may fail. When it fails, the services are what
the steps before the failure made of them. -/
abbrev Operation := ExceptT ConfigurationError (StateM Services)

def checkFree (names : List String) : Operation Unit :=
  names.forM (fun name => do
    if ((← get).family? name).isSome then
      throw (.duplicateFunction name))

def mapFunctions (family : FunctionFamily) (names : List String) : Operation Unit :=
  names.forM (fun name => modify (fun services =>
    { services with functions := Entries.put services.functions name family }))

/-- Adds a family. None of its function names may be in use; its factory may follow later. -/
def enterFamily (family : FunctionFamily) : Operation Unit := do
  checkFree family.functions
  mapFunctions family family.functions

def addFamily (services : Services) (family : FunctionFamily) :
    Except ConfigurationError Services :=
  match (enterFamily family).run services with
  | (.ok _, later) => .ok later
  | (.error failure, _) => .error failure

def checkFactories (services : Services) : Except ConfigurationError Unit :=
  let missing? := services.functions.find? (fun entry =>
    (services.factories.lookup entry.2.factory).isNone)
  match missing? with
  | some (_, family) => .error (.unknownFactory family.factory family.functions)
  | none => .ok ()

def createForge (services : Services) (family : FunctionFamily) (workshop : Workshop) :
    Except ValidationError Forge × Workshop :=
  match services.factories.lookup family.factory with
  | some factory => workshop.create factory family
  | none => (.error (.unknownSymbol .aggregationFactory family.factory), workshop)

def setAttachText (services : Services) (attachText : Bool) : Services :=
  { services with attachText := attachText }

/-- The services at the start, with the functions of the collecting family. -/
def initial : Services where
  registry := .empty
  variableDefinitions := []
  tables := []
  declarations := []
  factories := [(Collect.factoryName, Collect.factory)]
  functions := Collect.family.functions.map (fun name => (name, Collect.family))
  attachText := false

def ofConfiguration (configuration : Configuration) : Except ConfigurationError Services := do
  let types ← configuration.eventTypes.mapM EventTypeEntry.toEventType
  let services ← (initial.setAttachText configuration.attachText).registerTypes types
  let services ← configuration.variableDefinitions.foldlM registerVariable services
  let services ← configuration.tables.foldlM registerTable services
  configuration.families.foldlM addFamily services

end Services

end EventQuery
