import EventQuery.Aggregation.Forge
import EventQuery.Aggregation.Key
import EventQuery.Entries

set_option autoImplicit false

/-! The symbols of one statement, gathered while it is resolved: the variables and tables that
it refers to, its declarations and scripts, its substitution parameters and the forges that
serve its aggregation calls. -/

namespace EventQuery

structure SymbolContext where
  contextName : Option String
  hasPrior : Bool
  variableNames : List String
  /-- Table accesses, each identity once. -/
  tables : List TableAccess
  declarations : List (String × Declaration)
  scripts : List Script
  /-- Substitution parameters; the position of a parameter is its slot. -/
  substitutions : List SubstitutionNode
  /-- The forges by their keys; `none` until the first forge is registered. -/
  forges : Option (List (AggregationKey × Forge))

namespace SymbolContext

def empty : SymbolContext := ⟨none, false, [], [], [], [], [], none⟩

def addName (names : List String) (name : String) : List String :=
  if names.contains name then names else names ++ [name]

def addTable (tables : List TableAccess) (node : TableAccess) : List TableAccess :=
  if tables.any (fun other => other.identity = node.identity) then tables else tables ++ [node]

def recordVariable (symbols : SymbolContext) (name : String) : SymbolContext :=
  { symbols with variableNames := addName symbols.variableNames name }

def recordTable (symbols : SymbolContext) (node : TableAccess) : SymbolContext :=
  { symbols with tables := addTable symbols.tables node }

def declaration? (symbols : SymbolContext) (name : String) : Option Declaration :=
  symbols.declarations.lookup name

def addDeclaration (symbols : SymbolContext) (declaration : Declaration) : SymbolContext :=
  { symbols with declarations := Entries.put symbols.declarations declaration.name declaration }

def addDeclarations (symbols : SymbolContext) (declarations : List Declaration) :
    SymbolContext :=
  declarations.foldl addDeclaration symbols

def addScript (symbols : SymbolContext) (script : Script) : SymbolContext :=
  { symbols with scripts := symbols.scripts ++ [script] }

/-- Adds a substitution parameter; its slot is the number of parameters before it. -/
def addSubstitution (symbols : SymbolContext) (node : SubstitutionNode) :
    Nat × SymbolContext :=
  (symbols.substitutions.length,
    { symbols with substitutions := symbols.substitutions ++ [node] })

def script? (symbols : SymbolContext) (name : String) (arity : Nat) : Option Script :=
  (symbols.scripts.filter (fun script => script.name = name)).find?
    (fun script => script.parameters.length = arity)

def setContextName (symbols : SymbolContext) (name : Option String) : SymbolContext :=
  { symbols with contextName := name }

def setPrior (symbols : SymbolContext) (hasPrior : Bool) : SymbolContext :=
  { symbols with hasPrior := hasPrior }

def registeredForges (symbols : SymbolContext) : List (AggregationKey × Forge) :=
  symbols.forges.getD []

def forge? (symbols : SymbolContext) (key : AggregationKey) : Option Forge :=
  symbols.registeredForges.lookup key

def addForge (symbols : SymbolContext) (key : AggregationKey) (forge : Forge) : SymbolContext :=
  { symbols with forges := some (Entries.put symbols.registeredForges key forge) }

/-- The forge of a key. A forge that is not registered yet is created and registered; if its
creation fails, nothing changes but what the workshop recorded. -/
def resolveForge (symbols : SymbolContext) (key : AggregationKey)
    (create : Workshop → Except ValidationError Forge × Workshop) (workshop : Workshop) :
    Except ValidationError (Forge × SymbolContext) × Workshop :=
  match symbols.forge? key with
  | some forge => (.ok (forge, symbols), workshop)
  | none =>
      match create workshop with
      | (.ok forge, workshop) => (.ok (forge, symbols.addForge key forge), workshop)
      | (.error failure, workshop) => (.error failure, workshop)

/-- Adds the variables and tables of a subquery; all else stays with its statement. -/
def merge (symbols other : SymbolContext) : SymbolContext :=
  { symbols with
    variableNames := other.variableNames.foldl addName symbols.variableNames
    tables := other.tables.foldl addTable symbols.tables }

end SymbolContext

end EventQuery
