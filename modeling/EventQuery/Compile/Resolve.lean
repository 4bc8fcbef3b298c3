import EventQuery.Compile.Names
import EventQuery.Compile.Statement

set_option autoImplicit false

/-! Resolution of expressions. A call of a declared expression is replaced by the body of the
declaration, in which the parameters stand for the resolved arguments; a subquery is compiled
as a statement of its own. Neither is bounded by the size of the expression, so resolution
runs on fuel. Fuel is given in portions, so that a later one is only worked out when the one
before it is spent. -/

namespace EventQuery.Frame

open Resolution

/-- A key of a table access with its types filled in; its type must be comparable to that of its
column. -/
def checkedKey (node : TableAccess) (table : TableDefinition) (column : String)
    (key : Resolved) : Except LocatedError Resolved := do
  let key ← key.typed []
  if key.valueType.comparable (table.keyType column) then
    return key
  else
    throw ⟨.typeMismatch s!"{node.table}.{column}" (.keyType (table.keyType column) key.valueType),
      node.position⟩

def accessedType (node : TableAccess) (table : TableDefinition) :
    Except LocatedError AttributeType :=
  match node.column with
  | none => .ok .object
  | some column =>
      match table.columnType? column with
      | some type => .ok type
      | none => .error ⟨.unknownSymbol .column s!"{node.table}.{column}", node.position⟩

/-- A table access. There is one key for each key column. -/
def resolveTable (frame : Frame) (resolve : Expression → Resolution Resolved)
    (node : TableAccess) : Resolution Resolved :=
  match frame.services.table? node.table with
  | none => refuse (.unknownSymbol .table node.table) node.position
  | some table =>
      if node.keys.length ≠ table.keys.length then
        refuse (.typeMismatch node.table (.keyCount table.keys.length node.keys.length))
          node.position
      else do
        let keys ← (node.keys.zip table.keys).mapM (fun (key, column) => do
          ofChecked (checkedKey node table column (← resolve key)))
        let type ← ofChecked (accessedType node table)
        modifySymbols (fun symbols => symbols.recordTable node)
        return .table node keys type

/-- The declaration that a name denotes; one of the statement comes before a global one. -/
def declaration? (frame : Frame) (symbols : SymbolContext) (name : String) :
    Option Declaration :=
  (symbols.declaration? name).or (frame.services.declaration? name)

/-- A call of a declared expression. The arguments are resolved where the call stands, the body
where the parameters stand for them. -/
def resolveDeclared (resolve : Scope → Expression → Resolution Resolved) (scope : Scope)
    (node : FunctionCall) (declaration : Declaration) : Resolution Resolved :=
  let expected := declaration.parameters.length
  let given := node.parameters.length
  if expected ≠ given then
    refuse (.typeMismatch node.name (.declarationArity expected given)) node.position
  else if scope.expanding.contains node.name then
    refuse (.notAllowed (.selfReference node.name)) node.position
  else do
    let arguments ← node.parameters.mapM (resolve scope)
    let body ← resolve (scope.entering node.name declaration arguments) declaration.body
    return .declared node.name body

def aggregationParameter (parameter : Resolved) : Except LocatedError AggregationParameter :=
  match parameter with
  | .wildcard stream type => .ok (.stream stream type)
  | .property stream path compiled => .ok (.property stream path compiled)
  | other => (other.typed []).map (fun tree => .value tree.valueType)

def resolveForge (frame : Frame) (family : FunctionFamily) (position : Option Position) :
    Resolution Forge := do
  let progress ← get
  let (result, workshop) := progress.symbols.resolveForge (.ofFamily family)
    (frame.services.createForge family) progress.memory.workshop
  let memory := { progress.memory with workshop := workshop }
  match result with
  | .ok (forge, symbols) =>
      set { progress with symbols := symbols, memory := memory }
      return forge
  | .error failure =>
      set { progress with memory := memory }
      refuse failure position

/-- A call of an aggregation function. Its forge is found before its parameters are resolved,
and the call takes its position after them. -/
def resolveAggregation (frame : Frame) (resolve : Scope → Expression → Resolution Resolved)
    (scope : Scope) (node : FunctionCall) (family : FunctionFamily) : Resolution Resolved :=
  if scope.clause = .filter || scope.clause = .groupBy then
    refuse (.notAllowed (.aggregationInClause node.name scope.clause)) node.position
  else if scope.inAggregation then
    refuse (.notAllowed (.nestedAggregation node.name)) node.position
  else do
    let forge ← frame.resolveForge family node.position
    let parameters ← node.parameters.mapM (fun parameter => do
      ofChecked (aggregationParameter (← resolve scope.aggregated parameter)))
    let progress ← get
    match progress.calls.add ⟨node, .ofFamily family, forge, family, parameters⟩ with
    | .error failure => refuse failure node.position
    | .ok (site, calls) =>
        set { progress with calls := calls }
        return .aggregation site node.position none

/-- A call: of a declared expression, else of a script of its arity, else of an aggregation
function. -/
def resolveCall (frame : Frame) (resolve : Scope → Expression → Resolution Resolved)
    (scope : Scope) (node : FunctionCall) : Resolution Resolved := do
  let symbols := (← get).symbols
  match frame.declaration? symbols node.name with
  | some declaration => resolveDeclared resolve scope node declaration
  | none =>
      if symbols.scripts.any (fun script => script.name = node.name) then
        let arity := node.parameters.length
        match symbols.script? node.name arity with
        | none => refuse (.typeMismatch node.name (.scriptArity node.name arity)) node.position
        | some script =>
            let arguments ← node.parameters.mapM (resolve scope)
            return .script script arguments
      else
        match frame.services.family? node.name with
        | some family => frame.resolveAggregation resolve scope node family
        | none => refuse (.unknownSymbol .function node.name) node.position

def resolveSubquery (frame : Frame) (resolve : Resolver) (position : Option Position)
    (statement : Statement) : Resolution Resolved :=
  if statement.select.length ≠ 1 then
    refuse (.notAllowed (.subqueryColumns statement.select.length)) position
  else do
    let progress ← get
    let (result, memory) := compileStatement resolve frame.services frame.order true statement
      .empty progress.memory
    match result with
    | .error fault =>
        set { progress with memory := memory }
        throw fault
    | .ok (spec, symbols) =>
        set (progress.afterSubquery spec symbols memory)
        return .subquery progress.subqueries.length spec.columnType

end Frame

/-- Resolves an expression. Each step into an operand, an argument, a body or a subquery takes
one unit of fuel; what lies deeper is left to another resolver. -/
def resolve (beyond : Resolver) : Nat → Resolver
  | 0, frame, scope, expression => beyond frame scope expression
  | fuel + 1, frame, scope, expression =>
      let resolveHere := resolve beyond fuel frame scope
      match expression with
      | .constant _ value => return .constant value
      | .property node => frame.resolveProperty scope node
      | .wildcard position stream => frame.resolveWildcard scope position stream
      | .table node => frame.resolveTable resolveHere node
      | .substitution node => frame.resolveSubstitution node
      | .prior position index node => frame.resolvePrior scope position index node
      | .call node => frame.resolveCall (resolve beyond fuel frame) scope node
      | .subquery position statement =>
          frame.resolveSubquery (resolve beyond fuel) position statement
      | .math operator left right => do
          let left ← resolveHere left
          let right ← resolveHere right
          return .math operator left right expression.position .object
      | .compare operator left right => do
          let left ← resolveHere left
          let right ← resolveHere right
          return .compare operator left right expression.position
      | .and left right => do
          let left ← resolveHere left
          let right ← resolveHere right
          return .and left right
      | .or left right => do
          let left ← resolveHere left
          let right ← resolveHere right
          return .or left right
      | .not inner => do
          let inner ← resolveHere inner
          return .not inner

theorem resolve_resolve (beyond : Resolver) (inner : Nat) :
    (outer : Nat) → resolve (resolve beyond inner) outer = resolve beyond (inner + outer)
  | 0 => rfl
  | outer + 1 => by
      funext frame scope expression
      rw [← Nat.add_assoc]
      simp only [resolve, resolve_resolve beyond inner outer]

end EventQuery
