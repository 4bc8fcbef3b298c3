import EventQuery.Proofs.Resolution.Inversion

set_option autoImplicit false

/-! Resolution in place. A resolver of one statement holds the values of the parameters of all
declarations that are being expanded, the names of these, its clause, and whether it is within an
aggregation call. It changes them before it goes into a body or into the parameters of a call, and
changes them back when it comes out, with a tree or with a failure. -/

namespace EventQuery

structure ResolverState where
  frame : Frame
  /-- The values of parameters, those of the innermost declaration first. -/
  parameters : List (List (String × Resolved))
  expanding : List String
  clause : Clause
  inAggregation : Bool
  progress : Progress

namespace ResolverState

/-- Where the resolver is: of all parameters those of the innermost declaration are seen. -/
def scope (state : ResolverState) : Scope :=
  ⟨state.parameters.headD [], state.expanding, state.clause, state.inAggregation⟩

def withProgress (state : ResolverState) (progress : Progress) : ResolverState :=
  { state with progress := progress }

def enter (name : String) (values : List (String × Resolved)) (state : ResolverState) :
    ResolverState :=
  { state with parameters := values :: state.parameters, expanding := name :: state.expanding }

def leave (state : ResolverState) : ResolverState :=
  { state with parameters := state.parameters.tail, expanding := state.expanding.tail }

def markAggregation (inside : Bool) (state : ResolverState) : ResolverState :=
  { state with inAggregation := inside }

def opening (frame : Frame) (progress : Progress) : ResolverState :=
  ⟨frame, [], [], .select, false, progress⟩

end ResolverState

abbrev InPlace (α : Type) := ExceptT CompileFault (StateM ResolverState) α

namespace InPlace

variable {α : Type}

def outcome (action : InPlace α) (state : ResolverState) :
    Except CompileFault α × ResolverState :=
  action.run.run state

/-- What only reads where the resolver is and gathers progress. -/
def step (action : Frame → Scope → Resolution α) : InPlace α :=
  ExceptT.mk (do
    let state ← get
    let (result, progress) := (action state.frame state.scope).outcome state.progress
    set (state.withProgress progress)
    return result)

def gather (action : Resolution α) : InPlace α :=
  step (fun _ _ => action)

/-- Changes the state, goes on, and changes it back. The change is taken back before a failure is
passed on. -/
def bracket (change restore : ResolverState → ResolverState) (action : InPlace α) : InPlace α := do
  modify change
  let result ← ExceptT.lift action.run
  modify restore
  match result with
  | .ok value => return value
  | .error fault => throw fault

open Resolution

variable (resolve : Expression → InPlace Resolved)

def resolveTable (node : TableAccess) : InPlace Resolved := do
  let frame := (← get).frame
  match frame.services.table? node.table with
  | none => gather (refuse (.unknownSymbol .table node.table) node.position)
  | some table =>
      if node.keys.length ≠ table.keys.length then
        gather (refuse
          (.typeMismatch node.table (.keyCount table.keys.length node.keys.length)) node.position)
      else do
        let keys ← (node.keys.zip table.keys).mapM (fun (key, column) => do
          gather (ofChecked (Frame.checkedKey node table column (← resolve key))))
        let type ← gather (ofChecked (Frame.accessedType node table))
        gather (modifySymbols (fun symbols => symbols.recordTable node))
        return .table node keys type

/-- The arguments are resolved before anything is entered. -/
def resolveDeclared (node : FunctionCall) (declaration : Declaration) : InPlace Resolved := do
  let expanding := (← get).expanding
  let expected := declaration.parameters.length
  let given := node.parameters.length
  if expected ≠ given then
    gather (refuse (.typeMismatch node.name (.declarationArity expected given)) node.position)
  else if expanding.contains node.name then
    gather (refuse (.notAllowed (.selfReference node.name)) node.position)
  else do
    let arguments ← node.parameters.mapM resolve
    let values := (declaration.parameters.zip arguments).reverse
    let body ← bracket (ResolverState.enter node.name values) ResolverState.leave
      (resolve declaration.body)
    return .declared node.name body

/-- The forge is found before the parameters are marked as within an aggregation call. -/
def resolveAggregation (node : FunctionCall) (family : FunctionFamily) : InPlace Resolved := do
  let state ← get
  if state.clause = .filter || state.clause = .groupBy then
    gather (refuse (.notAllowed (.aggregationInClause node.name state.clause)) node.position)
  else if state.inAggregation then
    gather (refuse (.notAllowed (.nestedAggregation node.name)) node.position)
  else do
    let forge ← step (fun frame _ => frame.resolveForge family node.position)
    let parameters ← bracket (ResolverState.markAggregation true)
      (ResolverState.markAggregation false)
      (node.parameters.mapM (fun parameter => do
        gather (ofChecked (Frame.aggregationParameter (← resolve parameter)))))
    let state ← get
    match state.progress.calls.add ⟨node, .ofFamily family, forge, family, parameters⟩ with
    | .error failure => gather (refuse failure node.position)
    | .ok (site, calls) =>
        set (state.withProgress { state.progress with calls := calls })
        return .aggregation site node.position none

def resolveCall (node : FunctionCall) : InPlace Resolved := do
  let state ← get
  let symbols := state.progress.symbols
  match state.frame.declaration? symbols node.name with
  | some declaration => resolveDeclared resolve node declaration
  | none =>
      if symbols.scripts.any (fun script => script.name = node.name) then
        let arity := node.parameters.length
        match symbols.script? node.name arity with
        | none =>
            gather (refuse (.typeMismatch node.name (.scriptArity node.name arity)) node.position)
        | some script =>
            let arguments ← node.parameters.mapM resolve
            return .script script arguments
      else
        match state.frame.services.family? node.name with
        | some family => resolveAggregation resolve node family
        | none => gather (refuse (.unknownSymbol .function node.name) node.position)

def turnTo (clause : Clause) : InPlace Unit :=
  modify (fun state => { state with clause := clause })

/-- The clauses in the order of the text. Nothing turns back to an earlier clause. -/
def resolveClauses (statement : Statement) : InPlace ResolvedClauses := do
  turnTo .select
  let select ← statement.select.zipIdx.mapM (fun (item, index) => do
    let expression ← resolve item.expression
    return SelectColumn.mk (item.rename.getD (item.expression.columnName index)) expression)
  turnTo .filter
  let filter ← statement.filter.mapM resolve
  turnTo .groupBy
  let groupBy ← statement.groupBy.mapM resolve
  turnTo .having
  let having ← statement.having.mapM resolve
  return ⟨select, filter, groupBy, having⟩

def runStatement (statement : Statement) : InPlace StatementSpec := do
  let clauses ← resolveClauses resolve statement
  step (fun frame _ => frame.conclude statement clauses)

def compileStatement (services : Services) (order : Nat → List Nat) (isSubquery : Bool)
    (statement : Statement) (symbols : SymbolContext) (memory : CompilerMemory) :
    Except CompileFault (StatementSpec × SymbolContext) × CompilerMemory :=
  match bindStreams services.registry [] statement.streams with
  | .error failure => (.error (.refused failure), memory)
  | .ok streams =>
      let frame := Frame.ofStatement services order isSubquery statement streams
      let start := ResolverState.opening frame (.opening statement symbols memory)
      match (runStatement resolve statement).outcome start with
      | (.ok spec, state) => (.ok (spec, state.progress.symbols), state.progress.memory)
      | (.error fault, state) => (.error fault, state.progress.memory)

def resolveSubquery (position : Option Position) (statement : Statement) :
    InPlace Resolved :=
  if statement.select.length ≠ 1 then
    gather (refuse (.notAllowed (.subqueryColumns statement.select.length)) position)
  else do
    let state ← get
    let (result, memory) := compileStatement resolve state.frame.services state.frame.order true
      statement .empty state.progress.memory
    match result with
    | .error fault =>
        set (state.withProgress { state.progress with memory := memory })
        throw fault
    | .ok (spec, symbols) =>
        set (state.withProgress (state.progress.afterSubquery spec symbols memory))
        return .subquery state.progress.subqueries.length spec.columnType

end InPlace

/-- Resolves an expression in place. Each step into an operand, an argument, a body or a subquery
takes one unit of fuel. -/
def resolveInPlace : Nat → Expression → InPlace Resolved
  | 0, _ => throw .unfinished
  | fuel + 1, expression =>
      let resolveHere := resolveInPlace fuel
      match expression with
      | .constant _ value => return .constant value
      | .property node => .step (fun frame scope => frame.resolveProperty scope node)
      | .wildcard position stream =>
          .step (fun frame scope => frame.resolveWildcard scope position stream)
      | .table node => .resolveTable resolveHere node
      | .substitution node => .step (fun frame _ => frame.resolveSubstitution node)
      | .prior position index node =>
          .step (fun frame scope => frame.resolvePrior scope position index node)
      | .call node => .resolveCall resolveHere node
      | .subquery position statement => .resolveSubquery resolveHere position statement
      | .math operator left right => do
          let left ← resolveHere left
          let right ← resolveHere right
          return .math operator left right expression.position .object
      | .compare operator left right => do
          let left ← resolveHere left
          let right ← resolveHere right
          return .compare operator left right expression.position
      | .and left right => do
          let left ← resolveHere left
          let right ← resolveHere right
          return .and left right
      | .or left right => do
          let left ← resolveHere left
          let right ← resolveHere right
          return .or left right
      | .not inner => do
          let inner ← resolveHere inner
          return .not inner

end EventQuery
