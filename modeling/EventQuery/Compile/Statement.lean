import EventQuery.Compile.Resolution

set_option autoImplicit false

/-! Compilation of one statement, given how an expression is resolved. First the expressions of
all clauses are resolved in the order of the text, then the aggregation calls are declared and
validated, and last the types are filled in and checked. -/

namespace EventQuery

open Resolution

/-- The streams of a statement, bound to their event types under different names. -/
def bindStreams (registry : Registry) :
    List StreamBinding → List StreamSource → Except LocatedError (List StreamBinding)
  | bound, [] => .ok bound
  | bound, source :: rest =>
      match registry.resolve source.eventType with
      | .error failure => .error ⟨failure, source.position⟩
      | .ok type =>
          if bound.any (fun stream => stream.name = source.name) then
            .error ⟨.notAllowed (.repeatedStreamName source.name), source.position⟩
          else
            bindStreams registry (bound ++ [⟨source.name, type⟩]) rest

structure ResolvedClauses where
  select : List SelectColumn
  filter : Option Resolved
  groupBy : List Resolved
  having : Option Resolved

def resolveClauses (resolve : Scope → Expression → Resolution Resolved) (statement : Statement) :
    Resolution ResolvedClauses := do
  let select ← statement.select.zipIdx.mapM (fun (item, index) => do
    let expression ← resolve (.ofClause .select) item.expression
    return SelectColumn.mk (item.rename.getD (item.expression.columnName index)) expression)
  let filter ← statement.filter.mapM (resolve (.ofClause .filter))
  let groupBy ← statement.groupBy.mapM (resolve (.ofClause .groupBy))
  let having ← statement.having.mapM (resolve (.ofClause .having))
  return ⟨select, filter, groupBy, having⟩

def runAggregations (frame : Frame) : Resolution (List Handler) := do
  let progress ← get
  let order := frame.order progress.calls.sites.length
  match progress.calls.declare progress.memory.workshop frame.statement order with
  | .error failure => refuse failure none
  | .ok (calls, workshop) =>
      let streams := frame.streams.map StreamBinding.type
      let (result, calls, workshop) :=
        calls.validate workshop frame.statement order streams frame.services.registry
      set { progress with
        calls := calls, memory := { progress.memory with workshop := workshop } }
      match result with
      | .ok handlers => return handlers
      | .error failure =>
          refuse failure.error ((calls.sites[failure.site]?).bind (fun site => site.node.position))

/-- A clause with its types filled in; it must be a truth value. -/
def typedCondition (handlers : List Handler) (clause : Clause) :
    Option Resolved → Except LocatedError (Option Resolved)
  | none => .ok none
  | some condition => do
      let condition ← condition.typed handlers
      if condition.valueType.isCondition then
        return some condition
      else
        throw ⟨.typeMismatch clause.name (.condition clause condition.valueType), none⟩

def typedColumns (handlers : List Handler) :
    List SelectColumn → Except LocatedError (List SelectColumn)
  | [] => .ok []
  | column :: rest => do
      let expression ← column.expression.typed handlers
      let rest ← typedColumns handlers rest
      return ⟨column.name, expression⟩ :: rest

def ResolvedClauses.typed (clauses : ResolvedClauses) (handlers : List Handler) :
    Except LocatedError ResolvedClauses := do
  let select ← typedColumns handlers clauses.select
  let groupBy ← Resolved.typedAll handlers clauses.groupBy
  let filter ← typedCondition handlers .filter clauses.filter
  let having ← typedCondition handlers .having clauses.having
  return ⟨select, filter, groupBy, having⟩

/-- The slots of the calls after some slots were assigned. A call takes the first slot with the
state key of its handler, or else a new one. -/
def assignSlots : List StateSlot → List (CallSite × Handler) →
    List CompiledAggregation × List StateSlot
  | slots, [] => ([], slots)
  | slots, (site, handler) :: rest =>
      let compiled (slot : Nat) : CompiledAggregation :=
        ⟨site.node.name, site.key, handler, slot⟩
      match slots.findIdx? (fun slot => slot.key = handler.stateKey) with
      | some slot =>
          let (aggregations, slots) := assignSlots slots rest
          (compiled slot :: aggregations, slots)
      | none =>
          let (aggregations, extended) :=
            assignSlots (slots ++ [⟨handler.stateKey, handler.seed⟩]) rest
          (compiled slots.length :: aggregations, extended)

/-- The spec of a statement whose clauses are typed and whose aggregation calls have handlers,
without the symbols that were gathered for it. -/
def Frame.assemble (frame : Frame) (statement : Statement) (clauses : ResolvedClauses)
    (sites : List CallSite) (handlers : List Handler) (subqueries : List StatementSpec) :
    StatementSpec :=
  let (aggregations, states) := assignSlots [] (sites.zip handlers)
  { StatementSpec.named statement.name with
    text := if frame.services.attachText then statement.text else none
    streams := frame.streams
    select := clauses.select
    filter := clauses.filter
    groupBy := clauses.groupBy
    having := clauses.having
    aggregations := aggregations
    states := states
    subqueries := subqueries }

def Frame.conclude (frame : Frame) (statement : Statement) (clauses : ResolvedClauses) :
    Resolution StatementSpec := do
  let handlers ← runAggregations frame
  let clauses ← ofChecked (clauses.typed handlers)
  let progress ← get
  return frame.assemble statement clauses progress.calls.sites handlers progress.subqueries

def runStatement (resolve : Scope → Expression → Resolution Resolved) (frame : Frame)
    (statement : Statement) : Resolution StatementSpec := do
  frame.conclude statement (← resolveClauses resolve statement)

/-- The symbols at the start of a statement: those given to it, its context name, its
declarations and its scripts. -/
def SymbolContext.opened (symbols : SymbolContext) (statement : Statement) : SymbolContext :=
  statement.scripts.foldl SymbolContext.addScript
    ((symbols.setContextName statement.context).addDeclarations statement.declarations)

def Frame.ofStatement (services : Services) (order : Nat → List Nat) (isSubquery : Bool)
    (statement : Statement) (streams : List StreamBinding) : Frame :=
  ⟨services, order, statement.name, isSubquery, streams⟩

def Progress.opening (statement : Statement) (symbols : SymbolContext)
    (memory : CompilerMemory) : Progress :=
  ⟨symbols.opened statement, .empty, [], none, memory⟩

/-- Compiles a statement with some symbols given. On success the result holds the symbols
gathered as well; what was built and asked is kept in either case. -/
def compileStatement (resolve : Resolver) (services : Services) (order : Nat → List Nat)
    (isSubquery : Bool) (statement : Statement) (symbols : SymbolContext)
    (memory : CompilerMemory) :
    Except CompileFault (StatementSpec × SymbolContext) × CompilerMemory :=
  match bindStreams services.registry [] statement.streams with
  | .error failure => (.error (.refused failure), memory)
  | .ok streams =>
      let frame := Frame.ofStatement services order isSubquery statement streams
      let start := Progress.opening statement symbols memory
      match (runStatement (resolve frame) frame statement).run.run start with
      | (.ok spec, progress) => (.ok (spec, progress.symbols), progress.memory)
      | (.error fault, progress) => (.error fault, progress.memory)

end EventQuery
