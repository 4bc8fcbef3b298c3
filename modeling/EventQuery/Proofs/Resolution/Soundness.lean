import EventQuery.Compile
import EventQuery.Proofs.Resolution.Inversion

set_option autoImplicit false

/-! The rules derive whatever a run yields. -/

namespace EventQuery

open Resolution

def Resolver.Sound (resolver : Resolver) : Prop :=
  ∀ ⦃frame scope expression before tree after⦄,
    Yields (resolver frame scope expression) before tree after →
      Resolves frame scope expression before tree after

namespace Resolver.Sound

variable {resolver : Resolver} (sound : resolver.Sound)

include sound

theorem resolvesAll {frame : Frame} {items : List (Scope × Expression)} {trees : List Resolved}
    {before after : Progress}
    (run : Yields (items.mapM (fun item => resolver frame item.1 item.2)) before trees after) :
    ResolvesAll frame items before trees after := by
  induction items generalizing before trees with
  | nil =>
      obtain ⟨rfl, rfl⟩ := yields_mapM_nil_iff.mp run
      exact .nil
  | cons item items ih =>
      obtain ⟨tree, between, trees, head, tail, rfl⟩ := yields_mapM_cons_iff.mp run
      exact .cons (sound head) (ih tail)

theorem resolvesEach {frame : Frame} {scope : Scope} {expressions : List Expression}
    {trees : List Resolved} {before after : Progress}
    (run : Yields (expressions.mapM (resolver frame scope)) before trees after) :
    ResolvesAll frame (scope.each expressions) before trees after :=
  sound.resolvesAll (yields_each_iff.mpr run)

theorem compiles {services : Services} {order : Nat → List Nat} {isSubquery : Bool}
    {statement : Statement} {symbols gathered : SymbolContext} {memory memory' : CompilerMemory}
    {spec : StatementSpec}
    (compiled : compileStatement resolver services order isSubquery statement symbols memory =
      (.ok (spec, gathered), memory')) :
    ∃ finish, Compiles services order isSubquery statement symbols memory spec finish ∧
      gathered = finish.symbols ∧ memory' = finish.memory := by
  obtain ⟨streams, finish, bound, whole, symbolsAt, memoryAt⟩ :=
    compileStatement_ok_iff.mp compiled
  obtain ⟨clauses, between, first, concluded⟩ := yields_bind_iff.mp whole
  obtain ⟨run, shaped⟩ := yields_resolveClauses_iff.mp first
  exact ⟨finish, .intro bound (sound.resolvesAll run) shaped concluded, symbolsAt, memoryAt⟩

theorem call {frame : Frame} {scope : Scope} {node : FunctionCall} {tree : Resolved}
    {before after : Progress}
    (run : Yields (frame.resolveCall (resolver frame) scope node) before tree after) :
    Resolves frame scope (.call node) before tree after := by
  rcases yields_resolveCall_iff.mp run with ⟨declaration, declared, expanded⟩ |
    ⟨script, arguments, undeclared, found, given, rfl⟩ |
    ⟨family, undeclared, unscripted, known, aggregated⟩
  · obtain ⟨arguments, between, body, arity, unexpanded, given, inner, rfl⟩ :=
      yields_resolveDeclared_iff.mp expanded
    exact .declared declared arity unexpanded (sound.resolvesEach given) (sound inner)
  · exact .script undeclared found (sound.resolvesEach given)
  · obtain ⟨forge, between, trees, parameters, inner, site, calls, notFilter, notGroupBy, outside,
      created, given, seen, added, rfl, rfl⟩ := yields_resolveAggregation_iff.mp aggregated
    exact .aggregation undeclared unscripted known notFilter notGroupBy outside created
      (sound.resolvesEach given) seen added

theorem table {frame : Frame} {scope : Scope} {node : TableAccess} {tree : Resolved}
    {before after : Progress}
    (run : Yields (frame.resolveTable (resolver frame scope) node) before tree after) :
    Resolves frame scope (.table node) before tree after := by
  obtain ⟨table, trees, keys, type, between, known, paired, given, checked, typed, rfl, rfl⟩ :=
    yields_resolveTable_iff.mp run
  exact .table known paired (sound.resolvesEach given) checked typed

theorem subquery {frame : Frame} {scope : Scope} {position : Option Position}
    {statement : Statement} {tree : Resolved} {before after : Progress}
    (run : Yields (frame.resolveSubquery resolver position statement) before tree after) :
    Resolves frame scope (.subquery position statement) before tree after := by
  obtain ⟨spec, symbols, memory, single, compiled, rfl, rfl⟩ := yields_resolveSubquery_iff.mp run
  obtain ⟨inner, derived, rfl, rfl⟩ := sound.compiles compiled
  exact .subquery single derived

end Resolver.Sound

/-- Whatever is yielded with some fuel is derived by the rules. -/
theorem resolve_sound (fuel : Nat) : (resolve .spent fuel).Sound := by
  induction fuel with
  | zero =>
      intro frame scope expression before tree after run
      exact absurd run not_yields_throw
  | succ fuel ih =>
      intro frame scope expression before tree after run
      cases expression with
      | constant position value =>
          obtain ⟨rfl, rfl⟩ := yields_pure_iff.mp run
          exact .constant
      | property node => exact .property run
      | wildcard position stream => exact .wildcard run
      | table node => exact ih.table run
      | substitution node => exact .substitution run
      | prior position index node => exact .prior run
      | call node => exact ih.call run
      | subquery position statement => exact ih.subquery run
      | math operator left right =>
          simp only [resolve, yields_bind_iff, yields_pure_iff] at run
          obtain ⟨leftTree, between, leftRun, rightTree, _, rightRun, rfl, rfl⟩ := run
          exact .math (ih leftRun) (ih rightRun)
      | compare operator left right =>
          simp only [resolve, yields_bind_iff, yields_pure_iff] at run
          obtain ⟨leftTree, between, leftRun, rightTree, _, rightRun, rfl, rfl⟩ := run
          exact .compare (ih leftRun) (ih rightRun)
      | and left right =>
          simp only [resolve, yields_bind_iff, yields_pure_iff] at run
          obtain ⟨leftTree, between, leftRun, rightTree, _, rightRun, rfl, rfl⟩ := run
          exact .and (ih leftRun) (ih rightRun)
      | or left right =>
          simp only [resolve, yields_bind_iff, yields_pure_iff] at run
          obtain ⟨leftTree, between, leftRun, rightTree, _, rightRun, rfl, rfl⟩ := run
          exact .or (ih leftRun) (ih rightRun)
      | not inner =>
          simp only [resolve, yields_bind_iff, yields_pure_iff] at run
          obtain ⟨innerTree, _, innerRun, rfl, rfl⟩ := run
          exact .not (ih innerRun)

theorem Services.compileWith_ok_iff {services : Services} {order : Nat → List Nat}
    {statement : Statement} {symbols : SymbolContext} {memory : CompilerMemory}
    {spec : StatementSpec} :
    (services.compileWith order statement symbols memory).result = .ok spec ↔
      ∃ bare gathered later,
        compileStatement (resolve .spent (services.fuelFor statement symbols + Services.advance))
          services order false statement symbols memory = (.ok (bare, gathered), later) ∧
        spec = gathered.foldInto bare := by
  rw [Services.compileWith_eq_compileWithin]
  unfold Services.compileWithin Services.compileBy
  rcases compileStatement (resolve .spent (services.fuelFor statement symbols + Services.advance))
    services order false statement symbols memory with ⟨(failure | _) | ⟨bare, gathered⟩, later⟩ <;>
    simp [eq_comm]

theorem compiles_remembering {services : Services} {order : Nat → List Nat}
    {statement : Statement} {symbols : SymbolContext} {memory : CompilerMemory}
    {spec : StatementSpec}
    (compiled : (services.compileWith order statement symbols memory).result = .ok spec) :
    ∃ bare finish, Compiles services order false statement symbols memory bare finish ∧
      spec = finish.symbols.foldInto bare ∧
      (services.compileWith order statement symbols memory).memory = finish.memory := by
  rw [Services.compileWith_eq_compileWithin] at compiled ⊢
  unfold Services.compileWithin Services.compileBy at compiled ⊢
  cases run : compileStatement (resolve .spent (services.fuelFor statement symbols +
      Services.advance)) services order false statement symbols memory with
  | mk result memory' =>
      rw [run] at compiled
      cases result with
      | ok gathered =>
          obtain ⟨finish, derived, symbolsAt, memoryAt⟩ := (resolve_sound _).compiles run
          cases compiled
          exact ⟨_, finish, derived, by rw [symbolsAt], memoryAt⟩
      | error fault =>
          cases fault with
          | refused failure => cases compiled
          | unfinished => cases compiled

theorem compiles_of_compileWith {services : Services} {order : Nat → List Nat}
    {statement : Statement} {symbols : SymbolContext} {memory : CompilerMemory}
    {spec : StatementSpec}
    (compiled : (services.compileWith order statement symbols memory).result = .ok spec) :
    ∃ bare finish, Compiles services order false statement symbols memory bare finish ∧
      spec = finish.symbols.foldInto bare := by
  obtain ⟨bare, finish, derived, folded, _⟩ := compiles_remembering compiled
  exact ⟨bare, finish, derived, folded⟩

end EventQuery
