import EventQuery.Proofs.Order.Answers
import EventQuery.Proofs.Order.Thorough

set_option autoImplicit false

/-! What is resolved under one order is resolved under every other thorough order, to the same
trees and with the same progress; only the trace is not the same. -/

namespace EventQuery

open Resolution

def Frame.reordered (frame : Frame) (order : Nat → List Nat) : Frame :=
  { frame with order := order }

def CompilerMemory.retold (memory : CompilerMemory) (trace : List TraceEntry) : CompilerMemory :=
  { memory with workshop := { memory.workshop with trace := trace } }

def Progress.retold (progress : Progress) (trace : List TraceEntry) : Progress :=
  { progress with memory := progress.memory.retold trace }

section

variable {frame : Frame} {before after : Progress}

theorem Resolution.Local.retold {α : Type} {action : Resolution α} {value : α}
    (apart : Local action) (run : Yields action before value after) (trace : List TraceEntry) :
    Yields action (before.retold trace) value (after.retold trace) := by
  obtain ⟨calls, forges, workshop⟩ := apart.kept before
  have moved := apart before before.calls before.symbols.forges
    { before.memory.workshop with trace := trace }
  unfold Yields at run ⊢
  rw [run] at calls forges workshop moved
  dsimp only at calls forges workshop moved
  have same : after.among before.calls before.symbols.forges
      { before.memory.workshop with trace := trace } = after.retold trace := by
    rw [← calls, ← forges, ← workshop]
    rfl
  rw [same] at moved
  exact moved

theorem Services.createForge_retold {services : Services} {family : FunctionFamily}
    {workshop later : Workshop} {forge : Forge}
    (created : services.createForge family workshop = (.ok forge, later))
    (trace : List TraceEntry) :
    ∃ others, services.createForge family { workshop with trace := trace } =
      (.ok forge, { later with trace := others }) := by
  unfold Services.createForge at created ⊢
  cases known : services.factories.lookup family.factory with
  | none =>
      rw [known] at created
      cases created
  | some factory =>
      rw [known] at created
      unfold Workshop.create at created ⊢
      cases made : factory.create family with
      | error failure =>
          simp only [made] at created
          cases created
      | ok behaviour =>
          simp only [made] at created ⊢
          cases created
          exact ⟨_, rfl⟩

theorem Frame.resolveForge_reordered {family : FunctionFamily} {position : Option Position}
    {forge : Forge} (run : Yields (frame.resolveForge family position) before forge after)
    (order : Nat → List Nat) (trace : List TraceEntry) :
    ∃ others, Yields ((frame.reordered order).resolveForge family position)
      (before.retold trace) forge (after.retold others) := by
  rcases yields_resolveForge_iff.mp run with ⟨registered, rfl⟩ | ⟨free, workshop, created, rfl⟩
  · exact ⟨trace, yields_resolveForge_iff.mpr (.inl ⟨registered, rfl⟩)⟩
  · obtain ⟨others, createdAgain⟩ := Services.createForge_retold created trace
    exact ⟨others, yields_resolveForge_iff.mpr (.inr ⟨free, _, createdAgain, rfl⟩)⟩

theorem conclude_reordered (steady : before.Steady) {statement : Statement}
    {clauses : ResolvedClauses} {spec : StatementSpec}
    (run : Yields (frame.conclude statement clauses) before spec after) {order : Nat → List Nat}
    (once : (order before.calls.sites.length).Perm (List.range before.calls.sites.length))
    (trace : List TraceEntry) :
    ∃ later others, Yields ((frame.reordered order).conclude statement clauses)
        (before.retold trace) spec later ∧
      later.symbols = after.symbols ∧ later.memory = after.memory.retold others := by
  obtain ⟨handlers, typed, aggregated, filled, rfl⟩ := yields_conclude_iff.mp run
  obtain ⟨accepted, phase, entries, rfl⟩ := accepted_of_yields_runAggregations steady.calls aggregated
  have steadyAgain : (before.retold trace).Steady := steady.of_kept rfl rfl
  obtain ⟨phaseAgain, told, found⟩ := @yields_runAggregations_of_accepted (frame.reordered order)
    (before.retold trace) steadyAgain.calls once handlers accepted
  refine ⟨{ before.retold trace with
    calls := { before.calls with phase := phaseAgain }
    memory := { before.memory with workshop := (before.retold trace).memory.workshop.told told } },
    trace ++ told, ?_, rfl, rfl⟩
  exact yields_conclude_iff.mpr ⟨handlers, typed, found, filled, rfl⟩

end

/-- Each expression of a list is visited thoroughly when those before it are resolved. -/
def ThoroughAlong (frame : Frame) (items : List (Scope × Expression)) (before : Progress)
    (trees : List Resolved) : Prop :=
  ∀ done scope expression rest earlier later between,
    items = done ++ (scope, expression) :: rest → trees = earlier ++ later →
    ResolvesAll frame done before earlier between →
    Visit.Thorough ⟨frame, scope, expression, between⟩

section

variable {frame : Frame} {scope : Scope} {before : Progress} {trees : List Resolved}

theorem ThoroughAlong.head {expression : Expression} {items : List (Scope × Expression)}
    (along : ThoroughAlong frame ((scope, expression) :: items) before trees) :
    Visit.Thorough ⟨frame, scope, expression, before⟩ :=
  along [] scope expression items [] trees before rfl rfl .nil

theorem ThoroughAlong.tail {expression : Expression} {items : List (Scope × Expression)}
    {tree : Resolved} {between : Progress}
    (along : ThoroughAlong frame ((scope, expression) :: items) before (tree :: trees))
    (head : Resolves frame scope expression before tree between) :
    ThoroughAlong frame items between trees := by
  intro done other part rest earlier later further split found derived
  apply along ((scope, expression) :: done) other part rest (tree :: earlier) later further
  · rw [split, List.cons_append]
  · rw [found, List.cons_append]
  · exact .cons head derived

theorem ThoroughAlong.each {expressions : List Expression}
    (each : ∀ done expression rest earlier later between,
      expressions = done ++ expression :: rest → trees = earlier ++ later →
      ResolvesAll frame (scope.each done) before earlier between →
      Visit.Thorough ⟨frame, scope, expression, between⟩) :
    ThoroughAlong frame (scope.each expressions) before trees := by
  intro done other expression rest earlier later between split found derived
  obtain ⟨front, back, rfl, rfl, tail⟩ := List.map_eq_append_iff.mp split
  obtain ⟨_, more, rfl, same, rfl⟩ := List.map_eq_cons_iff.mp tail
  cases same
  exact each front expression more earlier later between rfl found derived

end

namespace Visit.Thorough

variable {frame : Frame} {scope : Scope} {before : Progress} {trees : List Resolved}

theorem operands {expression : Expression} {done rest : List Expression}
    (thorough : Visit.Thorough ⟨frame, scope, expression, before⟩)
    (whole : expression.operands = done ++ rest) :
    ThoroughAlong frame (scope.each done) before trees :=
  .each fun _ _ late _ _ _ split _ derived =>
    thorough.of_leads (@Leads.operand _ _ _ _ _ _ (late ++ rest) _ _
      (by rw [whole, split, List.append_assoc, List.cons_append]) derived)

theorem left {expression left : Expression} {rest : List Expression}
    (thorough : Visit.Thorough ⟨frame, scope, expression, before⟩)
    (operands : expression.operands = left :: rest) :
    Visit.Thorough ⟨frame, scope, left, before⟩ :=
  thorough.of_leads (@Leads.operand _ _ _ _ [] _ _ _ _ operands .nil)

theorem right {expression left right : Expression} {tree : Resolved} {between : Progress}
    (thorough : Visit.Thorough ⟨frame, scope, expression, before⟩)
    (operands : expression.operands = [left, right])
    (first : Resolves frame scope left before tree between) :
    Visit.Thorough ⟨frame, scope, right, between⟩ :=
  thorough.of_leads (@Leads.operand _ _ _ _ [left] _ _ _ _ operands (.cons first .nil))

theorem keys {node : TableAccess} {table : TableDefinition} {done rest : List Expression}
    {columns : List String} {keys : List Resolved}
    (thorough : Visit.Thorough ⟨frame, scope, .table node, before⟩)
    (known : frame.services.table? node.table = some table)
    (paired : node.keys.length = table.keys.length) (whole : node.keys = done ++ rest)
    (first : columns <+: table.keys) (checked : CheckedKeys node table columns trees keys) :
    ThoroughAlong frame (scope.each done) before trees := by
  apply ThoroughAlong.each
  intro early key late earlier later between split found derived
  rw [found] at checked
  obtain ⟨some, seen, isFirst, checkedEarly⟩ := checked.of_append
  exact thorough.of_leads (@Leads.key _ _ _ _ _ _ _ (late ++ rest) _ _ _ _ known paired
    (by rw [whole, split, List.append_assoc, List.cons_append]) (isFirst.trans first) derived
    checkedEarly)

section

variable {node : FunctionCall} {done rest : List Expression}
  (thorough : Visit.Thorough ⟨frame, scope, .call node, before⟩)
  (whole : node.parameters = done ++ rest)

include thorough whole

theorem arguments {declaration : Declaration}
    (declared : frame.declaration? before.symbols node.name = some declaration)
    (paired : declaration.parameters.length = node.parameters.length)
    (unexpanded : node.name ∉ scope.expanding) :
    ThoroughAlong frame (scope.each done) before trees :=
  .each fun _ _ late _ _ _ split _ derived =>
    thorough.of_leads (@Leads.argument _ _ _ _ _ _ _ (late ++ rest) _ _ declared paired unexpanded
      (by rw [whole, split, List.append_assoc, List.cons_append]) derived)

theorem scriptArguments {script : Script}
    (undeclared : frame.declaration? before.symbols node.name = none)
    (found : before.symbols.script? node.name node.parameters.length = some script) :
    ThoroughAlong frame (scope.each done) before trees :=
  .each fun _ _ late _ _ _ split _ derived =>
    thorough.of_leads (@Leads.scriptArgument _ _ _ _ _ _ _ (late ++ rest) _ _ undeclared found
      (by rw [whole, split, List.append_assoc, List.cons_append]) derived)

theorem parameters {family : FunctionFamily} {forge : Forge} {inner : Progress}
    {parameters : List AggregationParameter}
    (undeclared : frame.declaration? before.symbols node.name = none)
    (unscripted : before.symbols.scripts.any (fun script => script.name = node.name) = false)
    (known : frame.services.family? node.name = some family)
    (notFilter : scope.clause ≠ .filter) (notGroupBy : scope.clause ≠ .groupBy)
    (outside : scope.inAggregation = false)
    (created : Yields (frame.resolveForge family node.position) before forge inner)
    (seen : SeenAs trees parameters) :
    ThoroughAlong frame (scope.aggregated.each done) inner trees := by
  apply ThoroughAlong.each
  intro early parameter late earlier later between split found derived
  rw [found] at seen
  obtain ⟨_, seenEarly⟩ := seen.of_append
  exact thorough.of_leads (.parameter (@Passes.intro _ _ _ _ _ _ _ _ _ (late ++ rest) _ _ _
    undeclared unscripted known notFilter notGroupBy outside created
    (by rw [whole, split, List.append_assoc, List.cons_append]) derived seenEarly))

end

end Visit.Thorough

theorem Undertaking.Thorough.items {undertaking : Undertaking} {streams : List StreamBinding}
    {done rest : List (Scope × Expression)} {trees : List EventQuery.Resolved}
    (thorough : undertaking.Thorough)
    (bound : bindStreams undertaking.services.registry [] undertaking.statement.streams =
      .ok streams)
    (whole : undertaking.statement.items = done ++ rest) :
    ThoroughAlong (.ofStatement undertaking.services undertaking.order undertaking.isSubquery
      undertaking.statement streams) done undertaking.opening trees := by
  intro early scope expression late earlier later between split _ derived inner meets
  have entered : undertaking.statement.items = early ++ (scope, expression) :: (late ++ rest) := by
    rw [whole, split, List.append_assoc, List.cons_append]
  exact thorough.of_enters (.intro bound entered derived) meets

mutual

theorem Resolves.reordered {order : Nat → List Nat} {frame : Frame} {scope : Scope}
    {expression : Expression} {tree : Resolved} {before after : Progress} :
    Resolves frame scope expression before tree after → frame.services.Steady → before.Steady →
      ∀ trace, Visit.Thorough ⟨frame.reordered order, scope, expression, before.retold trace⟩ →
        ∃ others, Resolves (frame.reordered order) scope expression (before.retold trace) tree
          (after.retold others)
  | .constant, _, _, trace, _ => ⟨trace, .constant⟩
  | .property run, _, _, trace, _ =>
      ⟨trace, .property ((frame.local_resolveProperty _ _).retold run trace)⟩
  | .wildcard run, _, _, trace, _ =>
      ⟨trace, .wildcard ((frame.local_resolveWildcard _ _ _).retold run trace)⟩
  | .substitution run, _, _, trace, _ =>
      ⟨trace, .substitution ((frame.local_resolveSubstitution _).retold run trace)⟩
  | .prior run, _, _, trace, _ =>
      ⟨trace, .prior ((frame.local_resolvePrior _ _ _ _).retold run trace)⟩
  | .table known paired given checked typed, services, steady, trace, thorough => by
      obtain ⟨others, again⟩ := given.reordered services steady trace
        (thorough.keys known paired (List.append_nil _).symm (List.prefix_refl _) checked)
      exact ⟨others, @Resolves.table (frame.reordered order) _ _ _ _ _ _ _ _ known paired again
        checked typed⟩
  | .declared declared arity unexpanded given inner, services, steady, trace, thorough => by
      obtain ⟨told, again⟩ := given.reordered services steady trace
        (thorough.arguments (List.append_nil _).symm declared arity unexpanded)
      obtain ⟨others, inside⟩ := inner.reordered services (given.employs services steady) told
        (thorough.of_leads (.body declared arity unexpanded again))
      exact ⟨others, .declared declared arity unexpanded again inside⟩
  | .script undeclared found given, services, steady, trace, thorough => by
      obtain ⟨others, again⟩ := given.reordered services steady trace
        (thorough.scriptArguments (List.append_nil _).symm undeclared found)
      exact ⟨others, .script undeclared found again⟩
  | .aggregation undeclared unscripted known notFilter notGroupBy outside created given seen
      added, services, steady, trace, thorough => by
      obtain ⟨told, createdAgain⟩ := Frame.resolveForge_reordered created order trace
      obtain ⟨others, again⟩ := given.reordered services (steady.of_resolveForge services created)
        told (thorough.parameters (List.append_nil _).symm undeclared unscripted known notFilter
          notGroupBy outside createdAgain seen)
      exact ⟨others, @Resolves.aggregation (frame.reordered order) _ _ _ _
        (before.retold trace) _ _ _ _ _ _ undeclared unscripted known notFilter notGroupBy outside
        createdAgain again seen added⟩
  | @Resolves.subquery _ _ position _ _ _ _ single compiled, services, steady, trace,
      thorough => by
      obtain ⟨inner, others, again, symbols, memory⟩ :=
        compiled.reordered rfl services trace (thorough.subquery single 0)
      have derived := @Resolves.subquery (frame.reordered order) scope position _
        (before.retold trace) _ _ single again
      rw [symbols, memory] at derived
      exact ⟨others, derived⟩
  | .math left right, services, steady, trace, thorough => by
      obtain ⟨told, first⟩ := left.reordered services steady trace (thorough.left rfl)
      obtain ⟨others, second⟩ := right.reordered services (left.employs services steady) told
        (thorough.right rfl first)
      exact ⟨others, .math first second⟩
  | .compare left right, services, steady, trace, thorough => by
      obtain ⟨told, first⟩ := left.reordered services steady trace (thorough.left rfl)
      obtain ⟨others, second⟩ := right.reordered services (left.employs services steady) told
        (thorough.right rfl first)
      exact ⟨others, .compare first second⟩
  | .and left right, services, steady, trace, thorough => by
      obtain ⟨told, first⟩ := left.reordered services steady trace (thorough.left rfl)
      obtain ⟨others, second⟩ := right.reordered services (left.employs services steady) told
        (thorough.right rfl first)
      exact ⟨others, .and first second⟩
  | .or left right, services, steady, trace, thorough => by
      obtain ⟨told, first⟩ := left.reordered services steady trace (thorough.left rfl)
      obtain ⟨others, second⟩ := right.reordered services (left.employs services steady) told
        (thorough.right rfl first)
      exact ⟨others, .or first second⟩
  | .not inner, services, steady, trace, thorough => by
      obtain ⟨others, again⟩ := inner.reordered services steady trace (thorough.left rfl)
      exact ⟨others, .not again⟩

theorem ResolvesAll.reordered {order : Nat → List Nat} {frame : Frame}
    {items : List (Scope × Expression)} {trees : List Resolved} {before after : Progress} :
    ResolvesAll frame items before trees after → frame.services.Steady → before.Steady →
      ∀ trace, ThoroughAlong (frame.reordered order) items (before.retold trace) trees →
        ∃ others, ResolvesAll (frame.reordered order) items (before.retold trace) trees
          (after.retold others)
  | .nil, _, _, trace, _ => ⟨trace, .nil⟩
  | .cons head tail, services, steady, trace, along => by
      obtain ⟨told, first⟩ := head.reordered services steady trace along.head
      obtain ⟨others, rest⟩ := tail.reordered services (head.employs services steady) told
        (along.tail first)
      exact ⟨others, .cons first rest⟩

theorem Compiles.reordered {services : Services} {order other : Nat → List Nat}
    {isSubquery : Bool} {statement : Statement} {symbols : SymbolContext} {memory : CompilerMemory}
    {spec : StatementSpec} {after : Progress} {fuel : Nat} :
    Compiles services order isSubquery statement symbols memory spec after → symbols = .empty →
      services.Steady → ∀ trace,
        Undertaking.Thorough ⟨services, other, isSubquery, statement, memory.retold trace, fuel⟩ →
        ∃ later others,
          Compiles services other isSubquery statement .empty (memory.retold trace) spec later ∧
            later.symbols = after.symbols ∧ later.memory = after.memory.retold others
  | @Compiles.intro _ _ _ _ _ _ streams clauses between _ _ bound given shaped concluded, same,
      steady, trace, thorough => by
      have opened : (Progress.opening statement symbols memory).Steady := by
        rw [same]
        exact .opening statement memory
      have along : ThoroughAlong (.ofStatement services other isSubquery statement streams)
          statement.items (.opening statement symbols (memory.retold trace)) clauses.trees := by
        subst same
        exact thorough.items bound (List.append_nil _).symm
      obtain ⟨told, again⟩ := given.reordered steady opened trace along
      have collected := given.employs steady opened
      subst same
      let undertaking : Undertaking :=
        ⟨services, other, isSubquery, statement, memory.retold trace, fuel⟩
      have frame : undertaking.frame = .ofStatement services other isSubquery statement streams :=
        Undertaking.frame_of_bound bound
      have derived : ResolvesAll undertaking.frame statement.items undertaking.opening
          clauses.trees (between.retold told) := by
        rw [frame]
        exact again
      have once := thorough.once bound derived shaped
      obtain ⟨later, others, finished, symbols, memory⟩ :=
        conclude_reordered collected concluded once told
      exact ⟨later, others, .intro bound again shaped finished, symbols, memory⟩

end

end EventQuery
