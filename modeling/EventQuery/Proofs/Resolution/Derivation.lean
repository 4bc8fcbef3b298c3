import EventQuery.Proofs.Resolution.Runs
import Mathlib.Data.List.Forall2

set_option autoImplicit false

/-! Successful resolution as a system of rules. There is one rule for each way in which an
expression is resolved; fuel does not occur in it. `Proofs.Resolution.Soundness` and
`Proofs.Resolution.Fuel` show that the rules derive exactly what a run with enough fuel yields,
so a property of resolved statements is shown by induction on the rules. -/

namespace EventQuery

open Resolution

def Scope.each (scope : Scope) (expressions : List Expression) : List (Scope × Expression) :=
  expressions.map (fun expression => (scope, expression))

theorem Scope.forall_each {holds : Scope → Prop} {scope : Scope} {expressions : List Expression}
    (here : holds scope) : ∀ item ∈ scope.each expressions, holds item.1 := by
  intro item member
  obtain ⟨_, _, rfl⟩ := List.mem_map.mp member
  exact here

theorem Scope.forall_entering {holds : Resolved → Prop} {scope : Scope} {name : String}
    {declaration : Declaration} {arguments : List Resolved} (each : ∀ tree ∈ arguments, holds tree) :
    ∀ entry ∈ (scope.entering name declaration arguments).bindings, holds entry.2 := by
  intro entry member
  exact each entry.2 (List.of_mem_zip (List.mem_reverse.mp member)).2

/-- The keys that some trees become for some key columns of a table. -/
inductive CheckedKeys (node : TableAccess) (table : TableDefinition) :
    List String → List Resolved → List Resolved → Prop
  | nil : CheckedKeys node table [] [] []
  | cons {column columns tree trees key keys} :
      Frame.checkedKey node table column tree = .ok key →
      CheckedKeys node table columns trees keys →
      CheckedKeys node table (column :: columns) (tree :: trees) (key :: keys)

theorem CheckedKeys.length_eq {node : TableAccess} {table : TableDefinition}
    {columns : List String} {trees keys : List Resolved}
    (checked : CheckedKeys node table columns trees keys) : trees.length = columns.length := by
  induction checked with
  | nil => rfl
  | cons _ _ ih => rw [List.length_cons, List.length_cons, ih]

/-- The parameters of an aggregation call as its family sees them. -/
def SeenAs (trees : List Resolved) (parameters : List AggregationParameter) : Prop :=
  List.Forall₂ (fun tree parameter => Frame.aggregationParameter tree = .ok parameter)
    trees parameters

/-- The expressions of a statement in the order of the text, each with the scope of its
clause. -/
def Statement.items (statement : Statement) : List (Scope × Expression) :=
  (Scope.ofClause .select).each (statement.select.map SelectItem.expression) ++
    (Scope.ofClause .filter).each statement.filter.toList ++
    (Scope.ofClause .groupBy).each statement.groupBy ++
    (Scope.ofClause .having).each statement.having.toList

theorem Statement.scope_of_mem_items {statement : Statement} {scope : Scope}
    {expression : Expression} (member : (scope, expression) ∈ statement.items) :
    ∃ clause, scope = .ofClause clause := by
  have each {clause : Clause} {expressions : List Expression}
      (inside : (scope, expression) ∈ (Scope.ofClause clause).each expressions) :
      ∃ clause, scope = .ofClause clause := by
    obtain ⟨_, _, same⟩ := List.mem_map.mp inside
    cases same
    exact ⟨clause, rfl⟩
  rcases List.mem_append.mp member with earlier | inHaving
  · rcases List.mem_append.mp earlier with earlier | inGroupBy
    · rcases List.mem_append.mp earlier with inSelect | inFilter
      · exact each inSelect
      · exact each inFilter
    · exact each inGroupBy
  · exact each inHaving

def Statement.selecting (name : String) (expression : Expression) : Statement :=
  ⟨name, none, none, [], [], [⟨expression, none⟩], [], none, [], none⟩

def Statement.columnNames (statement : Statement) : List String :=
  statement.select.zipIdx.map (fun (item, index) =>
    item.rename.getD (item.expression.columnName index))

def ResolvedClauses.trees (clauses : ResolvedClauses) : List Resolved :=
  clauses.select.map SelectColumn.expression ++ clauses.filter.toList ++ clauses.groupBy ++
    clauses.having.toList

/-- Which clauses there are and what the columns are called is as the statement has it. -/
structure ResolvedClauses.Shaped (clauses : ResolvedClauses) (statement : Statement) : Prop where
  select : clauses.select.map SelectColumn.name = statement.columnNames
  filter : clauses.filter.toList.length = statement.filter.toList.length
  groupBy : clauses.groupBy.length = statement.groupBy.length
  having : clauses.having.toList.length = statement.having.toList.length

mutual

/-- An expression at a place in a statement is resolved to a tree, from one progress to
another. -/
inductive Resolves : Frame → Scope → Expression → Progress → Resolved → Progress → Prop
  | constant {frame scope position value before} :
      Resolves frame scope (.constant position value) before (.constant value) before
  | property {frame scope node before tree after} :
      Yields (frame.resolveProperty scope node) before tree after →
      Resolves frame scope (.property node) before tree after
  | wildcard {frame scope position stream before tree after} :
      Yields (frame.resolveWildcard scope position stream) before tree after →
      Resolves frame scope (.wildcard position stream) before tree after
  | substitution {frame scope node before tree after} :
      Yields (frame.resolveSubstitution node) before tree after →
      Resolves frame scope (.substitution node) before tree after
  | prior {frame scope position index node before tree after} :
      Yields (frame.resolvePrior scope position index node) before tree after →
      Resolves frame scope (.prior position index node) before tree after
  | table {frame scope node table trees keys type before after} :
      frame.services.table? node.table = some table →
      node.keys.length = table.keys.length →
      ResolvesAll frame (scope.each node.keys) before trees after →
      CheckedKeys node table table.keys trees keys →
      Frame.accessedType node table = .ok type →
      Resolves frame scope (.table node) before (.table node keys type)
        { after with symbols := after.symbols.recordTable node }
  | declared {frame scope node declaration before arguments between body after} :
      frame.declaration? before.symbols node.name = some declaration →
      declaration.parameters.length = node.parameters.length →
      node.name ∉ scope.expanding →
      ResolvesAll frame (scope.each node.parameters) before arguments between →
      Resolves frame (scope.entering node.name declaration arguments) declaration.body
        between body after →
      Resolves frame scope (.call node) before (.declared node.name body) after
  | script {frame scope node script before arguments after} :
      frame.declaration? before.symbols node.name = none →
      before.symbols.script? node.name node.parameters.length = some script →
      ResolvesAll frame (scope.each node.parameters) before arguments after →
      Resolves frame scope (.call node) before (.script script arguments) after
  | aggregation {frame scope node family forge before between trees parameters after site calls} :
      frame.declaration? before.symbols node.name = none →
      before.symbols.scripts.any (fun script => script.name = node.name) = false →
      frame.services.family? node.name = some family →
      scope.clause ≠ .filter → scope.clause ≠ .groupBy → scope.inAggregation = false →
      Yields (frame.resolveForge family node.position) before forge between →
      ResolvesAll frame (scope.aggregated.each node.parameters) between trees after →
      SeenAs trees parameters →
      after.calls.add ⟨node, .ofFamily family, forge, family, parameters⟩ = .ok (site, calls) →
      Resolves frame scope (.call node) before (.aggregation site node.position none)
        { after with calls := calls }
  | subquery {frame scope position statement before spec inner} :
      statement.select.length = 1 →
      Compiles frame.services frame.order true statement .empty before.memory spec inner →
      Resolves frame scope (.subquery position statement) before
        (.subquery before.subqueries.length spec.columnType)
        (before.afterSubquery spec inner.symbols inner.memory)
  | math {frame scope operator left right before leftTree between rightTree after} :
      Resolves frame scope left before leftTree between →
      Resolves frame scope right between rightTree after →
      Resolves frame scope (.math operator left right) before
        (.math operator leftTree rightTree (Expression.math operator left right).position .object)
        after
  | compare {frame scope operator left right before leftTree between rightTree after} :
      Resolves frame scope left before leftTree between →
      Resolves frame scope right between rightTree after →
      Resolves frame scope (.compare operator left right) before
        (.compare operator leftTree rightTree (Expression.compare operator left right).position)
        after
  | and {frame scope left right before leftTree between rightTree after} :
      Resolves frame scope left before leftTree between →
      Resolves frame scope right between rightTree after →
      Resolves frame scope (.and left right) before (.and leftTree rightTree) after
  | or {frame scope left right before leftTree between rightTree after} :
      Resolves frame scope left before leftTree between →
      Resolves frame scope right between rightTree after →
      Resolves frame scope (.or left right) before (.or leftTree rightTree) after
  | not {frame scope inner before tree after} :
      Resolves frame scope inner before tree after →
      Resolves frame scope (.not inner) before (.not tree) after

inductive ResolvesAll :
    Frame → List (Scope × Expression) → Progress → List Resolved → Progress → Prop
  | nil {frame before} : ResolvesAll frame [] before [] before
  | cons {frame scope expression items before tree between trees after} :
      Resolves frame scope expression before tree between →
      ResolvesAll frame items between trees after →
      ResolvesAll frame ((scope, expression) :: items) before (tree :: trees) after

/-- A statement is compiled to a spec, which does not hold the symbols yet; these are in the
progress at the end. -/
inductive Compiles : Services → (Nat → List Nat) → Bool → Statement → SymbolContext →
    CompilerMemory → StatementSpec → Progress → Prop
  | intro {services order isSubquery statement symbols memory streams clauses between spec after} :
      bindStreams services.registry [] statement.streams = .ok streams →
      ResolvesAll (.ofStatement services order isSubquery statement streams) statement.items
        (.opening statement symbols memory) clauses.trees between →
      clauses.Shaped statement →
      Yields ((Frame.ofStatement services order isSubquery statement streams).conclude statement
        clauses) between spec after →
      Compiles services order isSubquery statement symbols memory spec after

end

end EventQuery
