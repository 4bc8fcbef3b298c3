import EventQuery.Aggregation.Recording
import EventQuery.Proofs.Nesting.Expansion
import EventQuery.Proofs.Specification.Closed
import EventQuery.Proofs.Specification.Placement
import Mathlib.Logic.Relation

set_option autoImplicit false

/-! What the clauses of a compiled statement hold. Every tree in a clause of a spec is what a tree
becomes that was admitted in that clause, also in the specs of subqueries; and
within one statement a place in a parameter of an aggregation call is never left downwards. -/

namespace EventQuery

open Resolution

inductive StatementSpec.Within : StatementSpec → StatementSpec → Prop
  | self {spec} : Within spec spec
  | subquery {inner middle spec} :
      middle ∈ spec.subqueries → Within inner middle → Within inner spec

def StatementSpec.CompiledWith (services : Services) (spec : StatementSpec) : Prop :=
  ∃ order isSubquery statement symbols memory bare finish,
    Compiles services order isSubquery statement symbols memory bare finish ∧
      spec = finish.symbols.foldInto bare

mutual

/-- Subqueries are added to a progress with the specs that they are compiled to, so what all such
specs have in common is true of every subquery of a statement. -/
theorem Resolves.subqueries {frame : Frame} {scope : Scope} {expression : Expression}
    {tree : Resolved} {before after : Progress} {holds : StatementSpec → Prop}
    (each : ∀ statement memory spec inner,
      Compiles frame.services frame.order true statement .empty memory spec inner →
        holds (inner.symbols.foldInto spec)) :
    Resolves frame scope expression before tree after →
      (∀ inner ∈ before.subqueries, holds inner) → ∀ inner ∈ after.subqueries, holds inner
  | .constant, earlier => earlier
  | .property run, earlier => by
      rwa [(Frame.undisturbed_of_resolveProperty run).subqueries]
  | .wildcard run, earlier => by rwa [(Frame.yields_resolveWildcard run).1]
  | .substitution run, earlier => by
      obtain ⟨_, _, rfl⟩ := Frame.yields_resolveSubstitution run
      exact earlier
  | .prior run, earlier => by
      rwa [(Frame.undisturbed_of_resolvePrior run).subqueries]
  | .table _ _ given _ _, earlier => by
      have all := given.subqueries each earlier
      exact all
  | .declared _ _ _ given inner, earlier =>
      inner.subqueries each (given.subqueries each earlier)
  | .script _ _ given, earlier => given.subqueries each earlier
  | .aggregation _ _ _ _ _ _ created given _ _, earlier => by
      rw [← (Frame.undisturbed_of_resolveForge created).subqueries] at earlier
      have all := given.subqueries each earlier
      exact all
  | .subquery _ derived, earlier => by
      intro inner member
      rcases List.mem_append.mp member with isEarlier | isLast
      · exact earlier inner isEarlier
      · rw [List.mem_singleton.mp isLast]
        exact each _ _ _ _ derived
  | .math left right, earlier => right.subqueries each (left.subqueries each earlier)
  | .compare left right, earlier => right.subqueries each (left.subqueries each earlier)
  | .and left right, earlier => right.subqueries each (left.subqueries each earlier)
  | .or left right, earlier => right.subqueries each (left.subqueries each earlier)
  | .not inner, earlier => inner.subqueries each earlier

theorem ResolvesAll.subqueries {frame : Frame} {items : List (Scope × Expression)}
    {trees : List Resolved} {before after : Progress} {holds : StatementSpec → Prop}
    (each : ∀ statement memory spec inner,
      Compiles frame.services frame.order true statement .empty memory spec inner →
        holds (inner.symbols.foldInto spec)) :
    ResolvesAll frame items before trees after →
      (∀ inner ∈ before.subqueries, holds inner) → ∀ inner ∈ after.subqueries, holds inner
  | .nil, earlier => earlier
  | .cons head tail, earlier => tail.subqueries each (head.subqueries each earlier)

end

theorem Compiles.subqueries {services : Services} {order : Nat → List Nat} {isSubquery : Bool}
    {statement : Statement} {symbols : SymbolContext} {memory : CompilerMemory}
    {spec : StatementSpec} {finish : Progress} (holds : StatementSpec → Prop)
    (each : ∀ statement memory spec inner,
      Compiles services order true statement .empty memory spec inner →
        holds (inner.symbols.foldInto spec))
    (derived : Compiles services order isSubquery statement symbols memory spec finish) :
    ∀ inner ∈ spec.subqueries, holds inner := by
  obtain ⟨_, given, _, concluded⟩ := derived
  obtain ⟨_, _, _, _, rfl, _⟩ := yields_conclude concluded
  exact given.subqueries each (List.forall_mem_nil _)

namespace StatementSpec

variable {services : Services} {spec inner : StatementSpec}

theorem CompiledWith.subquery (compiled : spec.CompiledWith services)
    (member : inner ∈ spec.subqueries) : inner.CompiledWith services := by
  obtain ⟨order, isSubquery, statement, symbols, memory, bare, finish, derived, rfl⟩ := compiled
  refine derived.subqueries (CompiledWith services) ?_ inner member
  intro statement memory spec finish derived
  exact ⟨_, _, _, _, _, _, _, derived, rfl⟩

theorem CompiledWith.within (compiled : spec.CompiledWith services) (within : inner.Within spec) :
    inner.CompiledWith services := by
  induction within with
  | self => exact compiled
  | subquery member _ ih => exact ih (compiled.subquery member)

end StatementSpec

theorem Services.compiledWith_of_compileWith {services : Services} {order : Nat → List Nat}
    {statement : Statement} {symbols : SymbolContext} {memory : CompilerMemory}
    {spec : StatementSpec}
    (compiled : (services.compileWith order statement symbols memory).result = .ok spec) :
    spec.CompiledWith services := by
  obtain ⟨bare, finish, derived, rfl⟩ := compiles_of_compileWith compiled
  exact ⟨_, _, _, _, _, _, _, derived, rfl⟩

def Statement.clause (statement : Statement) : Clause → List Expression
  | .select => statement.select.map SelectItem.expression
  | .filter => statement.filter.toList
  | .groupBy => statement.groupBy
  | .having => statement.having.toList

def ResolvedClauses.clause (clauses : ResolvedClauses) : Clause → List Resolved
  | .select => clauses.select.map SelectColumn.expression
  | .filter => clauses.filter.toList
  | .groupBy => clauses.groupBy
  | .having => clauses.having.toList

def StatementSpec.clause (spec : StatementSpec) : Clause → List Resolved
  | .select => spec.select.map SelectColumn.expression
  | .filter => spec.filter.toList
  | .groupBy => spec.groupBy
  | .having => spec.having.toList

theorem Resolved.mem_nodesOfAll_iff {node : Resolved} {trees : List Resolved} :
    node ∈ nodesOfAll trees ↔ ∃ tree ∈ trees, node ∈ tree.nodes := by
  induction trees with
  | nil => simp [nodesOfAll]
  | cons tree trees ih => simp [nodesOfAll, ih]

theorem Resolved.mem_nodesOfAll_append {node : Resolved} {trees others : List Resolved} :
    node ∈ nodesOfAll (trees ++ others) ↔ node ∈ nodesOfAll trees ∨ node ∈ nodesOfAll others := by
  simp only [mem_nodesOfAll_iff, List.mem_append, or_and_right, exists_or]

theorem StatementSpec.mem_nodes_iff {spec : StatementSpec} {node : Resolved} :
    node ∈ spec.nodes ↔ ∃ clause, node ∈ Resolved.nodesOfAll (spec.clause clause) := by
  simp only [nodes, clauses, Resolved.mem_nodesOfAll_append]
  constructor
  · rintro (((select | filter) | groupBy) | having)
    · exact ⟨.select, select⟩
    · exact ⟨.filter, filter⟩
    · exact ⟨.groupBy, groupBy⟩
    · exact ⟨.having, having⟩
  · rintro ⟨clause, member⟩
    cases clause with
    | select => exact .inl (.inl (.inl member))
    | filter => exact .inl (.inl (.inr member))
    | groupBy => exact .inl (.inr member)
    | having => exact .inr member

section

variable {services : Services} {statement : Statement} {clauses : ResolvedClauses}

private theorem forall₂_split {α β : Type} {related : α → β → Prop} {first second : List α}
    {left right : List β} (count : left.length = first.length)
    (all : List.Forall₂ related (first ++ second) (left ++ right)) :
    List.Forall₂ related first left ∧ List.Forall₂ related second right := by
  have early := List.forall₂_take first.length all
  have late := List.forall₂_drop first.length all
  rw [List.take_left' rfl, List.take_left' count] at early
  rw [List.drop_left' rfl, List.drop_left' count] at late
  exact ⟨early, late⟩

theorem ResolvesAll.admitted_clause {frame : Frame} {before after : Progress}
    (given : ResolvesAll frame statement.items before clauses.trees after)
    (shaped : clauses.Shaped statement) (clause : Clause) :
    ∀ tree ∈ clauses.clause clause, (Scope.ofClause clause).AdmitsAll frame.services tree := by
  have all := given.admitted Scope.settled_items
  have named := congrArg List.length shaped.select
  simp only [List.length_map, Statement.columnNames, List.length_zipIdx] at named
  obtain ⟨rest, having⟩ := forall₂_split (by
    simp only [Scope.each, List.length_append, List.length_map, named, shaped.filter,
      shaped.groupBy]) all
  obtain ⟨rest, groupBy⟩ := forall₂_split (by
    simp only [Scope.each, List.length_append, List.length_map, named, shaped.filter]) rest
  obtain ⟨select, filter⟩ := forall₂_split (by
    simp only [Scope.each, List.length_map, named]) rest
  cases clause with
  | select => exact Scope.admitsAll_each select
  | filter => exact Scope.admitsAll_each filter
  | groupBy => exact Scope.admitsAll_each groupBy
  | having => exact Scope.admitsAll_each having

end

section

variable {handlers : List Handler}

private theorem typedAll_of_typedColumns {columns typed : List SelectColumn}
    (filled : typedColumns handlers columns = .ok typed) :
    Resolved.typedAll handlers (columns.map SelectColumn.expression) =
      .ok (typed.map SelectColumn.expression) := by
  induction columns generalizing typed with
  | nil =>
      cases filled
      rfl
  | cons column columns ih =>
      simp only [typedColumns, Checked.bind_eq_ok_iff, Checked.pure_eq_ok_iff] at filled
      obtain ⟨expression, first, rest, others, rfl⟩ := filled
      exact Resolved.typedAll_cons_iff.mpr ⟨expression, _, first, ih others, rfl⟩

private theorem typedAll_of_typedCondition {clause : Clause} {condition typed : Option Resolved}
    (filled : typedCondition handlers clause condition = .ok typed) :
    Resolved.typedAll handlers condition.toList = .ok typed.toList ∧
      ∀ tree ∈ typed.toList, tree.valueType.isCondition = true := by
  cases condition with
  | none =>
      cases filled
      exact ⟨rfl, List.forall_mem_nil _⟩
  | some tree =>
      obtain ⟨tree', first, rest⟩ := Checked.bind_eq_ok_iff.mp filled
      split at rest
      · rename_i truth
        cases rest
        refine ⟨Resolved.typedAll_cons_iff.mpr ⟨tree', [], first, rfl, rfl⟩, ?_⟩
        exact List.forall_mem_singleton.mpr truth
      · cases rest

theorem ResolvedClauses.typed_clause {clauses typed : ResolvedClauses}
    (filled : clauses.typed handlers = .ok typed) :
    (∀ clause, Resolved.typedAll handlers (clauses.clause clause) = .ok (typed.clause clause)) ∧
      ∀ clause, clause = .filter ∨ clause = .having →
        ∀ tree ∈ typed.clause clause, tree.valueType.isCondition = true := by
  simp only [ResolvedClauses.typed, Checked.bind_eq_ok_iff, Checked.pure_eq_ok_iff] at filled
  obtain ⟨select, selectFilled, groupBy, groupByFilled, filter, filterFilled, having,
    havingFilled, rfl⟩ := filled
  obtain ⟨filterTyped, filterTruth⟩ := typedAll_of_typedCondition filterFilled
  obtain ⟨havingTyped, havingTruth⟩ := typedAll_of_typedCondition havingFilled
  constructor
  · intro clause
    cases clause with
    | select => exact typedAll_of_typedColumns selectFilled
    | filter => exact filterTyped
    | groupBy => exact groupByFilled
    | having => exact havingTyped
  · rintro clause (rfl | rfl)
    · exact filterTruth
    · exact havingTruth

end

theorem StatementSpec.clause_assemble {frame : Frame} {statement : Statement} {typed : ResolvedClauses}
    {sites : List CallSite} {handlers : List Handler} {subqueries : List StatementSpec}
    {symbols : SymbolContext} (clause : Clause) :
    (symbols.foldInto (frame.assemble statement typed sites handlers subqueries)).clause clause =
      typed.clause clause := by
  cases clause <;> rfl

namespace StatementSpec.CompiledWith

variable {services : Services} {spec : StatementSpec}

theorem clause (compiled : spec.CompiledWith services) :
    (∃ handlers, ∀ clause, ∃ origins, Resolved.typedAll handlers origins = .ok (spec.clause clause) ∧
      ∀ tree ∈ origins, (Scope.ofClause clause).AdmitsAll services tree) ∧
    ∀ clause, clause = .filter ∨ clause = .having →
      ∀ tree ∈ spec.clause clause, tree.valueType.isCondition = true := by
  obtain ⟨order, isSubquery, statement, symbols, memory, bare, finish, derived, rfl⟩ := compiled
  obtain ⟨_, given, shaped, concluded⟩ := derived
  obtain ⟨handlers, typed, _, filled, rfl, _⟩ := yields_conclude concluded
  obtain ⟨trees, truths⟩ := ResolvedClauses.typed_clause filled
  refine ⟨⟨handlers, fun clause => ?_⟩, fun clause condition => ?_⟩
  · rw [StatementSpec.clause_assemble]
    exact ⟨_, trees clause, given.admitted_clause shaped clause⟩
  · rw [StatementSpec.clause_assemble]
    exact truths clause condition

end StatementSpec.CompiledWith

/-! ### Wildcards, aggregation calls and conditions -/

/-- No wildcard is left in a spec, aggregation calls stand in clauses that admit them, and
conditions are truth values as far as their types are known. -/
structure StatementSpec.Disciplined (spec : StatementSpec) : Prop where
  wildcards : ∀ stream type, Resolved.wildcard stream type ∉ spec.nodes
  filter : ∀ tree ∈ spec.filter, ¬ tree.Aggregates
  groupBy : ∀ tree ∈ spec.groupBy, ¬ tree.Aggregates
  filterType : ∀ tree ∈ spec.filter, tree.valueType = .bool ∨ tree.valueType = .object
  havingType : ∀ tree ∈ spec.having, tree.valueType = .bool ∨ tree.valueType = .object

namespace StatementSpec.CompiledWith

variable {services : Services} {spec : StatementSpec}

theorem node (compiled : spec.CompiledWith services) {clause : Clause} {node : Resolved}
    (member : node ∈ Resolved.nodesOfAll (spec.clause clause)) :
    ∃ handlers origin, Resolved.typed handlers origin = .ok node ∧
      (Scope.ofClause clause).Admits services origin := by
  obtain ⟨⟨handlers, each⟩, _⟩ := compiled.clause
  obtain ⟨origins, typed, admitted⟩ := each clause
  obtain ⟨origin, inside, becomes⟩ := Resolved.mem_nodesOfAll_of_typedAll origins typed member
  exact ⟨handlers, origin, becomes, Scope.admits_nodesOfAll admitted origin inside⟩

private theorem wildcards (compiled : spec.CompiledWith services) (stream : Nat)
    (type : EventType) : Resolved.wildcard stream type ∉ spec.nodes := by
  intro member
  obtain ⟨clause, inside⟩ := StatementSpec.mem_nodes_iff.mp member
  obtain ⟨handlers, origin, becomes, admitted⟩ := compiled.node inside
  have same : origin = .wildcard stream type := Resolved.origin_of_typed becomes
  rw [same] at admitted
  exact absurd admitted Bool.false_ne_true

private theorem not_aggregates (compiled : spec.CompiledWith services) {clause : Clause}
    (barred : clause = .filter ∨ clause = .groupBy) :
    ∀ tree ∈ spec.clause clause, ¬ tree.Aggregates := by
  rintro tree member ⟨site, position, result, inside⟩
  have among : Resolved.aggregation site position result ∈
      Resolved.nodesOfAll (spec.clause clause) :=
    Resolved.mem_nodesOfAll_iff.mpr ⟨tree, member, inside⟩
  obtain ⟨handlers, origin, becomes, admitted⟩ := compiled.node among
  obtain ⟨earlier, rfl, _⟩ := Resolved.origin_of_typed becomes
  obtain ⟨_, notFilter, notGroupBy⟩ := admitted
  rcases barred with rfl | rfl
  · exact notFilter rfl
  · exact notGroupBy rfl

private theorem condition_type (compiled : spec.CompiledWith services) {clause : Clause}
    (condition : clause = .filter ∨ clause = .having) :
    ∀ tree ∈ spec.clause clause, tree.valueType = .bool ∨ tree.valueType = .object := by
  intro tree member
  have truth := compiled.clause.2 clause condition tree member
  unfold AttributeType.isCondition at truth
  simpa only [Bool.or_eq_true, decide_eq_true_eq] using truth

theorem disciplined (compiled : spec.CompiledWith services) : spec.Disciplined where
  wildcards := compiled.wildcards
  filter tree member := compiled.not_aggregates (.inl rfl) tree (Option.mem_toList.mpr member)
  groupBy := compiled.not_aggregates (.inr rfl)
  filterType tree member := compiled.condition_type (.inl rfl) tree (Option.mem_toList.mpr member)
  havingType tree member := compiled.condition_type (.inr rfl) tree (Option.mem_toList.mpr member)

end StatementSpec.CompiledWith

namespace Visit

/-- A step to another expression of the same statement. -/
def Descends (visit next : Visit) : Prop :=
  visit.Leads next ∧ ∀ position statement, visit.expression ≠ .subquery position statement

/-- However deep a wildcard stands below the visit in its statement, it is resolved to the events
of the stream that it denotes. -/
def AcceptsWildcards (visit : Visit) : Prop :=
  ∀ place position name stream, Relation.ReflTransGen Descends visit place →
    place.expression = .wildcard position name → place.frame.eventsOf? name = some stream →
    Resolves place.frame place.scope place.expression place.progress
      (.wildcard stream.2 stream.1.type) place.progress

theorem Descends.inAggregation {visit next : Visit} (descends : visit.Descends next)
    (inside : visit.scope.inAggregation = true) : next.scope.inAggregation = true := by
  obtain ⟨leads, same⟩ := descends
  cases leads with
  | operand _ _ => exact inside
  | key _ _ _ _ _ _ => exact inside
  | argument _ _ _ _ _ => exact inside
  | body _ _ _ _ => exact inside
  | scriptArgument _ _ _ _ => exact inside
  | parameter _ => rfl
  | clause _ _ => exact absurd rfl (same _ _)

theorem Passes.acceptsWildcards {call parameter : Visit} (passes : call.Passes parameter) :
    parameter.AcceptsWildcards := by
  intro place position name stream reaches wildcard denoted
  have started : parameter.scope.inAggregation = true := by
    cases passes
    rfl
  have inside : place.scope.inAggregation = true := by
    clear wildcard denoted
    induction reaches with
    | refl => exact started
    | tail _ step ih => exact step.inAggregation ih
  rw [wildcard]
  exact .wildcard (Frame.yields_resolveWildcard_iff.mpr ⟨inside, stream, denoted, rfl, rfl⟩)

end Visit

/-- In a compiled statement and in all of its subqueries no wildcard is left, no aggregation call
is reached from a filter or a grouping, and conditions are truth values; wildcards are accepted
nonetheless, at any depth of a parameter of an aggregation call. -/
theorem Services.disciplined_of_compileWith {services : Services} {order : Nat → List Nat}
    {statement : Statement} {symbols : SymbolContext} {memory : CompilerMemory}
    {spec : StatementSpec}
    (compiled : (services.compileWith order statement symbols memory).result = .ok spec) :
    (∀ inner : StatementSpec, inner.Within spec → inner.Disciplined) ∧
      ∀ call parameter : Visit, call.Passes parameter → parameter.AcceptsWildcards := by
  constructor
  · intro inner within
    exact ((Services.compiledWith_of_compileWith compiled).within within).disciplined
  · intro call parameter passes
    exact passes.acceptsWildcards

def wildcardServices : Services :=
  { tradeServices with
    tables := [⟨"T", [⟨"k", .string⟩], ["k"]⟩]
    factories := [("rec", Recording.factory)]
    functions := [("count", ⟨["count"], "rec", []⟩)] }

/-- Counts of a table access, a script and a declared expression, each given all trades. -/
def wildcardStatement : Statement :=
  let trades : Expression := .wildcard none none
  let keyed : Expression := .table ⟨0, none, "T", [trades], none⟩
  let scripted : Expression := .call ⟨none, "g", false, [trades]⟩
  let declared : Expression := .call ⟨none, "f", false, [trades]⟩
  let columns : List Expression := [keyed, scripted, declared].map (fun parameter =>
    .call ⟨none, "count", false, [parameter]⟩)
  ⟨"s", none, none, [⟨"f", ["x"], .property ⟨none, none, "x"⟩⟩], [⟨"g", ["x"], "", .long, none⟩],
    columns.map (fun column => ⟨column, none⟩), [⟨none, "Trade", none⟩],
    some (.constant none (.bool true)), [], some (.constant none (.bool true))⟩

set_option maxRecDepth 100000 in
theorem disciplined_wildcardStatement :
    ∃ spec, (wildcardServices.compileWith List.range wildcardStatement .empty .empty).result =
        .ok spec ∧
      spec.aggregations.length = 3 ∧ (∀ inner : StatementSpec, inner.Within spec → inner.Disciplined) ∧
      ∀ call parameter : Visit, call.Passes parameter → parameter.AcceptsWildcards := by
  have compiled : ∃ spec, (wildcardServices.compileWith List.range wildcardStatement .empty
      .empty).result = .ok spec ∧ spec.aggregations.length = 3 :=
    ⟨_, rfl, rfl⟩
  obtain ⟨spec, compiled, aggregations⟩ := compiled
  exact ⟨spec, compiled, aggregations, Services.disciplined_of_compileWith compiled⟩

end EventQuery
