import EventQuery.Proofs.Resolution.Derivation

set_option autoImplicit false

/-! The rules read backwards: for each kind of expression, what was derived when it was
resolved. -/

namespace EventQuery

open Resolution

variable {frame : Frame} {scope : Scope} {before after : Progress} {tree : Resolved}

theorem resolves_constant_iff {position : Option Position} {value : Constant} :
    Resolves frame scope (.constant position value) before tree after ↔
      tree = .constant value ∧ after = before := by
  constructor
  · intro derived
    cases derived
    exact ⟨rfl, rfl⟩
  · rintro ⟨rfl, rfl⟩
    exact .constant

theorem resolves_property_iff {node : PropertyNode} :
    Resolves frame scope (.property node) before tree after ↔
      Yields (frame.resolveProperty scope node) before tree after := by
  constructor
  · intro derived
    cases derived with
    | property run => exact run
  · exact .property

theorem resolves_wildcard_iff {position : Option Position} {stream : Option String} :
    Resolves frame scope (.wildcard position stream) before tree after ↔
      Yields (frame.resolveWildcard scope position stream) before tree after := by
  constructor
  · intro derived
    cases derived with
    | wildcard run => exact run
  · exact .wildcard

theorem resolves_substitution_iff {node : SubstitutionNode} :
    Resolves frame scope (.substitution node) before tree after ↔
      Yields (frame.resolveSubstitution node) before tree after := by
  constructor
  · intro derived
    cases derived with
    | substitution run => exact run
  · exact .substitution

theorem resolves_prior_iff {position : Option Position} {index : Nat} {node : PropertyNode} :
    Resolves frame scope (.prior position index node) before tree after ↔
      Yields (frame.resolvePrior scope position index node) before tree after := by
  constructor
  · intro derived
    cases derived with
    | prior run => exact run
  · exact .prior

theorem resolves_table_iff {node : TableAccess} :
    Resolves frame scope (.table node) before tree after ↔
      ∃ table trees keys type between, frame.services.table? node.table = some table ∧
        node.keys.length = table.keys.length ∧
        ResolvesAll frame (scope.each node.keys) before trees between ∧
        CheckedKeys node table table.keys trees keys ∧
        Frame.accessedType node table = .ok type ∧ tree = .table node keys type ∧
        after = { between with symbols := between.symbols.recordTable node } := by
  constructor
  · intro derived
    cases derived with
    | table known paired given checked typed =>
        exact ⟨_, _, _, _, _, known, paired, given, checked, typed, rfl, rfl⟩
  · rintro ⟨_, _, _, _, _, known, paired, given, checked, typed, rfl, rfl⟩
    exact .table known paired given checked typed

/-- A call that denotes a declared expression, a script or an aggregation function. -/
theorem resolves_call_iff {node : FunctionCall} :
    Resolves frame scope (.call node) before tree after ↔
      (∃ declaration arguments between body,
        frame.declaration? before.symbols node.name = some declaration ∧
        declaration.parameters.length = node.parameters.length ∧
        node.name ∉ scope.expanding ∧
        ResolvesAll frame (scope.each node.parameters) before arguments between ∧
        Resolves frame (scope.entering node.name declaration arguments) declaration.body
          between body after ∧
        tree = .declared node.name body) ∨
      (∃ script arguments, frame.declaration? before.symbols node.name = none ∧
        before.symbols.script? node.name node.parameters.length = some script ∧
        ResolvesAll frame (scope.each node.parameters) before arguments after ∧
        tree = .script script arguments) ∨
      (∃ family forge between trees parameters inner site calls,
        frame.declaration? before.symbols node.name = none ∧
        before.symbols.scripts.any (fun script => script.name = node.name) = false ∧
        frame.services.family? node.name = some family ∧
        scope.clause ≠ .filter ∧ scope.clause ≠ .groupBy ∧ scope.inAggregation = false ∧
        Yields (frame.resolveForge family node.position) before forge between ∧
        ResolvesAll frame (scope.aggregated.each node.parameters) between trees inner ∧
        SeenAs trees parameters ∧
        inner.calls.add ⟨node, .ofFamily family, forge, family, parameters⟩ =
          .ok (site, calls) ∧
        tree = .aggregation site node.position none ∧
        after = { inner with calls := calls }) := by
  constructor
  · intro derived
    cases derived with
    | declared found arity unexpanded given inner =>
        exact .inl ⟨_, _, _, _, found, arity, unexpanded, given, inner, rfl⟩
    | script undeclared found given => exact .inr (.inl ⟨_, _, undeclared, found, given, rfl⟩)
    | aggregation undeclared unscripted known notFilter notGroupBy outside created given seen
        added =>
        exact .inr (.inr ⟨_, _, _, _, _, _, _, _, undeclared, unscripted, known, notFilter,
          notGroupBy, outside, created, given, seen, added, rfl, rfl⟩)
  · rintro (⟨_, _, _, _, found, arity, unexpanded, given, inner, rfl⟩ |
      ⟨_, _, undeclared, found, given, rfl⟩ |
      ⟨_, _, _, _, _, _, _, _, undeclared, unscripted, known, notFilter, notGroupBy, outside,
        created, given, seen, added, rfl, rfl⟩)
    · exact .declared found arity unexpanded given inner
    · exact .script undeclared found given
    · exact .aggregation undeclared unscripted known notFilter notGroupBy outside created given
        seen added

theorem resolves_subquery_iff {position : Option Position} {statement : Statement} :
    Resolves frame scope (.subquery position statement) before tree after ↔
      ∃ spec inner, statement.select.length = 1 ∧
        Compiles frame.services frame.order true statement .empty before.memory spec inner ∧
        tree = .subquery before.subqueries.length spec.columnType ∧
        after = before.afterSubquery spec inner.symbols inner.memory := by
  constructor
  · intro derived
    cases derived with
    | subquery single compiled => exact ⟨_, _, single, compiled, rfl, rfl⟩
  · rintro ⟨_, _, single, compiled, rfl, rfl⟩
    exact .subquery single compiled

theorem resolves_math_iff {operator : MathOperator} {left right : Expression} :
    Resolves frame scope (.math operator left right) before tree after ↔
      ∃ leftTree between rightTree, Resolves frame scope left before leftTree between ∧
        Resolves frame scope right between rightTree after ∧
        tree = .math operator leftTree rightTree
          (Expression.math operator left right).position .object := by
  constructor
  · intro derived
    cases derived with
    | math first second => exact ⟨_, _, _, first, second, rfl⟩
  · rintro ⟨_, _, _, first, second, rfl⟩
    exact .math first second

theorem resolves_compare_iff {operator : CompareOperator} {left right : Expression} :
    Resolves frame scope (.compare operator left right) before tree after ↔
      ∃ leftTree between rightTree, Resolves frame scope left before leftTree between ∧
        Resolves frame scope right between rightTree after ∧
        tree = .compare operator leftTree rightTree
          (Expression.compare operator left right).position := by
  constructor
  · intro derived
    cases derived with
    | compare first second => exact ⟨_, _, _, first, second, rfl⟩
  · rintro ⟨_, _, _, first, second, rfl⟩
    exact .compare first second

theorem resolves_and_iff {left right : Expression} :
    Resolves frame scope (.and left right) before tree after ↔
      ∃ leftTree between rightTree, Resolves frame scope left before leftTree between ∧
        Resolves frame scope right between rightTree after ∧
        tree = .and leftTree rightTree := by
  constructor
  · intro derived
    cases derived with
    | and first second => exact ⟨_, _, _, first, second, rfl⟩
  · rintro ⟨_, _, _, first, second, rfl⟩
    exact .and first second

theorem resolves_or_iff {left right : Expression} :
    Resolves frame scope (.or left right) before tree after ↔
      ∃ leftTree between rightTree, Resolves frame scope left before leftTree between ∧
        Resolves frame scope right between rightTree after ∧
        tree = .or leftTree rightTree := by
  constructor
  · intro derived
    cases derived with
    | or first second => exact ⟨_, _, _, first, second, rfl⟩
  · rintro ⟨_, _, _, first, second, rfl⟩
    exact .or first second

theorem resolves_not_iff {inner : Expression} :
    Resolves frame scope (.not inner) before tree after ↔
      ∃ innerTree, Resolves frame scope inner before innerTree after ∧
        tree = .not innerTree := by
  constructor
  · intro derived
    cases derived with
    | not derived => exact ⟨_, derived, rfl⟩
  · rintro ⟨_, derived, rfl⟩
    exact .not derived

theorem resolvesAll_cons_iff {expression : Expression} {items : List (Scope × Expression)}
    {trees : List Resolved} :
    ResolvesAll frame ((scope, expression) :: items) before trees after ↔
      ∃ first between rest, Resolves frame scope expression before first between ∧
        ResolvesAll frame items between rest after ∧ trees = first :: rest := by
  constructor
  · intro derived
    cases derived with
    | cons head tail => exact ⟨_, _, _, head, tail, rfl⟩
  · rintro ⟨_, _, _, head, tail, rfl⟩
    exact .cons head tail

end EventQuery
