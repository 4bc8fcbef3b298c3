import EventQuery.Proofs.Termination.Starving

set_option autoImplicit false

/-! Visits. To resolve an expression is to visit it in a statement, at a place, with what was
gathered so far; the visit leads to visits of parts of the expression, of the body of a
declaration, or of the clauses of a subquery. A run is out of fuel exactly when a chain of
visits is longer than its fuel. -/

namespace EventQuery

open Resolution

theorem mem_of_split {α : Type} {items done rest : List α} {item : α}
    (split : items = done ++ item :: rest) : item ∈ items := by
  rw [split]
  exact List.mem_append_right _ List.mem_cons_self

/-- An expression that is about to be resolved. -/
structure Visit where
  frame : Frame
  scope : Scope
  expression : Expression
  progress : Progress

def Expression.operands : Expression → List Expression
  | math _ left right => [left, right]
  | compare _ left right => [left, right]
  | and left right => [left, right]
  | or left right => [left, right]
  | not inner => [inner]
  | _ => []

theorem endsLike_operator (beyond : Resolver) (fuel : Nat) (frame : Frame) (scope : Scope)
    {expression : Expression} (operands : expression.operands ≠ []) :
    EndsLike (resolve beyond (fuel + 1) frame scope expression)
      (expression.operands.mapM (resolve beyond fuel frame scope)) := by
  have pair (left right : Expression) (combine : Resolved → Resolved → Resolved) :
      EndsLike (do
          let first ← resolve beyond fuel frame scope left
          let second ← resolve beyond fuel frame scope right
          return combine first second)
        ([left, right].mapM (resolve beyond fuel frame scope)) := by
    simp only [List.mapM_cons, List.mapM_nil, pure_bind, bind_assoc]
    exact .bind fun _ => .bind fun _ => .pure _ _
  cases expression with
  | math operator left right => exact pair left right _
  | compare operator left right => exact pair left right _
  | and left right => exact pair left right _
  | or left right => exact pair left right _
  | not inner =>
      simp only [Expression.operands, List.mapM_cons, List.mapM_nil, pure_bind]
      exact .bind fun _ => .pure _ _
  | _ => exact absurd rfl operands

/-- A statement visits an expression of one of its clauses, after those before it. -/
inductive Enters (services : Services) (order : Nat → List Nat) (isSubquery : Bool)
    (statement : Statement) (symbols : SymbolContext) (memory : CompilerMemory) : Visit → Prop
  | intro {streams done scope expression rest trees between} :
      bindStreams services.registry [] statement.streams = .ok streams →
      statement.items = done ++ (scope, expression) :: rest →
      ResolvesAll (.ofStatement services order isSubquery statement streams) done
        (.opening statement symbols memory) trees between →
      Enters services order isSubquery statement symbols memory
        ⟨.ofStatement services order isSubquery statement streams, scope, expression, between⟩

namespace Visit

/-- The visit of an aggregation call and that of one of its parameters. -/
inductive Passes : Visit → Visit → Prop
  | intro {frame scope node before family forge inner done parameter rest trees parameters
      between} :
      frame.declaration? before.symbols node.name = none →
      before.symbols.scripts.any (fun script => script.name = node.name) = false →
      frame.services.family? node.name = some family →
      scope.clause ≠ .filter → scope.clause ≠ .groupBy → scope.inAggregation = false →
      Yields (frame.resolveForge family node.position) before forge inner →
      node.parameters = done ++ parameter :: rest →
      ResolvesAll frame (scope.aggregated.each done) inner trees between →
      SeenAs trees parameters →
      Passes ⟨frame, scope, .call node, before⟩ ⟨frame, scope.aggregated, parameter, between⟩

inductive Leads : Visit → Visit → Prop
  | operand {frame scope expression before done operand rest trees between} :
      expression.operands = done ++ operand :: rest →
      ResolvesAll frame (scope.each done) before trees between →
      Leads ⟨frame, scope, expression, before⟩ ⟨frame, scope, operand, between⟩
  | key {frame scope node before table done key rest columns trees keys between} :
      frame.services.table? node.table = some table →
      node.keys.length = table.keys.length →
      node.keys = done ++ key :: rest →
      columns <+: table.keys →
      ResolvesAll frame (scope.each done) before trees between →
      CheckedKeys node table columns trees keys →
      Leads ⟨frame, scope, .table node, before⟩ ⟨frame, scope, key, between⟩
  | argument {frame scope node before declaration done argument rest trees between} :
      frame.declaration? before.symbols node.name = some declaration →
      declaration.parameters.length = node.parameters.length →
      node.name ∉ scope.expanding →
      node.parameters = done ++ argument :: rest →
      ResolvesAll frame (scope.each done) before trees between →
      Leads ⟨frame, scope, .call node, before⟩ ⟨frame, scope, argument, between⟩
  | body {frame scope node before declaration arguments between} :
      frame.declaration? before.symbols node.name = some declaration →
      declaration.parameters.length = node.parameters.length →
      node.name ∉ scope.expanding →
      ResolvesAll frame (scope.each node.parameters) before arguments between →
      Leads ⟨frame, scope, .call node, before⟩
        ⟨frame, scope.entering node.name declaration arguments, declaration.body, between⟩
  | scriptArgument {frame scope node before script done argument rest trees between} :
      frame.declaration? before.symbols node.name = none →
      before.symbols.script? node.name node.parameters.length = some script →
      node.parameters = done ++ argument :: rest →
      ResolvesAll frame (scope.each done) before trees between →
      Leads ⟨frame, scope, .call node, before⟩ ⟨frame, scope, argument, between⟩
  | parameter {frame scope node before parameter between} :
      Passes ⟨frame, scope, .call node, before⟩ ⟨frame, scope.aggregated, parameter, between⟩ →
      Leads ⟨frame, scope, .call node, before⟩ ⟨frame, scope.aggregated, parameter, between⟩
  | clause {frame scope position statement before visit} :
      statement.select.length = 1 →
      Enters frame.services frame.order true statement .empty before.memory visit →
      Leads ⟨frame, scope, .subquery position statement, before⟩ visit

def Starves (visit : Visit) (fuel : Nat) : Prop :=
  (resolve .spent fuel visit.frame visit.scope visit.expression).Starves visit.progress

end Visit

section

variable {frame : Frame} {scope : Scope} {before : Progress} {fuel : Nat}

private theorem starves_of_item {α β : Type} {action finer : α → Resolution β}
    (refined : ∀ item, RefinedBy (action item) (finer item)) {done rest : List α} {item : α}
    {results : List β} {between : Progress}
    (run : Yields (done.mapM finer) before results between)
    (starved : (action item).Starves between) :
    ((done ++ item :: rest).mapM action).Starves before := by
  rw [starves_mapM_iff]
  rcases (RefinedBy.mapM refined done).starves_or_yields run with early | same
  · obtain ⟨done', item', rest', results', between', rfl, run', starved'⟩ :=
      starves_mapM_iff.mp early
    exact ⟨done', item', rest' ++ item :: rest, results', between',
      by simp only [List.append_assoc, List.cons_append], run', starved'⟩
  · exact ⟨done, item, rest, results, between, rfl, same, starved⟩

theorem starves_items_iff {items : List (Scope × Expression)} :
    (items.mapM (fun item => resolve .spent fuel frame item.1 item.2)).Starves before ↔
      ∃ done scope expression rest trees between, items = done ++ (scope, expression) :: rest ∧
        ResolvesAll frame done before trees between ∧
        Visit.Starves ⟨frame, scope, expression, between⟩ fuel := by
  constructor
  · intro starved
    obtain ⟨done, ⟨scope, expression⟩, rest, trees, between, split, run, starved⟩ :=
      starves_mapM_iff.mp starved
    exact ⟨done, scope, expression, rest, trees, between, split,
      (resolve_sound fuel).resolvesAll run, starved⟩
  · rintro ⟨done, scope, expression, rest, trees, between, rfl, derived, starved⟩
    obtain ⟨more, enough, run⟩ := derived.yields_beyond fuel
    have refined (item : Scope × Expression) := resolve_refinedBy enough frame item.1 item.2
    exact starves_of_item refined run starved

theorem starves_each_iff {expressions : List Expression} :
    (expressions.mapM (resolve .spent fuel frame scope)).Starves before ↔
      ∃ done expression rest trees between, expressions = done ++ expression :: rest ∧
        ResolvesAll frame (scope.each done) before trees between ∧
        Visit.Starves ⟨frame, scope, expression, between⟩ fuel := by
  constructor
  · intro starved
    obtain ⟨done, expression, rest, trees, between, split, run, starved⟩ :=
      starves_mapM_iff.mp starved
    exact ⟨done, expression, rest, trees, between, split,
      (resolve_sound fuel).resolvesEach run, starved⟩
  · rintro ⟨done, expression, rest, trees, between, rfl, derived, starved⟩
    obtain ⟨more, enough, run⟩ := derived.yields_beyond fuel
    have finished := yields_each_iff.mp run
    exact starves_of_item (resolve_refinedBy enough frame scope) finished starved

theorem starves_keys_iff {node : TableAccess} {table : TableDefinition}
    {expressions : List Expression} {columns : List String}
    (paired : expressions.length = columns.length) :
    Starves ((expressions.zip columns).mapM (fun (expression, column) => do
        ofChecked (Frame.checkedKey node table column
          (← resolve .spent fuel frame scope expression)))) before ↔
      ∃ done expression rest earlier trees keys between,
        expressions = done ++ expression :: rest ∧ earlier <+: columns ∧
        ResolvesAll frame (scope.each done) before trees between ∧
        CheckedKeys node table earlier trees keys ∧
        Visit.Starves ⟨frame, scope, expression, between⟩ fuel := by
  constructor
  · intro starved
    obtain ⟨done, ⟨expression, column⟩, rest, keys, between, split, run, starved⟩ :=
      starves_mapM_iff.mp starved
    rw [starves_bind_fed_iff (fun _ _ _ => not_starves_ofChecked)] at starved
    obtain ⟨trees, whole, first, run, checked⟩ := yields_keys_of_split paired split run
    exact ⟨done.map Prod.fst, expression, rest.map Prod.fst, done.map Prod.snd, trees, keys,
      between, whole, first, (resolve_sound fuel).resolvesEach run, checked, starved⟩
  · rintro ⟨done, expression, rest, earlier, trees, keys, between, rfl, ⟨later, rfl⟩, derived,
      checked, starved⟩
    obtain ⟨more, enough, run⟩ := derived.yields_beyond fuel
    have doneRun := yields_each_iff.mp run
    have count : done.length = earlier.length := by
      rw [← doneRun.length_eq]
      exact checked.length_eq
    cases later with
    | nil =>
        simp only [List.length_append, List.length_cons, List.append_nil] at paired
        omega
    | cons column later =>
        rw [List.zip_append count, List.zip_cons_cons]
        have finished := (yields_keys_iff count).mpr ⟨trees, doneRun, checked⟩
        refine starves_of_item (fun (key, column) =>
          (resolve_refinedBy enough frame scope key).bind (fun _ => .refl _)) finished ?_
        rw [starves_bind_fed_iff (fun _ _ _ => not_starves_ofChecked)]
        exact starved

theorem starves_parameters_iff {expressions : List Expression} :
    Starves (expressions.mapM (fun expression => do
        ofChecked (Frame.aggregationParameter
          (← resolve .spent fuel frame scope expression)))) before ↔
      ∃ done expression rest trees parameters between,
        expressions = done ++ expression :: rest ∧
        ResolvesAll frame (scope.each done) before trees between ∧
        SeenAs trees parameters ∧
        Visit.Starves ⟨frame, scope, expression, between⟩ fuel := by
  constructor
  · intro starved
    obtain ⟨done, expression, rest, parameters, between, split, run, starved⟩ :=
      starves_mapM_iff.mp starved
    obtain ⟨trees, run, seen⟩ := yields_parameters_iff.mp run
    rw [starves_bind_fed_iff (fun _ _ _ => not_starves_ofChecked)] at starved
    exact ⟨done, expression, rest, trees, parameters, between, split,
      (resolve_sound fuel).resolvesEach run, seen, starved⟩
  · rintro ⟨done, expression, rest, trees, parameters, between, rfl, derived, seen, starved⟩
    obtain ⟨more, enough, run⟩ := derived.yields_beyond fuel
    have finished := yields_parameters_iff.mpr ⟨trees, yields_each_iff.mp run, seen⟩
    refine starves_of_item (fun parameter =>
      (resolve_refinedBy enough frame scope parameter).bind (fun _ => .refl _)) finished ?_
    rw [starves_bind_fed_iff (fun _ _ _ => not_starves_ofChecked)]
    exact starved

end

theorem starves_resolveClauses_iff {resolver : Scope → Expression → Resolution Resolved}
    {statement : Statement} {before : Progress} :
    (resolveClauses resolver statement).Starves before ↔
      (statement.run resolver).Starves before :=
  (endsLike_resolveClauses resolver statement before).2 .unfinished

/-- A statement is out of fuel when one of the visits that it makes is. -/
theorem unfinished_compileStatement_iff {fuel : Nat} {services : Services}
    {order : Nat → List Nat} {isSubquery : Bool} {statement : Statement}
    {symbols : SymbolContext} {memory : CompilerMemory} :
    (compileStatement (resolve .spent fuel) services order isSubquery statement symbols
        memory).1 = .error .unfinished ↔
      ∃ visit, Enters services order isSubquery statement symbols memory visit ∧
        visit.Starves fuel := by
  cases bound : bindStreams services.registry [] statement.streams with
  | error failure =>
      unfold compileStatement
      rw [bound]
      constructor
      · intro impossible
        cases impossible
      · rintro ⟨_, ⟨streamsBound, _, _⟩, _⟩
        rw [bound] at streamsBound
        cases streamsBound
  | ok streams =>
      rw [compileStatement_of_bound bound]
      dsimp only
      rw [Checked.map_eq_error_iff]
      change (runStatement _ _ _).Starves _ ↔ _
      unfold runStatement
      rw [starves_bind_fed_iff (fun _ _ _ => Frame.fed_conclude _ _ _ _),
        starves_resolveClauses_iff, Statement.run, starves_items_iff]
      constructor
      · rintro ⟨done, scope, expression, rest, trees, between, split, derived, starved⟩
        exact ⟨_, .intro bound split derived, starved⟩
      · rintro ⟨_, ⟨streamsBound, split, derived⟩, starved⟩
        rw [bound] at streamsBound
        cases streamsBound
        exact ⟨_, _, _, _, _, _, split, derived, starved⟩

/-! ### Visits -/

namespace Visit

variable {frame : Frame} {scope : Scope} {before : Progress} {fuel : Nat}

theorem starves_zero (visit : Visit) : visit.Starves 0 :=
  rfl

private theorem starves_leaf_iff {expression : Expression} {action : Resolution Resolved}
    (fed : Fed action) (leaf : ∀ next, ¬ Leads ⟨frame, scope, expression, before⟩ next) :
    action.Starves before ↔
      ∃ next, Leads ⟨frame, scope, expression, before⟩ next ∧ next.Starves fuel := by
  refine iff_of_false (fed before) ?_
  rintro ⟨next, leads, _⟩
  exact leaf next leads

private theorem nil_ne_append_cons {done rest : List Expression} {operand : Expression} :
    [] ≠ done ++ operand :: rest := by
  simp

private theorem operand_of_leads {expression : Expression} {next : Visit}
    (some : expression.operands ≠ []) (leads : Leads ⟨frame, scope, expression, before⟩ next) :
    ∃ done operand rest trees between, expression.operands = done ++ operand :: rest ∧
      ResolvesAll frame (scope.each done) before trees between ∧
      next = ⟨frame, scope, operand, between⟩ := by
  cases leads with
  | operand split derived => exact ⟨_, _, _, _, _, split, derived, rfl⟩
  | _ => exact absurd rfl some

private theorem starves_operator_iff {expression : Expression} (some : expression.operands ≠ []) :
    Starves ⟨frame, scope, expression, before⟩ (fuel + 1) ↔
      ∃ next, Leads ⟨frame, scope, expression, before⟩ next ∧ next.Starves fuel := by
  have parts : Starves ⟨frame, scope, expression, before⟩ (fuel + 1) ↔
      (expression.operands.mapM (resolve .spent fuel frame scope)).Starves before :=
    (endsLike_operator .spent fuel frame scope some before).2 .unfinished
  rw [parts, starves_each_iff]
  constructor
  · rintro ⟨done, operand, rest, trees, between, split, derived, starved⟩
    exact ⟨_, .operand split derived, starved⟩
  · rintro ⟨next, leads, starved⟩
    obtain ⟨done, operand, rest, trees, between, split, derived, rfl⟩ :=
      operand_of_leads some leads
    exact ⟨done, operand, rest, trees, between, split, derived, starved⟩

private theorem starves_table_iff {node : TableAccess} :
    (frame.resolveTable (resolve .spent fuel frame scope) node).Starves before ↔
      ∃ next, Leads ⟨frame, scope, .table node, before⟩ next ∧ next.Starves fuel := by
  constructor
  · intro starved
    unfold Frame.resolveTable at starved
    split at starved
    · exact absurd starved not_starves_refuse
    · rename_i table known
      split at starved
      · exact absurd starved not_starves_refuse
      · rename_i paired
        have paired := Decidable.not_not.mp paired
        have rest (keys : List Resolved) : Fed (do
            let type ← ofChecked (Frame.accessedType node table)
            modifySymbols (fun symbols => symbols.recordTable node)
            return Resolved.table node keys type) :=
          (Fed.ofChecked _).bind (fun _ => .modifySymbols_bind (.pure _))
        rw [starves_bind_fed_iff (fun keys between _ => rest keys between),
          starves_keys_iff paired] at starved
        obtain ⟨done, key, rest, columns, trees, keys, between, split, earlier, derived, checked,
          starved⟩ := starved
        exact ⟨_, .key known paired split earlier derived checked, starved⟩
  · rintro ⟨next, leads, starved⟩
    cases leads with
    | operand split _ => exact absurd split nil_ne_append_cons
    | key known paired split earlier derived checked =>
        unfold Frame.resolveTable
        rw [known]
        dsimp only
        rw [if_neg (Decidable.not_not.mpr paired), starves_bind_iff, starves_keys_iff paired]
        exact .inl ⟨_, _, _, _, _, _, _, split, earlier, derived, checked, starved⟩

private theorem starves_or_yields_each {expressions : List Expression} {trees : List Resolved}
    {between : Progress} (derived : ResolvesAll frame (scope.each expressions) before trees between)
    (fuel : Nat) :
    (expressions.mapM (resolve .spent fuel frame scope)).Starves before ∨
      Yields (expressions.mapM (resolve .spent fuel frame scope)) before trees between := by
  obtain ⟨more, enough, run⟩ := derived.yields_beyond fuel
  have refined := RefinedBy.mapM (resolve_refinedBy enough frame scope) expressions
  exact refined.starves_or_yields (yields_each_iff.mp run)

private theorem starves_declared_iff {node : FunctionCall} {declaration : Declaration} :
    (Frame.resolveDeclared (resolve .spent fuel frame) scope node declaration).Starves before ↔
      declaration.parameters.length = node.parameters.length ∧ node.name ∉ scope.expanding ∧
        ((node.parameters.mapM (resolve .spent fuel frame scope)).Starves before ∨
          ∃ arguments between,
            ResolvesAll frame (scope.each node.parameters) before arguments between ∧
            Starves ⟨frame, scope.entering node.name declaration arguments, declaration.body,
              between⟩ fuel) := by
  by_cases admitted : declaration.parameters.length = node.parameters.length ∧
      node.name ∉ scope.expanding
  · rw [Frame.resolveDeclared_of_admitted admitted.1 admitted.2, starves_bind_iff]
    constructor
    · rintro (starved | ⟨arguments, between, run, starved⟩)
      · exact ⟨admitted.1, admitted.2, .inl starved⟩
      · rw [starves_bind_fed_iff (fun _ _ _ => not_starves_pure)] at starved
        exact ⟨admitted.1, admitted.2,
          .inr ⟨arguments, between, (resolve_sound fuel).resolvesEach run, starved⟩⟩
    · rintro ⟨_, _, starved | ⟨arguments, between, derived, starved⟩⟩
      · exact .inl starved
      · rcases starves_or_yields_each derived fuel with early | run
        · exact .inl early
        · refine .inr ⟨arguments, between, run, ?_⟩
          rw [starves_bind_fed_iff (fun _ _ _ => not_starves_pure)]
          exact starved
  · obtain ⟨failure, refused⟩ := Frame.resolveDeclared_of_barred _ admitted
    rw [refused]
    refine iff_of_false not_starves_refuse ?_
    rintro ⟨paired, unexpanded, _⟩
    exact admitted ⟨paired, unexpanded⟩

private theorem starves_aggregation_iff {node : FunctionCall} {family : FunctionFamily} :
    (frame.resolveAggregation (resolve .spent fuel frame) scope node family).Starves before ↔
      scope.clause ≠ .filter ∧ scope.clause ≠ .groupBy ∧ scope.inAggregation = false ∧
        ∃ forge inner, Yields (frame.resolveForge family node.position) before forge inner ∧
          Resolution.Starves (node.parameters.mapM (fun parameter => do
            ofChecked (Frame.aggregationParameter
              (← resolve .spent fuel frame scope.aggregated parameter)))) inner := by
  by_cases admitted : scope.clause ≠ .filter ∧ scope.clause ≠ .groupBy ∧
      scope.inAggregation = false
  · obtain ⟨notFilter, notGroupBy, outside⟩ := admitted
    rw [Frame.resolveAggregation_of_admitted notFilter notGroupBy outside, starves_bind_iff]
    constructor
    · rintro (impossible | ⟨forge, inner, created, starved⟩)
      · exact absurd impossible (frame.fed_resolveForge _ _ before)
      · rcases starves_bind_iff.mp starved with early | ⟨parameters, between, _, late⟩
        · exact ⟨notFilter, notGroupBy, outside, forge, inner, created, early⟩
        · refine absurd late (Fed.get_bind (fun progress => ?_) between)
          split
          · exact .refuse _ _
          · exact .set_bind (.pure _)
    · rintro ⟨_, _, _, forge, inner, created, starved⟩
      refine .inr ⟨forge, inner, created, ?_⟩
      rw [starves_bind_iff]
      exact .inl starved
  · obtain ⟨failure, refused⟩ := Frame.resolveAggregation_of_barred _ admitted
    rw [refused]
    refine iff_of_false not_starves_refuse ?_
    rintro ⟨notFilter, notGroupBy, outside, _⟩
    exact admitted ⟨notFilter, notGroupBy, outside⟩

private theorem starves_expansion_iff {node : FunctionCall} {declaration : Declaration}
    (declared : frame.declaration? before.symbols node.name = some declaration) :
    (Frame.resolveDeclared (resolve .spent fuel frame) scope node declaration).Starves before ↔
      ∃ next, Leads ⟨frame, scope, .call node, before⟩ next ∧ next.Starves fuel := by
  rw [starves_declared_iff, starves_each_iff]
  constructor
  · rintro ⟨paired, unexpanded, ⟨done, argument, rest, trees, between, split, derived,
      starved⟩ | ⟨arguments, between, derived, starved⟩⟩
    · exact ⟨_, .argument declared paired unexpanded split derived, starved⟩
    · exact ⟨_, .body declared paired unexpanded derived, starved⟩
  · rintro ⟨next, leads, starved⟩
    cases leads with
    | operand split _ => exact absurd split nil_ne_append_cons
    | argument known paired unexpanded split derived =>
        cases declared.symm.trans known
        exact ⟨paired, unexpanded, .inl ⟨_, _, _, _, _, split, derived, starved⟩⟩
    | body known paired unexpanded derived =>
        cases declared.symm.trans known
        exact ⟨paired, unexpanded, .inr ⟨_, _, derived, starved⟩⟩
    | scriptArgument undeclared _ _ _ => cases declared.symm.trans undeclared
    | parameter passes =>
        cases passes with
        | intro undeclared => cases declared.symm.trans undeclared

private theorem leads_scripted_iff {node : FunctionCall} {next : Visit}
    (undeclared : frame.declaration? before.symbols node.name = none)
    (scripted : before.symbols.scripts.any (fun script => script.name = node.name) = true) :
    Leads ⟨frame, scope, .call node, before⟩ next ↔
      ∃ script done argument rest trees between,
        before.symbols.script? node.name node.parameters.length = some script ∧
        node.parameters = done ++ argument :: rest ∧
        ResolvesAll frame (scope.each done) before trees between ∧
        next = ⟨frame, scope, argument, between⟩ := by
  constructor
  · intro leads
    cases leads with
    | operand split _ => exact absurd split nil_ne_append_cons
    | argument known _ _ _ _ => cases undeclared.symm.trans known
    | body known _ _ _ => cases undeclared.symm.trans known
    | scriptArgument _ found split derived =>
        exact ⟨_, _, _, _, _, _, found, split, derived, rfl⟩
    | parameter passes =>
        cases passes with
        | intro _ unscripted => cases scripted.symm.trans unscripted
  · rintro ⟨script, done, argument, rest, trees, between, found, split, derived, rfl⟩
    exact .scriptArgument undeclared found split derived

private theorem leads_unscripted_iff {node : FunctionCall} {next : Visit}
    (undeclared : frame.declaration? before.symbols node.name = none)
    (unscripted : before.symbols.scripts.any (fun script => script.name = node.name) = false) :
    Leads ⟨frame, scope, .call node, before⟩ next ↔
      Passes ⟨frame, scope, .call node, before⟩ next := by
  constructor
  · intro leads
    cases leads with
    | operand split _ => exact absurd split nil_ne_append_cons
    | argument known _ _ _ _ => cases undeclared.symm.trans known
    | body known _ _ _ => cases undeclared.symm.trans known
    | scriptArgument _ found _ _ =>
        rw [SymbolContext.any_of_script? found] at unscripted
        cases unscripted
    | parameter passes => exact passes
  · intro passes
    obtain ⟨_, _, known, notFilter, notGroupBy, outside, created, split, derived, seen⟩ := passes
    exact .parameter (.intro undeclared unscripted known notFilter notGroupBy outside created split
      derived seen)

private theorem starves_call_iff {node : FunctionCall} :
    (frame.resolveCall (resolve .spent fuel frame) scope node).Starves before ↔
      ∃ next, Leads ⟨frame, scope, .call node, before⟩ next ∧ next.Starves fuel := by
  unfold Frame.resolveCall
  simp only [starves_get_bind_iff]
  cases declared : frame.declaration? before.symbols node.name with
  | some declaration => exact starves_expansion_iff declared
  | none =>
      dsimp only
      cases scripted : before.symbols.scripts.any (fun script => script.name = node.name) with
      | true =>
          simp only [leads_scripted_iff declared scripted]
          cases found : before.symbols.script? node.name node.parameters.length with
          | none =>
              refine iff_of_false not_starves_refuse ?_
              rintro ⟨_, ⟨script, _, _, _, _, _, impossible, _⟩, _⟩
              cases impossible
          | some script =>
              dsimp only
              rw [if_pos trivial, starves_bind_fed_iff (fun _ _ _ => not_starves_pure),
                starves_each_iff]
              constructor
              · rintro ⟨done, argument, rest, trees, between, split, derived, starved⟩
                exact ⟨_, ⟨_, _, _, _, _, _, rfl, split, derived, rfl⟩, starved⟩
              · rintro ⟨_, ⟨_, done, argument, rest, trees, between, _, split, derived, rfl⟩,
                  starved⟩
                exact ⟨done, argument, rest, trees, between, split, derived, starved⟩
      | false =>
          simp only [leads_unscripted_iff declared scripted]
          cases known : frame.services.family? node.name with
          | none =>
              refine iff_of_false not_starves_refuse ?_
              rintro ⟨_, passes, _⟩
              cases passes with
              | intro _ _ family => cases known.symm.trans family
          | some family =>
              dsimp only
              rw [if_neg Bool.false_ne_true, starves_aggregation_iff]
              simp only [starves_parameters_iff]
              constructor
              · rintro ⟨notFilter, notGroupBy, outside, forge, inner, created, done, parameter,
                  rest, trees, parameters, between, split, derived, seen, starved⟩
                exact ⟨_, .intro declared scripted known notFilter notGroupBy outside created split
                  derived seen, starved⟩
              · rintro ⟨next, passes, starved⟩
                obtain ⟨_, _, found, notFilter, notGroupBy, outside, created, split, derived,
                  seen⟩ := passes
                cases known.symm.trans found
                exact ⟨notFilter, notGroupBy, outside, _, _, created, _, _, _, _, _, _, split,
                  derived, seen, starved⟩

theorem starves_resolveSubquery_iff {position : Option Position} {statement : Statement} :
    (frame.resolveSubquery (resolve .spent fuel) position statement).Starves before ↔
      statement.select.length = 1 ∧ (compileStatement (resolve .spent fuel) frame.services
        frame.order true statement .empty before.memory).1 = .error .unfinished := by
  unfold Frame.resolveSubquery
  by_cases single : statement.select.length = 1
  · simp only [single, ne_eq, not_true_eq_false, if_false, starves_get_bind_iff, true_and]
    cases compileStatement (resolve .spent fuel) frame.services frame.order true statement
        .empty before.memory with
    | mk result memory =>
        cases result with
        | error fault =>
            constructor
            · intro same
              cases same
              rfl
            · intro same
              cases same
              rfl
        | ok pair =>
            refine iff_of_false not_starves_pure ?_
            intro impossible
            cases impossible
  · simp [single, not_starves_refuse]

private theorem starves_subquery_iff {position : Option Position} {statement : Statement} :
    (frame.resolveSubquery (resolve .spent fuel) position statement).Starves before ↔
      ∃ next, Leads ⟨frame, scope, .subquery position statement, before⟩ next ∧
        next.Starves fuel := by
  rw [starves_resolveSubquery_iff, unfinished_compileStatement_iff]
  constructor
  · rintro ⟨single, next, enters, starved⟩
    exact ⟨next, .clause single enters, starved⟩
  · rintro ⟨next, leads, starved⟩
    cases leads with
    | operand split _ => exact absurd split nil_ne_append_cons
    | clause single enters => exact ⟨single, next, enters, starved⟩

/-- A visit is out of fuel when one that it leads to is out of the fuel that is left. -/
theorem starves_succ_iff {visit : Visit} :
    visit.Starves (fuel + 1) ↔ ∃ next, visit.Leads next ∧ next.Starves fuel := by
  obtain ⟨frame, scope, expression, before⟩ := visit
  cases expression with
  | constant position value =>
      refine starves_leaf_iff (.pure _) (fun next leads => ?_)
      cases leads with
      | operand split _ => exact nil_ne_append_cons split
  | property node =>
      refine starves_leaf_iff (frame.fed_resolveProperty scope node) (fun next leads => ?_)
      cases leads with
      | operand split _ => exact nil_ne_append_cons split
  | wildcard position stream =>
      refine starves_leaf_iff (frame.fed_resolveWildcard scope position stream)
        (fun next leads => ?_)
      cases leads with
      | operand split _ => exact nil_ne_append_cons split
  | substitution node =>
      refine starves_leaf_iff (frame.fed_resolveSubstitution node) (fun next leads => ?_)
      cases leads with
      | operand split _ => exact nil_ne_append_cons split
  | prior position index node =>
      refine starves_leaf_iff (frame.fed_resolvePrior scope position index node)
        (fun next leads => ?_)
      cases leads with
      | operand split _ => exact nil_ne_append_cons split
  | table node => exact starves_table_iff
  | call node => exact starves_call_iff
  | subquery position statement => exact starves_subquery_iff
  | math operator left right => exact starves_operator_iff nofun
  | compare operator left right => exact starves_operator_iff nofun
  | and left right => exact starves_operator_iff nofun
  | or left right => exact starves_operator_iff nofun
  | not inner => exact starves_operator_iff nofun

end Visit

end EventQuery
