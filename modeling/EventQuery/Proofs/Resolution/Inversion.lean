import EventQuery.Proofs.Resolution.Derivation

set_option autoImplicit false

/-! What the compound resolutions yield, in terms of what the resolutions of their parts yield.
Every lemma is stated for an arbitrary way to resolve the parts. -/

namespace EventQuery

open Resolution

variable {frame : Frame} {scope : Scope} {before after : Progress}

/-- The checks of keys may be made after all keys are resolved. -/
theorem yields_keys_iff {node : TableAccess} {table : TableDefinition}
    {resolver : Expression → Resolution Resolved} {expressions : List Expression}
    {columns : List String} {keys : List Resolved}
    (paired : expressions.length = columns.length) :
    Yields ((expressions.zip columns).mapM (fun (expression, column) => do
        ofChecked (Frame.checkedKey node table column (← resolver expression))))
        before keys after ↔
      ∃ trees, Yields (expressions.mapM resolver) before trees after ∧
        CheckedKeys node table columns trees keys := by
  induction expressions generalizing columns before keys with
  | nil =>
      cases columns with
      | cons column columns => cases paired
      | nil =>
          simp only [List.zip_nil_left, yields_mapM_nil_iff]
          constructor
          · rintro ⟨rfl, rfl⟩
            exact ⟨[], ⟨rfl, rfl⟩, .nil⟩
          · rintro ⟨trees, ⟨rfl, rfl⟩, checked⟩
            cases checked
            exact ⟨rfl, rfl⟩
  | cons expression expressions ih =>
      cases columns with
      | nil => cases paired
      | cons column columns =>
          have rest : expressions.length = columns.length := Nat.succ.inj paired
          simp only [List.zip_cons_cons, yields_mapM_cons_iff, yields_bind_iff,
            yields_ofChecked_iff, ih rest]
          constructor
          · rintro ⟨key, between, keys, ⟨tree, _, head, checked, rfl⟩, ⟨trees, tail, others⟩, rfl⟩
            exact ⟨tree :: trees, ⟨tree, between, trees, head, tail, rfl⟩, .cons checked others⟩
          · rintro ⟨_, ⟨tree, between, trees, head, tail, rfl⟩, checked⟩
            cases checked with
            | cons first others =>
                exact ⟨_, between, _, ⟨tree, between, head, first, rfl⟩, ⟨trees, tail, others⟩,
                  rfl⟩

theorem yields_keys_of_split {node : TableAccess} {table : TableDefinition}
    {resolver : Expression → Resolution Resolved} {expressions : List Expression}
    {columns : List String} {done rest : List (Expression × String)} {expression : Expression}
    {column : String} {keys : List Resolved} (paired : expressions.length = columns.length)
    (split : expressions.zip columns = done ++ (expression, column) :: rest)
    (run : Yields (done.mapM (fun (expression, column) => do
        ofChecked (Frame.checkedKey node table column (← resolver expression))))
      before keys after) :
    ∃ trees, expressions = done.map Prod.fst ++ expression :: rest.map Prod.fst ∧
      done.map Prod.snd <+: columns ∧
      Yields ((done.map Prod.fst).mapM resolver) before trees after ∧
      CheckedKeys node table (done.map Prod.snd) trees keys := by
  have expressionsSplit := congrArg (List.map Prod.fst) split
  have columnsSplit := congrArg (List.map Prod.snd) split
  rw [List.map_fst_zip (Nat.le_of_eq paired), List.map_append, List.map_cons] at expressionsSplit
  rw [List.map_snd_zip (Nat.le_of_eq paired.symm), List.map_append, List.map_cons] at columnsSplit
  have zipped : done = (done.map Prod.fst).zip (done.map Prod.snd) := by
    rw [List.zip_map', List.map_id'']
    intro pair
    rfl
  rw [zipped, yields_keys_iff (by rw [List.length_map, List.length_map])] at run
  obtain ⟨trees, run, checked⟩ := run
  refine ⟨trees, expressionsSplit, ?_, run, checked⟩
  rw [columnsSplit]
  exact List.prefix_append _ _

theorem yields_parameters_iff {resolver : Expression → Resolution Resolved}
    {expressions : List Expression} {parameters : List AggregationParameter} :
    Yields (expressions.mapM (fun expression => do
        ofChecked (Frame.aggregationParameter (← resolver expression)))) before parameters after ↔
      ∃ trees, Yields (expressions.mapM resolver) before trees after ∧
        SeenAs trees parameters := by
  induction expressions generalizing before parameters with
  | nil =>
      simp only [yields_mapM_nil_iff]
      constructor
      · rintro ⟨rfl, rfl⟩
        exact ⟨[], ⟨rfl, rfl⟩, .nil⟩
      · rintro ⟨trees, ⟨rfl, rfl⟩, seen⟩
        cases seen
        exact ⟨rfl, rfl⟩
  | cons expression expressions ih =>
      simp only [yields_mapM_cons_iff, yields_bind_iff, yields_ofChecked_iff, ih]
      constructor
      · rintro ⟨parameter, between, parameters, ⟨tree, _, head, seen, rfl⟩,
          ⟨trees, tail, others⟩, rfl⟩
        exact ⟨tree :: trees, ⟨tree, between, trees, head, tail, rfl⟩, .cons seen others⟩
      · rintro ⟨_, ⟨tree, between, trees, head, tail, rfl⟩, seen⟩
        cases seen with
        | cons first others =>
            exact ⟨_, between, _, ⟨tree, between, head, first, rfl⟩, ⟨trees, tail, others⟩, rfl⟩

/-! ### Tables and calls -/

theorem yields_resolveTable_iff {resolver : Expression → Resolution Resolved}
    {node : TableAccess} {tree : Resolved} :
    Yields (frame.resolveTable resolver node) before tree after ↔
      ∃ table trees keys type between, frame.services.table? node.table = some table ∧
        node.keys.length = table.keys.length ∧
        Yields (node.keys.mapM resolver) before trees between ∧
        CheckedKeys node table table.keys trees keys ∧
        Frame.accessedType node table = .ok type ∧ tree = .table node keys type ∧
        after = { between with symbols := between.symbols.recordTable node } := by
  unfold Frame.resolveTable
  cases known : frame.services.table? node.table with
  | none => simp [not_yields_refuse]
  | some table =>
      by_cases paired : node.keys.length = table.keys.length
      · simp only [ne_eq, paired, not_true_eq_false, if_false, ↓yields_modifySymbols_bind_iff,
          yields_bind_iff, yields_keys_iff paired, yields_ofChecked_iff, yields_pure_iff]
        constructor
        · rintro ⟨keys, _, ⟨trees, run, checked⟩, type, between, ⟨typed, rfl⟩, rfl, rfl⟩
          exact ⟨table, trees, keys, type, between, rfl, rfl, run, checked, typed, rfl, rfl⟩
        · rintro ⟨_, trees, keys, type, between, same, _, run, checked, typed, rfl, rfl⟩
          cases same
          exact ⟨keys, between, ⟨trees, run, checked⟩, type, between, ⟨typed, rfl⟩, rfl, rfl⟩
      · simp [paired, not_yields_refuse]

theorem Frame.resolveDeclared_of_admitted {resolver : Scope → Expression → Resolution Resolved}
    {node : FunctionCall} {declaration : Declaration}
    (paired : declaration.parameters.length = node.parameters.length)
    (unexpanded : node.name ∉ scope.expanding) :
    Frame.resolveDeclared resolver scope node declaration = do
      let arguments ← node.parameters.mapM (resolver scope)
      let body ← resolver (scope.entering node.name declaration arguments) declaration.body
      return .declared node.name body := by
  unfold Frame.resolveDeclared
  simp only [paired, ne_eq, not_true_eq_false, if_false, List.contains_eq_mem, unexpanded,
    decide_false, Bool.false_eq_true]

theorem Frame.resolveDeclared_of_barred (resolver : Scope → Expression → Resolution Resolved)
    {node : FunctionCall} {declaration : Declaration}
    (barred : ¬(declaration.parameters.length = node.parameters.length ∧
      node.name ∉ scope.expanding)) :
    ∃ failure, Frame.resolveDeclared resolver scope node declaration =
      refuse failure node.position := by
  unfold Frame.resolveDeclared
  by_cases paired : declaration.parameters.length = node.parameters.length
  · have expanding : node.name ∈ scope.expanding := by
      by_contra unexpanded
      exact barred ⟨paired, unexpanded⟩
    simp only [paired, ne_eq, not_true_eq_false, if_false, List.contains_eq_mem, expanding,
      decide_true, if_true]
    exact ⟨_, rfl⟩
  · simp only [ne_eq, paired, not_false_eq_true, if_true]
    exact ⟨_, rfl⟩

theorem yields_resolveDeclared_iff {resolver : Scope → Expression → Resolution Resolved}
    {node : FunctionCall} {declaration : Declaration} {tree : Resolved} :
    Yields (Frame.resolveDeclared resolver scope node declaration) before tree after ↔
      ∃ arguments between body, declaration.parameters.length = node.parameters.length ∧
        node.name ∉ scope.expanding ∧
        Yields (node.parameters.mapM (resolver scope)) before arguments between ∧
        Yields (resolver (scope.entering node.name declaration arguments) declaration.body)
          between body after ∧
        tree = .declared node.name body := by
  by_cases admitted : declaration.parameters.length = node.parameters.length ∧
      node.name ∉ scope.expanding
  · rw [Frame.resolveDeclared_of_admitted admitted.1 admitted.2]
    simp only [yields_bind_iff, yields_pure_iff, admitted, not_false_eq_true, true_and]
    constructor
    · rintro ⟨arguments, between, run, body, _, inner, rfl, rfl⟩
      exact ⟨arguments, between, body, run, inner, rfl⟩
    · rintro ⟨arguments, between, body, run, inner, rfl⟩
      exact ⟨arguments, between, run, body, after, inner, rfl, rfl⟩
  · obtain ⟨failure, refused⟩ := Frame.resolveDeclared_of_barred resolver admitted
    rw [refused]
    refine iff_of_false not_yields_refuse ?_
    rintro ⟨_, _, _, paired, unexpanded, _⟩
    exact admitted ⟨paired, unexpanded⟩

theorem Frame.resolveAggregation_of_admitted {resolver : Scope → Expression → Resolution Resolved}
    {node : FunctionCall} {family : FunctionFamily} (notFilter : scope.clause ≠ .filter)
    (notGroupBy : scope.clause ≠ .groupBy) (outside : scope.inAggregation = false) :
    frame.resolveAggregation resolver scope node family = do
      let forge ← frame.resolveForge family node.position
      let parameters ← node.parameters.mapM (fun parameter => do
        ofChecked (aggregationParameter (← resolver scope.aggregated parameter)))
      let progress ← get
      match progress.calls.add ⟨node, .ofFamily family, forge, family, parameters⟩ with
      | .error failure => refuse failure node.position
      | .ok (site, calls) =>
          set { progress with calls := calls }
          return .aggregation site node.position none := by
  unfold Frame.resolveAggregation
  have allowed : ¬(decide (scope.clause = .filter) || decide (scope.clause = .groupBy)) = true := by
    simp only [notFilter, notGroupBy, decide_false, Bool.or_false, Bool.false_eq_true,
      not_false_eq_true]
  rewrite [if_neg allowed, outside]
  rfl

theorem Frame.resolveAggregation_of_barred (resolver : Scope → Expression → Resolution Resolved)
    {node : FunctionCall} {family : FunctionFamily}
    (barred : ¬(scope.clause ≠ .filter ∧ scope.clause ≠ .groupBy ∧ scope.inAggregation = false)) :
    ∃ failure, frame.resolveAggregation resolver scope node family =
      refuse failure node.position := by
  unfold Frame.resolveAggregation
  split
  · exact ⟨_, rfl⟩
  · rename_i allowed
    split
    · exact ⟨_, rfl⟩
    · rename_i outside
      simp only [Bool.or_eq_true, decide_eq_true_eq, not_or] at allowed
      exact absurd ⟨allowed.1, allowed.2, (Bool.not_eq_true _).mp outside⟩ barred

theorem yields_resolveAggregation_iff {resolver : Scope → Expression → Resolution Resolved}
    {node : FunctionCall} {family : FunctionFamily} {tree : Resolved} :
    Yields (frame.resolveAggregation resolver scope node family) before tree after ↔
      ∃ forge between trees parameters inner site calls,
        scope.clause ≠ .filter ∧ scope.clause ≠ .groupBy ∧ scope.inAggregation = false ∧
        Yields (frame.resolveForge family node.position) before forge between ∧
        Yields (node.parameters.mapM (resolver scope.aggregated)) between trees inner ∧
        SeenAs trees parameters ∧
        inner.calls.add ⟨node, .ofFamily family, forge, family, parameters⟩ =
          .ok (site, calls) ∧
        tree = .aggregation site node.position none ∧ after = { inner with calls := calls } := by
  by_cases admitted : scope.clause ≠ .filter ∧ scope.clause ≠ .groupBy ∧
      scope.inAggregation = false
  · rw [Frame.resolveAggregation_of_admitted admitted.1 admitted.2.1 admitted.2.2]
    simp only [↓yields_get_bind_iff, yields_bind_iff, yields_parameters_iff, admitted, ne_eq,
      not_false_eq_true, true_and]
    constructor
    · rintro ⟨forge, between, created, parameters, inner, ⟨trees, run, seen⟩, rest⟩
      cases added : inner.calls.add ⟨node, .ofFamily family, forge, family, parameters⟩ with
      | error failure =>
          rw [added] at rest
          exact absurd rest not_yields_refuse
      | ok result =>
          obtain ⟨site, calls⟩ := result
          rw [added] at rest
          simp only [yields_set_bind_iff, yields_pure_iff] at rest
          obtain ⟨rfl, rfl⟩ := rest
          exact ⟨forge, between, trees, parameters, inner, site, calls, created, run, seen,
            added, rfl, rfl⟩
    · rintro ⟨forge, between, trees, parameters, inner, site, calls, created, run, seen, added,
        rfl, rfl⟩
      refine ⟨forge, between, created, parameters, inner, ⟨trees, run, seen⟩, ?_⟩
      rw [added]
      exact yields_set_bind_iff.mpr (yields_pure_iff.mpr ⟨rfl, rfl⟩)
  · obtain ⟨failure, refused⟩ := @Frame.resolveAggregation_of_barred frame scope resolver node
      family admitted
    rw [refused]
    refine iff_of_false not_yields_refuse ?_
    rintro ⟨_, _, _, _, _, _, _, notFilter, notGroupBy, outside, _⟩
    exact admitted ⟨notFilter, notGroupBy, outside⟩

theorem SymbolContext.any_of_script? {symbols : SymbolContext} {name : String} {arity : Nat}
    {script : Script} (found : symbols.script? name arity = some script) :
    symbols.scripts.any (fun script => script.name = name) = true := by
  have member := List.mem_of_find?_eq_some found
  rw [List.mem_filter] at member
  exact List.any_eq_true.mpr ⟨script, member⟩

theorem yields_resolveCall_iff {resolver : Scope → Expression → Resolution Resolved}
    {node : FunctionCall} {tree : Resolved} :
    Yields (frame.resolveCall resolver scope node) before tree after ↔
      (∃ declaration, frame.declaration? before.symbols node.name = some declaration ∧
        Yields (Frame.resolveDeclared resolver scope node declaration) before tree after) ∨
      (∃ script arguments, frame.declaration? before.symbols node.name = none ∧
        before.symbols.script? node.name node.parameters.length = some script ∧
        Yields (node.parameters.mapM (resolver scope)) before arguments after ∧
        tree = .script script arguments) ∨
      (∃ family, frame.declaration? before.symbols node.name = none ∧
        before.symbols.scripts.any (fun script => script.name = node.name) = false ∧
        frame.services.family? node.name = some family ∧
        Yields (frame.resolveAggregation resolver scope node family) before tree after) := by
  unfold Frame.resolveCall
  simp only [yields_get_bind_iff]
  cases declared : frame.declaration? before.symbols node.name with
  | some declaration => simp
  | none =>
      cases scripted : before.symbols.scripts.any (fun script => script.name = node.name) with
      | true =>
          cases found : before.symbols.script? node.name node.parameters.length with
          | none => simp [not_yields_refuse]
          | some script => simp [yields_map_iff]
      | false =>
          have noScript : before.symbols.script? node.name node.parameters.length = none := by
            cases found : before.symbols.script? node.name node.parameters.length with
            | none => rfl
            | some script =>
                rw [SymbolContext.any_of_script? found] at scripted
                cases scripted
          cases known : frame.services.family? node.name with
          | none => simp [noScript, not_yields_refuse]
          | some family => simp [noScript]

/-! ### Statements -/

def Statement.run (statement : Statement) (resolver : Scope → Expression → Resolution Resolved) :
    Resolution (List Resolved) :=
  statement.items.mapM (fun item => resolver item.1 item.2)

theorem yields_each_iff {resolver : Scope → Expression → Resolution Resolved}
    {expressions : List Expression} {trees : List Resolved} :
    Yields ((scope.each expressions).mapM (fun item => resolver item.1 item.2))
        before trees after ↔
      Yields (expressions.mapM (resolver scope)) before trees after := by
  unfold Scope.each
  rw [List.mapM_map]
  rfl

theorem yields_columns_iff {resolver : Expression → Resolution Resolved}
    {items : List SelectItem} {start : Nat} {columns : List SelectColumn} :
    Yields ((items.zipIdx start).mapM (fun (item, index) => do
        let expression ← resolver item.expression
        return SelectColumn.mk (item.rename.getD (item.expression.columnName index)) expression))
        before columns after ↔
      Yields ((items.map SelectItem.expression).mapM resolver) before
          (columns.map SelectColumn.expression) after ∧
        columns.map SelectColumn.name = (items.zipIdx start).map (fun (item, index) =>
          item.rename.getD (item.expression.columnName index)) := by
  induction items generalizing start before columns with
  | nil =>
      simp only [List.zipIdx_nil, List.map_nil, yields_mapM_nil_iff, List.map_eq_nil_iff]
      constructor
      · rintro ⟨rfl, rfl⟩
        exact ⟨⟨rfl, rfl⟩, rfl⟩
      · rintro ⟨⟨rfl, rfl⟩, _⟩
        exact ⟨rfl, rfl⟩
  | cons item items ih =>
      simp only [List.zipIdx_cons, List.map_cons, yields_mapM_cons_iff, yields_bind_iff,
        yields_pure_iff, ih]
      constructor
      · rintro ⟨_, _, columns, ⟨tree, between, head, rfl, rfl⟩, ⟨tail, named⟩, rfl⟩
        exact ⟨⟨tree, _, _, head, tail, rfl⟩, congrArg (List.cons _) named⟩
      · rintro ⟨⟨tree, between, trees, head, tail, split⟩, named⟩
        cases columns with
        | nil => cases split
        | cons column columns =>
            obtain ⟨name, expression⟩ := column
            simp only [List.map_cons, List.cons.injEq] at split named
            obtain ⟨rfl, rfl⟩ := split
            obtain ⟨rfl, rest⟩ := named
            exact ⟨_, between, columns, ⟨_, between, head, rfl, rfl⟩, ⟨tail, rest⟩, rfl⟩

theorem yields_resolveClauses_iff {resolver : Scope → Expression → Resolution Resolved}
    {statement : Statement} {clauses : ResolvedClauses} :
    Yields (resolveClauses resolver statement) before clauses after ↔
      Yields (statement.run resolver) before clauses.trees after ∧ clauses.Shaped statement := by
  unfold resolveClauses Statement.run Statement.items ResolvedClauses.trees
  simp only [yields_bind_iff, yields_columns_iff, yields_optionMapM_iff, yields_pure_iff,
    yields_mapM_append_iff, yields_each_iff]
  constructor
  · rintro ⟨select, p, ⟨selectRun, named⟩, filter, q, filterRun, groupBy, r, groupByRun, having, s,
      havingRun, rfl, rfl⟩
    exact ⟨⟨_, _, _, ⟨_, _, _, ⟨_, _, _, selectRun, filterRun, rfl⟩, groupByRun, rfl⟩, havingRun,
      rfl⟩, ⟨named, filterRun.length_eq, groupByRun.length_eq, havingRun.length_eq⟩⟩
  · rintro ⟨⟨_, r, _, ⟨_, q, _, ⟨_, p, _, selectRun, filterRun, rfl⟩, groupByRun, rfl⟩, havingRun,
      split⟩, shaped⟩
    obtain ⟨front, rfl⟩ := List.append_inj' split (shaped.having.trans havingRun.length_eq.symm)
    obtain ⟨fore, rfl⟩ := List.append_inj' front (shaped.groupBy.trans groupByRun.length_eq.symm)
    obtain ⟨rfl, rfl⟩ := List.append_inj' fore (shaped.filter.trans filterRun.length_eq.symm)
    exact ⟨clauses.select, p, ⟨selectRun, shaped.select⟩, clauses.filter, q, filterRun,
      clauses.groupBy, r, groupByRun, clauses.having, after, havingRun, rfl, rfl⟩

private theorem columns_eq_map (resolver : Expression → Resolution Resolved)
    (items : List SelectItem) (start : Nat) :
    ∃ columns : List Resolved → List SelectColumn,
      (items.zipIdx start).mapM (fun (item, index) => do
        let expression ← resolver item.expression
        return SelectColumn.mk (item.rename.getD (item.expression.columnName index)) expression) =
        columns <$> (items.map SelectItem.expression).mapM resolver := by
  induction items generalizing start with
  | nil => exact ⟨fun _ => [], rfl⟩
  | cons item items ih =>
      obtain ⟨columns, same⟩ := ih (start + 1)
      let name := item.rename.getD (item.expression.columnName start)
      refine ⟨fun trees => trees.head?.toList.map (SelectColumn.mk name) ++ columns trees.tail, ?_⟩
      rw [List.zipIdx_cons, List.mapM_cons, same, List.map_cons, List.mapM_cons]
      simp only [map_eq_pure_bind, bind_assoc, pure_bind, List.head?_cons, Option.toList_some,
        List.map_cons, List.map_nil, List.tail_cons, List.singleton_append, name]

private theorem option_eq_map (resolver : Expression → Resolution Resolved)
    (clause : Option Expression) :
    clause.mapM resolver = List.head? <$> clause.toList.mapM resolver := by
  cases clause with
  | none => rfl
  | some expression =>
      simp only [Option.mapM_some, Option.toList_some, List.mapM_cons, List.mapM_nil, pure_bind,
        map_eq_pure_bind, bind_assoc, List.head?_cons]

theorem endsLike_resolveClauses (resolver : Scope → Expression → Resolution Resolved)
    (statement : Statement) :
    EndsLike (resolveClauses resolver statement) (statement.run resolver) := by
  obtain ⟨columns, select⟩ := columns_eq_map (resolver (.ofClause .select)) statement.select 0
  have each (scope : Scope) (expressions : List Expression) :
      (scope.each expressions).mapM (fun item => resolver item.1 item.2) =
        expressions.mapM (resolver scope) := by
    unfold Scope.each
    rw [List.mapM_map]
    rfl
  unfold resolveClauses Statement.run Statement.items
  rw [select]
  simp only [option_eq_map, List.mapM_append, each, map_eq_pure_bind, bind_assoc, pure_bind]
  exact .bind fun _ => .bind fun _ => .bind fun _ => .bind fun _ => .pure _ _

theorem compileStatement_of_bound {resolver : Resolver} {services : Services}
    {order : Nat → List Nat} {isSubquery : Bool} {statement : Statement}
    {symbols : SymbolContext} {memory : CompilerMemory} {streams : List StreamBinding}
    (bound : bindStreams services.registry [] statement.streams = .ok streams) :
    compileStatement resolver services order isSubquery statement symbols memory =
      let frame := Frame.ofStatement services order isSubquery statement streams
      let run := (runStatement (resolver frame) frame statement).outcome
        (.opening statement symbols memory)
      (run.1.map (fun spec => (spec, run.2.symbols)), run.2.memory) := by
  unfold compileStatement
  rw [bound]
  simp only [outcome]
  cases (runStatement (resolver (.ofStatement services order isSubquery statement streams))
      (.ofStatement services order isSubquery statement streams) statement).run.run
      (.opening statement symbols memory) with
  | mk result finish => cases result <;> rfl

theorem compileStatement_ok_iff {resolver : Resolver} {services : Services}
    {order : Nat → List Nat} {isSubquery : Bool} {statement : Statement}
    {symbols gathered : SymbolContext} {memory memory' : CompilerMemory} {spec : StatementSpec} :
    compileStatement resolver services order isSubquery statement symbols memory =
        (.ok (spec, gathered), memory') ↔
      ∃ streams finish, bindStreams services.registry [] statement.streams = .ok streams ∧
        Yields (runStatement
            (resolver (.ofStatement services order isSubquery statement streams))
            (.ofStatement services order isSubquery statement streams) statement)
          (.opening statement symbols memory) spec finish ∧
        gathered = finish.symbols ∧ memory' = finish.memory := by
  cases bound : bindStreams services.registry [] statement.streams with
  | error failure => simp [compileStatement, bound]
  | ok streams =>
      rw [compileStatement_of_bound bound]
      simp only [Except.ok.injEq, exists_and_left, exists_eq_left', Yields]
      cases (runStatement (resolver (.ofStatement services order isSubquery statement streams))
          (.ofStatement services order isSubquery statement streams) statement).outcome
          (.opening statement symbols memory) with
      | mk result finish =>
          cases result with
          | error fault => simp [Except.map]
          | ok found =>
              simp only [Except.map, Prod.mk.injEq, Except.ok.injEq]
              constructor
              · rintro ⟨⟨rfl, rfl⟩, rfl⟩
                exact ⟨finish, ⟨rfl, rfl⟩, rfl, rfl⟩
              · rintro ⟨_, ⟨rfl, rfl⟩, rfl, rfl⟩
                exact ⟨⟨rfl, rfl⟩, rfl⟩

theorem yields_resolveSubquery_iff {resolver : Resolver} {position : Option Position}
    {statement : Statement} {tree : Resolved} :
    Yields (frame.resolveSubquery resolver position statement) before tree after ↔
      ∃ spec symbols memory, statement.select.length = 1 ∧
        compileStatement resolver frame.services frame.order true statement .empty before.memory =
          (.ok (spec, symbols), memory) ∧
        tree = .subquery before.subqueries.length spec.columnType ∧
        after = before.afterSubquery spec symbols memory := by
  unfold Frame.resolveSubquery
  by_cases single : statement.select.length = 1
  · simp only [single, ne_eq, not_true_eq_false, if_false, yields_get_bind_iff]
    cases compiled : compileStatement resolver frame.services frame.order true statement .empty
        before.memory with
    | mk result memory =>
        cases result with
        | error fault =>
            simp only [yields_set_bind_iff, not_yields_throw, and_false, exists_false,
              Prod.mk.injEq, reduceCtorEq, false_and]
        | ok found =>
            obtain ⟨spec, symbols⟩ := found
            simp only [yields_set_bind_iff, yields_pure_iff]
            constructor
            · rintro ⟨rfl, rfl⟩
              exact ⟨spec, symbols, memory, trivial, rfl, rfl, rfl⟩
            · rintro ⟨_, _, _, _, same, rfl, rfl⟩
              cases same
              exact ⟨rfl, rfl⟩
  · simp [single, not_yields_refuse]

end EventQuery
