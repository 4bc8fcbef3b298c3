import EventQuery.Proofs.Resolution.Retention
import EventQuery.Proofs.Scoping.InPlace

set_option autoImplicit false

/-! Resolution in place leaves the state as it was, all but the progress, and ends as resolution
does whose frame and scope are given. One step keeps this: what is changed on the way in is
changed back on the way out, with a tree or with a failure. -/

namespace EventQuery

open Resolution

namespace InPlace

variable {α β : Type}

theorem outcome_bind (action : InPlace α) (next : α → InPlace β) (state : ResolverState) :
    outcome (action >>= next) state =
      match action.outcome state with
      | (.ok value, between) => (next value).outcome between
      | (.error fault, between) => (.error fault, between) := by
  simp only [outcome, ExceptT.run_bind, StateT.run_bind]
  cases action.run.run state with
  | mk result between =>
      cases result with
      | ok value => rfl
      | error fault => rfl

theorem outcome_bracket (change restore : ResolverState → ResolverState) (action : InPlace α)
    (state : ResolverState) :
    (bracket change restore action).outcome state =
      ((action.outcome (change state)).1, restore (action.outcome (change state)).2) := by
  have changed : (modify change : InPlace PUnit).outcome state = (.ok (), change state) := rfl
  have lifted : outcome (ExceptT.lift action.run) (change state) =
      (.ok (action.outcome (change state)).1, (action.outcome (change state)).2) := rfl
  unfold bracket
  rw [outcome_bind, changed]
  dsimp only
  rw [outcome_bind, lifted]
  dsimp only
  rw [outcome_bind]
  cases (action.outcome (change state)).1 with
  | ok value => rfl
  | error fault => rfl

/-- With a frame and in a scope, the resolution in place ends as the other one does, and only the
progress of the state is another one afterwards. -/
def Follows (frame : Frame) (scope : Scope) (action : InPlace α) (plain : Resolution α) : Prop :=
  ∀ state, state.frame = frame → state.scope = scope →
    action.outcome state = ((plain.outcome state.progress).1,
      state.withProgress (plain.outcome state.progress).2)

namespace Follows

variable {frame : Frame} {scope inner : Scope} {action : InPlace α} {plain : Resolution α}

theorem pure (value : α) : Follows frame scope (pure value) (pure value) :=
  fun _ _ _ => rfl

theorem throw (fault : CompileFault) : Follows frame scope (throw fault : InPlace α)
    (throw fault) :=
  fun _ _ _ => rfl

theorem step (action : Frame → Scope → Resolution α) :
    Follows frame scope (InPlace.step action) (action frame scope) := by
  intro state sameFrame sameScope
  subst sameFrame sameScope
  rfl

theorem gather (action : Resolution α) : Follows frame scope (gather action) action :=
  step (fun _ _ => action)

theorem bind {next : α → InPlace β} {plainNext : α → Resolution β}
    (first : Follows frame scope action plain)
    (rest : ∀ value, Follows frame scope (next value) (plainNext value)) :
    Follows frame scope (action >>= next) (plain >>= plainNext) := by
  intro state sameFrame sameScope
  rw [outcome_bind, Resolution.outcome_bind, first state sameFrame sameScope]
  cases plain.outcome state.progress with
  | mk result progress =>
      cases result with
      | error fault => rfl
      | ok value => exact rest value (state.withProgress progress) sameFrame sameScope

theorem map (change : α → β) (first : Follows frame scope action plain) :
    Follows frame scope (change <$> action) (change <$> plain) := by
  rw [map_eq_pure_bind, map_eq_pure_bind]
  exact first.bind (fun value => .pure (change value))

theorem mapM {action : α → InPlace β} {plain : α → Resolution β}
    (each : ∀ item, Follows frame scope (action item) (plain item)) (items : List α) :
    Follows frame scope (items.mapM action) (items.mapM plain) := by
  induction items with
  | nil => exact .pure _
  | cons item items ih =>
      rw [List.mapM_cons, List.mapM_cons]
      exact (each item).bind (fun first => ih.bind (fun rest => .pure (first :: rest)))

theorem optionMapM {action : α → InPlace β} {plain : α → Resolution β}
    (each : ∀ item, Follows frame scope (action item) (plain item)) (item : Option α) :
    Follows frame scope (item.mapM action) (item.mapM plain) := by
  cases item with
  | none => exact .pure _
  | some present => exact (each present).map some

theorem read {next : ResolverState → InPlace α}
    (rest : ∀ state, state.frame = frame → state.scope = scope →
      Follows frame scope (next state) plain) : Follows frame scope (get >>= next) plain :=
  fun state sameFrame sameScope => rest state sameFrame sameScope state sameFrame sameScope

theorem get_bind {next : ResolverState → InPlace α} {plain : Progress → Resolution α}
    (rest : ∀ state, state.frame = frame → state.scope = scope →
      (next state).outcome state = (((plain state.progress).outcome state.progress).1,
        state.withProgress ((plain state.progress).outcome state.progress).2)) :
    Follows frame scope (get >>= next) (get >>= plain) :=
  rest

theorem bracket {change restore : ResolverState → ResolverState}
    (moved : ∀ state, state.frame = frame → state.scope = scope →
      (change state).frame = frame ∧ (change state).scope = inner ∧
        (change state).progress = state.progress ∧
        ∀ progress, restore ((change state).withProgress progress) = state.withProgress progress)
    (inside : Follows frame inner action plain) :
    Follows frame scope (bracket change restore action) plain := by
  intro state sameFrame sameScope
  obtain ⟨frameInside, scopeInside, progressInside, restored⟩ := moved state sameFrame sameScope
  have run := inside (change state) frameInside scopeInside
  rw [progressInside] at run
  rw [outcome_bracket, run, restored]

theorem enter {name : String} {declaration : Declaration} {arguments : List Resolved}
    (inside : Follows frame (scope.entering name declaration arguments) action plain) :
    Follows frame scope (InPlace.bracket
      (ResolverState.enter name (declaration.parameters.zip arguments).reverse)
      ResolverState.leave action) plain := by
  refine bracket (fun state sameFrame sameScope => ?_) inside
  subst sameScope
  exact ⟨sameFrame, rfl, rfl, fun _ => rfl⟩

theorem aggregated (outside : scope.inAggregation = false)
    (inside : Follows frame scope.aggregated action plain) :
    Follows frame scope (InPlace.bracket (ResolverState.markAggregation true)
      (ResolverState.markAggregation false) action) plain := by
  refine bracket (fun state sameFrame sameScope => ?_) inside
  subst sameScope
  refine ⟨sameFrame, rfl, rfl, fun progress => ?_⟩
  -- The mark is taken back by erasing it, which is right only where there was none before.
  have unmarked : state.inAggregation = false := outside
  unfold ResolverState.markAggregation ResolverState.withProgress
  rw [← unmarked]

end Follows

variable {resolve : Expression → InPlace Resolved} {resolver : Resolver} {frame : Frame}
  {scope : Scope}

def FollowsAll (resolve : Expression → InPlace Resolved) (resolver : Resolver) : Prop :=
  ∀ frame scope expression,
    Follows frame scope (resolve expression) (resolver frame scope expression)

section

variable (follows : FollowsAll resolve resolver)

include follows

theorem follows_table (node : TableAccess) :
    Follows frame scope (resolveTable resolve node)
      (frame.resolveTable (resolver frame scope) node) := by
  apply Follows.read
  intro state sameFrame _
  dsimp only
  rw [sameFrame]
  unfold Frame.resolveTable
  cases frame.services.table? node.table with
  | none => exact .gather _
  | some table =>
      by_cases paired : node.keys.length ≠ table.keys.length
      · simp only [if_pos paired]
        exact .gather _
      · simp only [if_neg paired]
        apply Follows.bind
        · apply Follows.mapM
          intro entry
          exact (follows frame scope entry.1).bind (fun _ => .gather _)
        · intro keys
          exact (Follows.gather _).bind (fun type => (Follows.gather _).bind (fun _ => .pure _))

theorem follows_declared (node : FunctionCall) (declaration : Declaration) :
    Follows frame scope (resolveDeclared resolve node declaration)
      (Frame.resolveDeclared (resolver frame) scope node declaration) := by
  apply Follows.read
  intro state _ sameScope
  have expanding : state.expanding = scope.expanding := congrArg Scope.expanding sameScope
  dsimp only
  rw [expanding]
  unfold Frame.resolveDeclared
  dsimp only
  split
  · exact .gather _
  · split
    · exact .gather _
    · apply Follows.bind (Follows.mapM (follows frame scope) _)
      intro arguments
      apply Follows.bind
      · exact Follows.enter (follows frame _ declaration.body)
      · exact fun body => .pure _

theorem follows_aggregation (node : FunctionCall) (family : FunctionFamily) :
    Follows frame scope (resolveAggregation resolve node family)
      (frame.resolveAggregation (resolver frame) scope node family) := by
  apply Follows.read
  intro state _ sameScope
  have clause : state.clause = scope.clause := congrArg Scope.clause sameScope
  have inside : state.inAggregation = scope.inAggregation :=
    congrArg Scope.inAggregation sameScope
  rw [clause, inside]
  unfold Frame.resolveAggregation
  by_cases barred : (decide (scope.clause = .filter) || decide (scope.clause = .groupBy)) = true
  · simp only [if_pos barred]
    exact .gather _
  · by_cases nested : scope.inAggregation = true
    · simp only [if_neg barred, if_pos nested]
      exact .gather _
    · simp only [if_neg barred, if_neg nested]
      apply Follows.bind (Follows.step _)
      intro forge
      apply Follows.bind
      · apply Follows.aggregated (Bool.not_eq_true _ ▸ nested)
        apply Follows.mapM
        intro parameter
        exact (follows frame scope.aggregated parameter).bind (fun _ => .gather _)
      · intro parameters
        apply Follows.get_bind
        intro state _ _
        cases state.progress.calls.add ⟨node, .ofFamily family, forge, family, parameters⟩ with
        | error failure => rfl
        | ok added => rfl

theorem follows_call (node : FunctionCall) :
    Follows frame scope (resolveCall resolve node)
      (frame.resolveCall (resolver frame) scope node) := by
  apply Follows.get_bind
  intro state sameFrame sameScope
  subst sameFrame
  dsimp only
  cases state.frame.declaration? state.progress.symbols node.name with
  | some declaration => exact follows_declared follows node declaration state rfl sameScope
  | none =>
      dsimp only
      split
      · cases state.progress.symbols.script? node.name node.parameters.length with
        | none => rfl
        | some script =>
            have given := Follows.mapM (follows state.frame scope) node.parameters
            have called := given.bind (fun arguments => .pure (Resolved.script script arguments))
            exact called state rfl sameScope
      · cases state.frame.services.family? node.name with
        | some family => exact follows_aggregation follows node family state rfl sameScope
        | none => rfl

end

/-- Outside of all declarations and aggregation calls, the resolution in place ends as the other
one does. Which clause it ends in is left open. -/
def Opens (frame : Frame) (action : InPlace α) (plain : Resolution α) : Prop :=
  ∀ clause progress, ∃ last,
    action.outcome { ResolverState.opening frame progress with clause := clause } =
      ((plain.outcome progress).1,
        { ResolverState.opening frame (plain.outcome progress).2 with clause := last })

theorem Opens.of_follows {action : InPlace α} {plain : Resolution α}
    (follows : ∀ clause, Follows frame (.ofClause clause) action plain) :
    Opens frame action plain := by
  intro clause progress
  exact ⟨clause, follows clause _ rfl rfl⟩

theorem Opens.bind {action : InPlace α} {plain : Resolution α} {next : α → InPlace β}
    {plainNext : α → Resolution β} (first : Opens frame action plain)
    (rest : ∀ value, Opens frame (next value) (plainNext value)) :
    Opens frame (action >>= next) (plain >>= plainNext) := by
  intro clause progress
  obtain ⟨between, run⟩ := first clause progress
  rw [outcome_bind, Resolution.outcome_bind, run]
  cases plain.outcome progress with
  | mk result progress =>
      cases result with
      | error fault => exact ⟨between, rfl⟩
      | ok value => exact rest value between progress

theorem Opens.turn {clause : Clause} {action : InPlace α} {plain : Resolution α}
    {next : α → InPlace β} {plainNext : α → Resolution β}
    (first : Follows frame (.ofClause clause) action plain)
    (rest : ∀ value, Opens frame (next value) (plainNext value)) :
    Opens frame (turnTo clause >>= fun _ => action >>= next) (plain >>= plainNext) := by
  have turned : Opens frame (turnTo clause >>= fun _ => action) plain := by
    intro earlier progress
    exact ⟨clause, first _ rfl rfl⟩
  have assoc : (turnTo clause >>= fun _ => action >>= next) =
      (turnTo clause >>= fun _ => action) >>= next := (bind_assoc _ _ _).symm
  rw [assoc]
  exact turned.bind rest

section

variable (follows : FollowsAll resolve resolver)

include follows

theorem opens_clauses (statement : Statement) :
    Opens frame (resolveClauses resolve statement)
      (EventQuery.resolveClauses (resolver frame) statement) := by
  apply Opens.turn
  · apply Follows.mapM
    intro entry
    exact (follows frame _ entry.1.expression).bind (fun _ => .pure _)
  · intro select
    apply Opens.turn (Follows.optionMapM (follows frame _) _)
    intro filter
    apply Opens.turn (Follows.mapM (follows frame _) _)
    intro groupBy
    apply Opens.turn (Follows.optionMapM (follows frame _) _)
    intro condition
    exact .of_follows (fun _ => .pure _)

theorem compileStatement_eq (services : Services) (order : Nat → List Nat) (isSubquery : Bool)
    (statement : Statement) (symbols : SymbolContext) (memory : CompilerMemory) :
    compileStatement resolve services order isSubquery statement symbols memory =
      EventQuery.compileStatement resolver services order isSubquery statement symbols memory := by
  cases bound : bindStreams services.registry [] statement.streams with
  | error failure => simp only [compileStatement, EventQuery.compileStatement, bound]
  | ok streams =>
      let frame := Frame.ofStatement services order isSubquery statement streams
      have whole : Opens frame (runStatement resolve statement)
          (EventQuery.runStatement (resolver frame) frame statement) := by
        apply (opens_clauses follows statement).bind
        intro clauses
        exact .of_follows (fun _ => .step _)
      obtain ⟨last, run⟩ := whole .select (.opening statement symbols memory)
      rw [compileStatement_of_bound bound]
      simp only [compileStatement, bound]
      have start : { ResolverState.opening frame (.opening statement symbols memory) with
        clause := .select } = ResolverState.opening frame (.opening statement symbols memory) := rfl
      rw [start] at run
      rw [run]
      cases (EventQuery.runStatement (resolver frame) frame statement).outcome
          (.opening statement symbols memory) with
      | mk result progress => cases result <;> rfl

theorem follows_subquery (position : Option Position) (statement : Statement) :
    Follows frame scope (resolveSubquery resolve position statement)
      (frame.resolveSubquery resolver position statement) := by
  unfold resolveSubquery Frame.resolveSubquery
  by_cases single : statement.select.length ≠ 1
  · simp only [if_pos single]
    exact .gather _
  · simp only [if_neg single]
    apply Follows.get_bind
    intro state sameFrame _
    subst sameFrame
    rw [compileStatement_eq follows]
    cases EventQuery.compileStatement resolver state.frame.services state.frame.order true
        statement .empty state.progress.memory with
    | mk result memory => cases result <;> rfl

end

end InPlace

open InPlace

/-- The induction is on the fuel: a body, a parameter and a subquery have one unit less. -/
theorem resolveInPlace_follows (fuel : Nat) :
    FollowsAll (resolveInPlace fuel) (resolve .spent fuel) := by
  induction fuel with
  | zero => exact fun _ _ _ => .throw _
  | succ fuel ih =>
      intro frame scope expression
      cases expression with
      | constant position value => exact .pure _
      | property node => exact .step (fun frame scope => frame.resolveProperty scope node)
      | wildcard position stream =>
          exact .step (fun frame scope => frame.resolveWildcard scope position stream)
      | substitution node => exact .step (fun frame _ => frame.resolveSubstitution node)
      | prior position index node =>
          exact .step (fun frame scope => frame.resolvePrior scope position index node)
      | table node => exact follows_table ih node
      | call node => exact follows_call ih node
      | subquery position statement => exact follows_subquery ih position statement
      | math operator left right =>
          exact (ih frame scope left).bind (fun _ => (ih frame scope right).bind (fun _ => .pure _))
      | compare operator left right =>
          exact (ih frame scope left).bind (fun _ => (ih frame scope right).bind (fun _ => .pure _))
      | and left right =>
          exact (ih frame scope left).bind (fun _ => (ih frame scope right).bind (fun _ => .pure _))
      | or left right =>
          exact (ih frame scope left).bind (fun _ => (ih frame scope right).bind (fun _ => .pure _))
      | not inner => exact (ih frame scope inner).bind (fun _ => .pure _)

/-- A resolver comes out of every expression as it went in. With a tree or with a failure, it has
the same parameters in sight, is expanding the same declarations, and is in the same clause and
within an aggregation call or not as before; its streams, declarations, scripts and the name of
its context are the same. What it had gathered is still there: substitution parameters, call
sites and subqueries at their positions, variables and tables, and the forge of each key. It ends
as the resolution does that is told its frame and its scope. -/
theorem resolveInPlace_restores (fuel : Nat) (expression : Expression) (before : ResolverState) :
    let ending := (resolveInPlace fuel expression).outcome before
    let after := ending.2
    let plain :=
      (resolve .spent fuel before.frame before.scope expression).outcome before.progress
    (ending.1 = plain.1 ∧ after.progress = plain.2) ∧
    (after.parameters = before.parameters ∧ after.expanding = before.expanding ∧
      after.clause = before.clause ∧ after.inAggregation = before.inAggregation) ∧
    after.frame = before.frame ∧
    before.progress.Keeps after.progress := by
  dsimp only
  have run := resolveInPlace_follows fuel before.frame before.scope expression before rfl rfl
  rw [run]
  refine ⟨⟨rfl, rfl⟩, ⟨rfl, rfl, rfl, rfl⟩, rfl, ?_⟩
  exact keeps_resolve fuel before.frame before.scope expression before.progress

-- a body that is refused within the body of another declaration
example :
    let services := Services.initial.declareExpression
      ⟨"inner", ["x"], .not (.property ⟨none, none, "y"⟩)⟩
    let frame : Frame := ⟨services, List.range, "s", false, []⟩
    let progress : Progress := ⟨.empty, .empty, [], none, .empty⟩
    let state := (ResolverState.opening frame progress).enter "outer" []
    let call := Expression.call ⟨none, "inner", false, [.constant none (.int 1)]⟩
    let ending := (resolveInPlace 3 call).outcome state
    (ending.1.isOk, ending.2.parameters.length, ending.2.expanding) = (false, 1, ["outer"]) := by
  decide +kernel

end EventQuery
