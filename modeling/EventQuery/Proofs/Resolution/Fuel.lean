import EventQuery.Proofs.Resolution.Soundness

set_option autoImplicit false

/-! More fuel never changes what a resolution ends with, unless it ran out of fuel, and with
enough fuel a run yields whatever the rules derive. -/

namespace EventQuery

namespace Resolution

variable {α β : Type}

def Starves (action : Resolution α) (before : Progress) : Prop :=
  (action.outcome before).1 = .error .unfinished

/-- The second resolution ends like the first wherever the first does not run out of fuel. -/
def RefinedBy (action finer : Resolution α) : Prop :=
  ∀ before, action.Starves before ∨ finer.outcome before = action.outcome before

theorem RefinedBy.refl (action : Resolution α) : RefinedBy action action :=
  fun _ => .inr rfl

theorem RefinedBy.bind {action finer : Resolution α} {next finerNext : α → Resolution β}
    (first : RefinedBy action finer) (rest : ∀ value, RefinedBy (next value) (finerNext value)) :
    RefinedBy (action >>= next) (finer >>= finerNext) := by
  intro before
  simp only [Starves, outcome_bind]
  rcases first before with starved | same
  · left
    unfold Starves at starved
    cases run : action.outcome before with
    | mk result between =>
        rw [run] at starved
        cases starved
        rfl
  · rw [same]
    cases action.outcome before with
    | mk result between =>
        cases result with
        | ok value => exact rest value between
        | error fault => exact .inr rfl

theorem RefinedBy.map {action finer : Resolution α} (change : α → β)
    (first : RefinedBy action finer) : RefinedBy (change <$> action) (change <$> finer) := by
  rw [map_eq_pure_bind, map_eq_pure_bind]
  exact first.bind (fun value => .refl (pure (change value)))

theorem RefinedBy.mapM {action finer : α → Resolution β}
    (each : ∀ item, RefinedBy (action item) (finer item)) (items : List α) :
    RefinedBy (items.mapM action) (items.mapM finer) := by
  induction items with
  | nil => exact .refl _
  | cons item items ih =>
      rw [List.mapM_cons, List.mapM_cons]
      exact (each item).bind (fun first => ih.bind (fun rest => .refl (pure (first :: rest))))

theorem RefinedBy.optionMapM {action finer : α → Resolution β}
    (each : ∀ item, RefinedBy (action item) (finer item)) (item : Option α) :
    RefinedBy (item.mapM action) (item.mapM finer) := by
  cases item with
  | none => exact .refl _
  | some present => exact (each present).map some

theorem RefinedBy.yields {action finer : Resolution α} {before after : Progress} {value : α}
    (refined : RefinedBy action finer) (run : Yields action before value after) :
    Yields finer before value after := by
  rcases refined before with starved | same
  · rw [Starves, run] at starved
    cases starved
  · exact same.trans run

end Resolution

open Resolution

def Resolver.RefinedBy (resolver finer : Resolver) : Prop :=
  ∀ frame scope expression,
    Resolution.RefinedBy (resolver frame scope expression) (finer frame scope expression)

namespace Resolver.RefinedBy

variable {resolver finer : Resolver} (refined : resolver.RefinedBy finer)

include refined

private theorem table (frame : Frame) (scope : Scope) (node : TableAccess) :
    Resolution.RefinedBy (frame.resolveTable (resolver frame scope) node)
      (frame.resolveTable (finer frame scope) node) := by
  unfold Frame.resolveTable
  split
  · exact .refl _
  · split
    · exact .refl _
    · exact (RefinedBy.mapM (fun (key, column) =>
        (refined frame scope key).bind (fun _ => .refl _)) _).bind (fun _ => .refl _)

private theorem declared (frame : Frame) (scope : Scope) (node : FunctionCall)
    (declaration : Declaration) :
    Resolution.RefinedBy (Frame.resolveDeclared (resolver frame) scope node declaration)
      (Frame.resolveDeclared (finer frame) scope node declaration) := by
  unfold Frame.resolveDeclared
  dsimp only
  split
  · exact .refl _
  · split
    · exact .refl _
    · exact (RefinedBy.mapM (refined frame scope) _).bind (fun arguments =>
        (refined frame _ declaration.body).bind (fun _ => .refl _))

private theorem aggregation (frame : Frame) (scope : Scope) (node : FunctionCall)
    (family : FunctionFamily) :
    Resolution.RefinedBy (frame.resolveAggregation (resolver frame) scope node family)
      (frame.resolveAggregation (finer frame) scope node family) := by
  unfold Frame.resolveAggregation
  split
  · exact .refl _
  · split
    · exact .refl _
    · exact (RefinedBy.refl _).bind (fun _ => (RefinedBy.mapM (fun parameter =>
        (refined frame scope.aggregated parameter).bind (fun _ => .refl _)) _).bind
          (fun _ => .refl _))

private theorem call (frame : Frame) (scope : Scope) (node : FunctionCall) :
    Resolution.RefinedBy (frame.resolveCall (resolver frame) scope node)
      (frame.resolveCall (finer frame) scope node) := by
  unfold Frame.resolveCall
  refine (RefinedBy.refl _).bind (fun progress => ?_)
  dsimp only
  split
  · exact refined.declared frame scope node _
  · split
    · split
      · exact .refl _
      · exact (RefinedBy.mapM (refined frame scope) _).bind (fun _ => .refl _)
    · split
      · exact refined.aggregation frame scope node _
      · exact .refl _

private theorem clauses (frame : Frame) (statement : Statement) :
    Resolution.RefinedBy (resolveClauses (resolver frame) statement)
      (resolveClauses (finer frame) statement) := by
  unfold resolveClauses
  refine (RefinedBy.mapM (fun (item, _) =>
    (refined frame _ item.expression).bind (fun _ => .refl _)) _).bind (fun _ => ?_)
  refine (RefinedBy.optionMapM (refined frame _) _).bind (fun _ => ?_)
  refine (RefinedBy.mapM (refined frame _) _).bind (fun _ => ?_)
  exact (RefinedBy.optionMapM (refined frame _) _).bind (fun _ => .refl _)

theorem compileStatement (services : Services) (order : Nat → List Nat) (isSubquery : Bool)
    (statement : Statement) (symbols : SymbolContext) (memory : CompilerMemory) :
    (compileStatement resolver services order isSubquery statement symbols memory).1 =
        .error .unfinished ∨
      EventQuery.compileStatement finer services order isSubquery statement symbols memory =
        EventQuery.compileStatement resolver services order isSubquery statement symbols
          memory := by
  cases bound : bindStreams services.registry [] statement.streams with
  | error failure =>
      right
      simp only [EventQuery.compileStatement, bound]
  | ok streams =>
      rw [compileStatement_of_bound bound, compileStatement_of_bound bound]
      have whole : Resolution.RefinedBy
          (runStatement (resolver (.ofStatement services order isSubquery statement streams))
            (.ofStatement services order isSubquery statement streams) statement)
          (runStatement (finer (.ofStatement services order isSubquery statement streams))
            (.ofStatement services order isSubquery statement streams) statement) :=
        (refined.clauses _ statement).bind (fun _ => .refl _)
      rcases whole (.opening statement symbols memory) with starved | same
      · left
        dsimp only
        rw [starved]
        rfl
      · right
        dsimp only
        rw [same]

private theorem subquery (frame : Frame) (position : Option Position) (statement : Statement) :
    Resolution.RefinedBy (frame.resolveSubquery resolver position statement)
      (frame.resolveSubquery finer position statement) := by
  unfold Frame.resolveSubquery
  split
  · exact .refl _
  · intro before
    rcases refined.compileStatement frame.services frame.order true statement .empty before.memory
      with starved | same
    · left
      simp only [Starves, outcome_get_bind]
      cases run : EventQuery.compileStatement resolver frame.services frame.order true statement
          .empty before.memory with
      | mk result memory =>
          rw [run] at starved
          cases starved
          rfl
    · right
      simp only [outcome_get_bind, same]

theorem resolve (fuel : Nat) :
    Resolver.RefinedBy (EventQuery.resolve resolver fuel) (EventQuery.resolve finer fuel) := by
  induction fuel with
  | zero => exact refined
  | succ fuel ih =>
      intro frame scope expression
      cases expression with
      | constant position value => exact .refl _
      | property node => exact .refl _
      | wildcard position stream => exact .refl _
      | substitution node => exact .refl _
      | prior position index node => exact .refl _
      | table node => exact ih.table frame scope node
      | call node => exact ih.call frame scope node
      | subquery position statement => exact ih.subquery frame position statement
      | math operator left right =>
          exact (ih frame scope left).bind (fun _ =>
            (ih frame scope right).bind (fun _ => .refl _))
      | compare operator left right =>
          exact (ih frame scope left).bind (fun _ =>
            (ih frame scope right).bind (fun _ => .refl _))
      | and left right =>
          exact (ih frame scope left).bind (fun _ =>
            (ih frame scope right).bind (fun _ => .refl _))
      | or left right =>
          exact (ih frame scope left).bind (fun _ =>
            (ih frame scope right).bind (fun _ => .refl _))
      | not inner => exact (ih frame scope inner).bind (fun _ => .refl _)

end Resolver.RefinedBy

theorem resolve_refinedBy {fuel more : Nat} (enough : fuel ≤ more) :
    Resolver.RefinedBy (resolve .spent fuel) (resolve .spent more) := by
  obtain ⟨extra, rfl⟩ := Nat.exists_eq_add_of_le enough
  have nothing : Resolver.RefinedBy .spent (resolve .spent extra) := fun _ _ _ _ => .inl rfl
  have refined := nothing.resolve fuel
  rwa [resolve_resolve, Nat.add_comm] at refined

section

variable {frame : Frame} {scope : Scope} {expression : Expression} {tree : Resolved}
variable {items : List (Scope × Expression)} {trees : List Resolved} {before after : Progress}
variable {fuel more : Nat}

private theorem yields_of_le (enough : fuel ≤ more)
    (run : Yields (resolve .spent fuel frame scope expression) before tree after) :
    Yields (resolve .spent more frame scope expression) before tree after :=
  (resolve_refinedBy enough frame scope expression).yields run

private theorem yieldsAll_of_le (enough : fuel ≤ more)
    (run : Yields (items.mapM (fun item => resolve .spent fuel frame item.1 item.2))
      before trees after) :
    Yields (items.mapM (fun item => resolve .spent more frame item.1 item.2))
      before trees after :=
  (RefinedBy.mapM (fun item => resolve_refinedBy enough frame item.1 item.2) items).yields run

end

mutual

theorem Resolves.yields {frame : Frame} {scope : Scope} {expression : Expression}
    {tree : Resolved} {before after : Progress} :
    Resolves frame scope expression before tree after →
      ∃ fuel, Yields (resolve .spent fuel frame scope expression) before tree after
  | .constant => ⟨1, yields_pure_iff.mpr ⟨rfl, rfl⟩⟩
  | .property run => ⟨1, run⟩
  | .wildcard run => ⟨1, run⟩
  | .substitution run => ⟨1, run⟩
  | .prior run => ⟨1, run⟩
  | .table known paired given checked typed => by
      obtain ⟨fuel, run⟩ := given.yields
      exact ⟨fuel + 1, yields_resolveTable_iff.mpr
        ⟨_, _, _, _, _, known, paired, yields_each_iff.mp run, checked, typed, rfl, rfl⟩⟩
  | .declared declared arity unexpanded given inner => by
      obtain ⟨fuel, run⟩ := given.yields
      obtain ⟨fuel', inside⟩ := inner.yields
      refine ⟨max fuel fuel' + 1, yields_resolveCall_iff.mpr (.inl ⟨_, declared, ?_⟩)⟩
      exact yields_resolveDeclared_iff.mpr
        ⟨_, _, _, arity, unexpanded, yields_each_iff.mp (yieldsAll_of_le (Nat.le_max_left _ _) run),
          yields_of_le (Nat.le_max_right _ _) inside, rfl⟩
  | .script undeclared found given => by
      obtain ⟨fuel, run⟩ := given.yields
      exact ⟨fuel + 1, yields_resolveCall_iff.mpr
        (.inr (.inl ⟨_, _, undeclared, found, yields_each_iff.mp run, rfl⟩))⟩
  | .aggregation undeclared unscripted known notFilter notGroupBy outside created given seen
      added => by
      obtain ⟨fuel, run⟩ := given.yields
      refine ⟨fuel + 1, yields_resolveCall_iff.mpr
        (.inr (.inr ⟨_, undeclared, unscripted, known, ?_⟩))⟩
      exact yields_resolveAggregation_iff.mpr
        ⟨_, _, _, _, _, _, _, notFilter, notGroupBy, outside, created, yields_each_iff.mp run,
          seen, added, rfl, rfl⟩
  | .subquery single compiled => by
      obtain ⟨fuel, run⟩ := compiled.result
      exact ⟨fuel + 1, yields_resolveSubquery_iff.mpr ⟨_, _, _, single, run, rfl, rfl⟩⟩
  | .math left right => by
      obtain ⟨fuel, leftRun⟩ := left.yields
      obtain ⟨fuel', rightRun⟩ := right.yields
      refine ⟨max fuel fuel' + 1, ?_⟩
      simp only [resolve, yields_bind_iff, yields_pure_iff]
      exact ⟨_, _, yields_of_le (Nat.le_max_left _ _) leftRun, _, _,
        yields_of_le (Nat.le_max_right _ _) rightRun, rfl, rfl⟩
  | .compare left right => by
      obtain ⟨fuel, leftRun⟩ := left.yields
      obtain ⟨fuel', rightRun⟩ := right.yields
      refine ⟨max fuel fuel' + 1, ?_⟩
      simp only [resolve, yields_bind_iff, yields_pure_iff]
      exact ⟨_, _, yields_of_le (Nat.le_max_left _ _) leftRun, _, _,
        yields_of_le (Nat.le_max_right _ _) rightRun, rfl, rfl⟩
  | .and left right => by
      obtain ⟨fuel, leftRun⟩ := left.yields
      obtain ⟨fuel', rightRun⟩ := right.yields
      refine ⟨max fuel fuel' + 1, ?_⟩
      simp only [resolve, yields_bind_iff, yields_pure_iff]
      exact ⟨_, _, yields_of_le (Nat.le_max_left _ _) leftRun, _, _,
        yields_of_le (Nat.le_max_right _ _) rightRun, rfl, rfl⟩
  | .or left right => by
      obtain ⟨fuel, leftRun⟩ := left.yields
      obtain ⟨fuel', rightRun⟩ := right.yields
      refine ⟨max fuel fuel' + 1, ?_⟩
      simp only [resolve, yields_bind_iff, yields_pure_iff]
      exact ⟨_, _, yields_of_le (Nat.le_max_left _ _) leftRun, _, _,
        yields_of_le (Nat.le_max_right _ _) rightRun, rfl, rfl⟩
  | .not inner => by
      obtain ⟨fuel, innerRun⟩ := inner.yields
      refine ⟨fuel + 1, ?_⟩
      simp only [resolve, yields_bind_iff, yields_pure_iff]
      exact ⟨_, _, innerRun, rfl, rfl⟩

theorem ResolvesAll.yields {frame : Frame} {items : List (Scope × Expression)}
    {trees : List Resolved} {before after : Progress} :
    ResolvesAll frame items before trees after →
      ∃ fuel, Yields (items.mapM (fun item => resolve .spent fuel frame item.1 item.2))
        before trees after
  | .nil => ⟨0, yields_mapM_nil_iff.mpr ⟨rfl, rfl⟩⟩
  | .cons head tail => by
      obtain ⟨fuel, headRun⟩ := head.yields
      obtain ⟨fuel', tailRun⟩ := tail.yields
      exact ⟨max fuel fuel', yields_mapM_cons_iff.mpr
        ⟨_, _, _, yields_of_le (Nat.le_max_left _ _) headRun,
          yieldsAll_of_le (Nat.le_max_right _ _) tailRun, rfl⟩⟩

theorem Compiles.result {services : Services} {order : Nat → List Nat} {isSubquery : Bool}
    {statement : Statement} {symbols : SymbolContext} {memory : CompilerMemory}
    {spec : StatementSpec} {after : Progress} :
    Compiles services order isSubquery statement symbols memory spec after →
      ∃ fuel, compileStatement (resolve .spent fuel) services order isSubquery statement symbols
        memory = (.ok (spec, after.symbols), after.memory)
  | .intro bound given shaped concluded => by
      obtain ⟨fuel, run⟩ := given.yields
      refine ⟨fuel, compileStatement_ok_iff.mpr ⟨_, _, bound, ?_, rfl, rfl⟩⟩
      exact yields_bind_iff.mpr ⟨_, _, yields_resolveClauses_iff.mpr ⟨run, shaped⟩, concluded⟩

end

theorem ResolvesAll.yields_beyond {frame : Frame} {items : List (Scope × Expression)}
    {trees : List Resolved} {before after : Progress}
    (derived : ResolvesAll frame items before trees after) (fuel : Nat) :
    ∃ more, fuel ≤ more ∧
      Yields (items.mapM (fun item => resolve .spent more frame item.1 item.2))
        before trees after := by
  obtain ⟨enough, run⟩ := derived.yields
  exact ⟨max fuel enough, Nat.le_max_left _ _, yieldsAll_of_le (Nat.le_max_right _ _) run⟩

end EventQuery
