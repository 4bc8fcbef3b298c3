import EventQuery.Proofs.Order.Twins

set_option autoImplicit false

/-! A refusal goes all the way up. When something that a compilation comes to is refused, nothing
after it is looked at, and the statement around it is refused for the same reason. -/

namespace EventQuery

namespace Resolution

variable {α β : Type} {before between : Progress} {failure : LocatedError}

def Refused (action : Resolution α) (before : Progress) (failure : LocatedError) : Prop :=
  (action.outcome before).1 = .error (.refused failure)

namespace Refused

theorem bind {action : Resolution α} (refused : action.Refused before failure)
    (next : α → Resolution β) : (action >>= next).Refused before failure := by
  unfold Refused at refused ⊢
  rw [outcome_bind]
  cases run : action.outcome before with
  | mk result after =>
      rw [run] at refused
      cases refused
      rfl

theorem bind_of_yields {action : Resolution α} {next : α → Resolution β} {value : α}
    (run : Yields action before value between) (refused : (next value).Refused between failure) :
    (action >>= next).Refused before failure := by
  unfold Refused
  unfold Yields at run
  rw [outcome_bind, run]
  exact refused

theorem mapM {action : α → Resolution β} {done : List α} {item : α} {results : List β}
    (run : Yields (done.mapM action) before results between)
    (refused : (action item).Refused between failure) (rest : List α) :
    ((done ++ item :: rest).mapM action).Refused before failure := by
  rw [List.mapM_append, List.mapM_cons]
  exact bind_of_yields run ((refused.bind _).bind _)

theorem of_endsLike {action : Resolution α} {other : Resolution β} (alike : EndsLike action other)
    (refused : other.Refused before failure) : action.Refused before failure :=
  ((alike before).2 _).mpr refused

theorem of_refinedBy {action finer : Resolution α} (refined : RefinedBy action finer)
    (refused : action.Refused before failure) : finer.Refused before failure := by
  rcases refined before with starved | same
  · unfold Starves at starved
    unfold Refused at refused
    rw [starved] at refused
    cases refused
  · unfold Refused
    rw [same]
    exact refused

end Refused

end Resolution

open Resolution

namespace Visit

variable {visit next : Visit} {fuel : Nat} {failure : LocatedError}

def Refuses (visit : Visit) (fuel : Nat) (failure : LocatedError) : Prop :=
  (resolve .spent fuel visit.frame visit.scope visit.expression).Refused visit.progress failure

theorem Refuses.of_le {more : Nat} (refused : visit.Refuses fuel failure) (enough : fuel ≤ more) :
    visit.Refuses more failure :=
  Refused.of_refinedBy (resolve_refinedBy enough _ _ _) refused

end Visit

theorem Enters.refused {services : Services} {order : Nat → List Nat} {isSubquery : Bool}
    {statement : Statement} {symbols : SymbolContext} {memory : CompilerMemory} {entered : Visit}
    {fuel : Nat} {failure : LocatedError}
    (enters : Enters services order isSubquery statement symbols memory entered)
    (refused : entered.Refuses fuel failure) :
    ∃ more, (compileStatement (resolve .spent more) services order isSubquery statement symbols
      memory).1 = .error (.refused failure) := by
  cases enters with
  | @intro streams done scope expression rest trees between bound split derived =>
      obtain ⟨more, enough, run⟩ := derived.yields_beyond fuel
      refine ⟨more, ?_⟩
      let frame : Frame := .ofStatement services order isSubquery statement streams
      have items : (statement.run (resolve .spent more frame)).Refused
          (.opening statement symbols memory) failure := by
        have here : (resolve .spent more frame (scope, expression).1 (scope, expression).2).Refused
            between failure := refused.of_le enough
        unfold Statement.run
        rw [split]
        exact Refused.mapM run here rest
      have clauses := Refused.of_endsLike (endsLike_resolveClauses _ _) items
      have whole : (runStatement (resolve .spent more frame) frame statement).Refused
          (.opening statement symbols memory) failure := clauses.bind _
      rw [compileStatement_of_bound bound]
      unfold Refused at whole
      dsimp only
      rw [whole]
      rfl

theorem Frame.resolveSubquery_refused {frame : Frame} {resolver : Resolver}
    {position : Option Position} {statement : Statement} {before : Progress}
    {failure : LocatedError} (single : statement.select.length = 1)
    (refused : (compileStatement resolver frame.services frame.order true statement .empty
      before.memory).1 = .error (.refused failure)) :
    (frame.resolveSubquery resolver position statement).Refused before failure := by
  unfold Frame.resolveSubquery
  rw [if_neg (not_not_intro single)]
  unfold Refused
  rw [outcome_get_bind]
  cases compiled : compileStatement resolver frame.services frame.order true statement .empty
      before.memory with
  | mk result memory =>
      rw [compiled] at refused
      cases refused
      rfl

namespace Visit

variable {visit next : Visit} {fuel : Nat} {failure : LocatedError}

private theorem refuses_key {frame : Frame} {scope : Scope} {node : TableAccess} {before : Progress}
    {table : TableDefinition} {done rest : List Expression} {key : Expression}
    {columns : List String} {trees keys : List Resolved} {between : Progress}
    (known : frame.services.table? node.table = some table)
    (paired : node.keys.length = table.keys.length) (split : node.keys = done ++ key :: rest)
    (first : columns <+: table.keys)
    (run : Yields (done.mapM (resolve .spent fuel frame scope)) before trees between)
    (checked : CheckedKeys node table columns trees keys)
    (refused : Refuses ⟨frame, scope, key, between⟩ fuel failure) :
    Refuses ⟨frame, scope, .table node, before⟩ (fuel + 1) failure := by
  show (frame.resolveTable (resolve .spent fuel frame scope) node).Refused before failure
  unfold Frame.resolveTable
  rw [known]
  dsimp only
  rw [if_neg (not_not_intro paired)]
  refine Refused.bind ?_ _
  obtain ⟨later, columnsSplit⟩ := first
  have count : done.length = columns.length := by
    rw [← run.length_eq]
    exact checked.length_eq
  rw [split, ← columnsSplit]
  cases later with
  | nil =>
      rw [split, ← columnsSplit, List.length_append, List.length_cons, List.append_nil] at paired
      omega
  | cons column later =>
      rw [List.zip_append count, List.zip_cons_cons]
      have earlier := (yields_keys_iff count).mpr ⟨trees, run, checked⟩
      exact Refused.mapM earlier (Refused.bind refused _) _

section

variable {frame : Frame} {scope : Scope} {node : FunctionCall} {before : Progress}

private theorem refuses_declared {declaration : Declaration}
    (declared : frame.declaration? before.symbols node.name = some declaration)
    (paired : declaration.parameters.length = node.parameters.length)
    (unexpanded : node.name ∉ scope.expanding)
    (refused : Refused (do
        let arguments ← node.parameters.mapM (resolve .spent fuel frame scope)
        resolve .spent fuel frame (scope.entering node.name declaration arguments) declaration.body)
      before failure) :
    Refuses ⟨frame, scope, .call node, before⟩ (fuel + 1) failure := by
  have inner := Refused.bind refused (fun body =>
    (pure (.declared node.name body) : Resolution Resolved))
  show (frame.resolveCall (resolve .spent fuel frame) scope node).Refused before failure
  unfold Refused Frame.resolveCall
  rw [outcome_get_bind]
  dsimp only
  rw [declared]
  dsimp only
  rw [Frame.resolveDeclared_of_admitted paired unexpanded]
  rw [bind_assoc] at inner
  exact inner

private theorem refuses_script {script : Script}
    (undeclared : frame.declaration? before.symbols node.name = none)
    (found : before.symbols.script? node.name node.parameters.length = some script)
    (refused : (node.parameters.mapM (resolve .spent fuel frame scope)).Refused before failure) :
    Refuses ⟨frame, scope, .call node, before⟩ (fuel + 1) failure := by
  show (frame.resolveCall (resolve .spent fuel frame) scope node).Refused before failure
  unfold Refused Frame.resolveCall
  rw [outcome_get_bind]
  dsimp only
  rw [undeclared]
  dsimp only
  rw [if_pos (SymbolContext.any_of_script? found), found]
  exact refused.bind _

private theorem refuses_aggregation {family : FunctionFamily} {forge : Forge} {inner : Progress}
    (undeclared : frame.declaration? before.symbols node.name = none)
    (unscripted : before.symbols.scripts.any (fun script => script.name = node.name) = false)
    (known : frame.services.family? node.name = some family)
    (notFilter : scope.clause ≠ .filter) (notGroupBy : scope.clause ≠ .groupBy)
    (outside : scope.inAggregation = false)
    (created : Yields (frame.resolveForge family node.position) before forge inner)
    (refused : Refused (node.parameters.mapM (fun parameter => do
      ofChecked (Frame.aggregationParameter
        (← resolve .spent fuel frame scope.aggregated parameter)))) inner failure) :
    Refuses ⟨frame, scope, .call node, before⟩ (fuel + 1) failure := by
  show (frame.resolveCall (resolve .spent fuel frame) scope node).Refused before failure
  unfold Refused Frame.resolveCall
  rw [outcome_get_bind]
  dsimp only
  rw [undeclared]
  dsimp only
  rw [if_neg (by rw [unscripted]; exact Bool.false_ne_true), known]
  dsimp only
  rw [Frame.resolveAggregation_of_admitted notFilter notGroupBy outside]
  exact Refused.bind_of_yields created (refused.bind _)

end

theorem Leads.refuses (leads : visit.Leads next) (refused : next.Refuses fuel failure) :
    ∃ more, visit.Refuses more failure := by
  cases leads with
  | @operand frame scope expression before done operand rest trees between split derived =>
      obtain ⟨more, enough, run⟩ := derived.yields_beyond fuel
      refine ⟨more + 1, ?_⟩
      have some : expression.operands ≠ [] := by
        rw [split]
        exact List.append_ne_nil_of_right_ne_nil _ (List.cons_ne_nil _ _)
      refine Refused.of_endsLike (endsLike_operator _ more frame scope some) ?_
      rw [split]
      exact Refused.mapM (yields_each_iff.mp run) (refused.of_le enough) rest
  | key known paired split first derived checked =>
      obtain ⟨more, enough, run⟩ := derived.yields_beyond fuel
      exact ⟨more + 1, refuses_key known paired split first (yields_each_iff.mp run) checked
        (refused.of_le enough)⟩
  | argument declared paired unexpanded split derived =>
      obtain ⟨more, enough, run⟩ := derived.yields_beyond fuel
      refine ⟨more + 1, refuses_declared declared paired unexpanded (Refused.bind ?_ _)⟩
      rw [split]
      exact Refused.mapM (yields_each_iff.mp run) (refused.of_le enough) _
  | body declared paired unexpanded derived =>
      obtain ⟨more, enough, run⟩ := derived.yields_beyond fuel
      exact ⟨more + 1, refuses_declared declared paired unexpanded
        (Refused.bind_of_yields (yields_each_iff.mp run) (refused.of_le enough))⟩
  | scriptArgument undeclared found split derived =>
      obtain ⟨more, enough, run⟩ := derived.yields_beyond fuel
      refine ⟨more + 1, refuses_script undeclared found ?_⟩
      rw [split]
      exact Refused.mapM (yields_each_iff.mp run) (refused.of_le enough) _
  | parameter passes =>
      cases passes with
      | intro undeclared unscripted known notFilter notGroupBy outside created split derived seen =>
          obtain ⟨more, enough, run⟩ := derived.yields_beyond fuel
          refine ⟨more + 1, refuses_aggregation undeclared unscripted known notFilter notGroupBy
            outside created ?_⟩
          have earlier := yields_parameters_iff.mpr ⟨_, yields_each_iff.mp run, seen⟩
          have here := Refused.bind (refused.of_le enough) (fun tree =>
            ofChecked (Frame.aggregationParameter tree))
          rw [split]
          exact Refused.mapM earlier here _
  | clause single enters =>
      obtain ⟨more, inside⟩ := enters.refused refused
      exact ⟨more + 1, Frame.resolveSubquery_refused single inside⟩

theorem refuses_of_reaches {place : Visit} (reaches : Relation.ReflTransGen Descends visit place)
    (refused : place.Refuses fuel failure) : ∃ more, visit.Refuses more failure := by
  induction reaches using Relation.ReflTransGen.head_induction_on with
  | refl => exact ⟨fuel, refused⟩
  | head descends _ ih =>
      obtain ⟨more, onward⟩ := ih
      exact descends.1.refuses onward

end Visit

namespace Undertaking

variable {undertaking inner : Undertaking} {failure : LocatedError}

def Fails (undertaking : Undertaking) (failure : LocatedError) : Prop :=
  ∃ fuel, (undertaking.refueled fuel).outcome.1 = .error (.refused failure)

theorem Meets.fails (meets : undertaking.Meets inner) (fails : inner.Fails failure) :
    undertaking.Fails failure := by
  obtain ⟨entered, enters, place, reaches, opens, single, services, order, isSubquery, memory⟩ :=
    meets
  obtain ⟨fuel, refused⟩ := fails
  obtain ⟨position, opened⟩ := opens
  have there : place.Refuses (fuel + 1) failure := by
    unfold Visit.Refuses
    rw [opened]
    refine Frame.resolveSubquery_refused single ?_
    rw [← services, ← order, ← memory, ← isSubquery]
    exact refused
  obtain ⟨more, here⟩ := Visit.refuses_of_reaches reaches there
  obtain ⟨enough, whole⟩ := enters.refused here
  exact ⟨enough, whole⟩

theorem fails_of_reaches (reaches : Relation.ReflTransGen Meets undertaking inner)
    (fails : inner.Fails failure) : undertaking.Fails failure := by
  induction reaches using Relation.ReflTransGen.head_induction_on with
  | refl => exact fails
  | head meets _ ih => exact meets.fails ih

end Undertaking

end EventQuery
