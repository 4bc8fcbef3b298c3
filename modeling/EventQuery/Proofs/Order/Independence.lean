import EventQuery.Proofs.Order.Refusals

set_option autoImplicit false

/-! The order of the visits does not matter. Under two thorough orders a statement is compiled to
the same spec, and when call sites are refused, what is reported is the refusal of one of them. -/

namespace EventQuery

open Resolution

namespace Undertaking

variable {undertaking : Undertaking}

/-- The failure is the answer of a forge to one of the call sites, at the position of its call. -/
def Rejects (undertaking : Undertaking) (failure : LocatedError) : Prop :=
  ∃ site ∈ undertaking.sites, undertaking.frame.answer site = .error failure.error ∧
    failure.position = site.node.position

theorem Resolved.steady (resolved : undertaking.Resolved)
    (steady : undertaking.services.Steady) : undertaking.resolution.2.Steady := by
  obtain ⟨streams, clauses, _, derived, _⟩ := resolved.derived
  exact derived.employs steady (.opening _ _)

theorem Resolved.fails (resolved : undertaking.Resolved) (once : undertaking.VisitsOnce)
    (steady : undertaking.services.Steady) (rejects : ∃ failure, undertaking.Rejects failure) :
    ∃ failure, undertaking.Rejects failure ∧ undertaking.Fails failure := by
  obtain ⟨failure, site, member, answer, _⟩ := rejects
  have visits : (undertaking.frame.order undertaking.resolution.2.calls.sites.length).Perm
      (List.range undertaking.resolution.2.calls.sites.length) := once
  obtain ⟨refusedSite, among, error, refused, ended⟩ :=
    outcome_runAggregations_of_rejected (resolved.steady steady).calls visits
      ⟨site, member, failure.error, answer⟩
  refine ⟨⟨error, refusedSite.node.position⟩, ⟨refusedSite, among, refused, rfl⟩,
    undertaking.fuel, ?_⟩
  obtain ⟨streams, _, bound, _, _⟩ := resolved.derived
  obtain ⟨clauses, first⟩ := resolved
  have concluded : (undertaking.frame.conclude undertaking.statement clauses).Refused
      undertaking.resolution.2 ⟨error, refusedSite.node.position⟩ := Refused.bind ended _
  have whole : undertaking.outcome.1 =
      .error (.refused ⟨error, refusedSite.node.position⟩) := by
    rw [outcome_of_bound bound]
    unfold Refused at concluded
    cases resolution : undertaking.resolution with
    | mk result between =>
        rw [resolution] at first concluded
        cases first
        dsimp only
        rw [concluded]
        rfl
  exact whole

theorem outcome_of_refueled {fuel : Nat}
    {result : Except CompileFault (StatementSpec × SymbolContext)}
    (ended : undertaking.outcome.1 ≠ .error .unfinished)
    (run : (undertaking.refueled fuel).outcome.1 = result)
    (finished : result ≠ .error .unfinished) :
    undertaking.outcome.1 = result := by
  subst run
  rcases Nat.le_total undertaking.fuel fuel with enough | enough
  · rcases (resolve_refinedBy enough).compileStatement undertaking.services undertaking.order
      undertaking.isSubquery undertaking.statement .empty undertaking.memory with starved | same
    · exact absurd starved ended
    · exact congrArg Prod.fst same.symm
  · rcases (resolve_refinedBy enough).compileStatement undertaking.services undertaking.order
      undertaking.isSubquery undertaking.statement .empty undertaking.memory with starved | same
    · exact absurd starved finished
    · exact congrArg Prod.fst same

end Undertaking

namespace Services

variable {services : Services} {order other : Nat → List Nat} {statement : Statement}
  {memory : CompilerMemory}

theorem ended_compile_iff : (services.compile order statement memory).Ended ↔
    (services.undertaking order statement memory).outcome.1 ≠ .error .unfinished := by
  rw [CompileOutcome.ended_iff_ne, compile_eq_outcome]
  rcases (services.undertaking order statement memory).outcome with ⟨(failure | _) | found, _⟩ <;>
    simp

theorem not_ended_reordered (steady : services.Steady)
    (thorough : (services.undertaking other statement memory).Thorough)
    (unended : ¬ (services.compile order statement memory).Ended) :
    ¬ (services.compile other statement memory).Ended := by
  unfold compile at unended ⊢
  rw [compileWith_eq_compileWithin, not_ended_compileWithin_iff] at unended ⊢
  obtain ⟨entered, enters, starved⟩ := unended
  obtain ⟨others, again⟩ := enters.reordered steady thorough
  have inside := starved.reordered (enters.steady steady)
    (fun _ met => thorough.of_enters again met)
  exact ⟨_, again, inside⟩

theorem result_of_fails {failure : LocatedError}
    (fails : (services.undertaking order statement memory).Fails failure)
    (ended : (services.compile order statement memory).Ended) :
    (services.compile order statement memory).result =
      .error (.refused ⟨failure, statement.name⟩) := by
  obtain ⟨fuel, refused⟩ := fails
  have result := Undertaking.outcome_of_refueled (ended_compile_iff.mp ended) refused nofun
  rw [compile_eq_outcome]
  rcases outcome : (services.undertaking order statement memory).outcome with ⟨_, _⟩
  rw [outcome] at result
  cases result
  rfl

/-- A spec that is found under one order is found under every thorough order. -/
theorem result_reordered (steady : services.Steady)
    (thorough : (services.undertaking other statement memory).Thorough)
    (ended : (services.compile other statement memory).Ended) {spec : StatementSpec}
    (compiled : (services.compile order statement memory).result = .ok spec) :
    (services.compile other statement memory).result = .ok spec := by
  rw [compile_eq_outcome] at compiled
  rcases outcome : (services.undertaking order statement memory).outcome with
    ⟨(failure | _) | ⟨bare, gathered⟩, after⟩ <;> rw [outcome] at compiled <;> cases compiled
  obtain ⟨finish, derived, rfl, rfl⟩ := (resolve_sound _).compiles outcome
  obtain ⟨later, others, again, symbols, _⟩ :=
    derived.reordered rfl steady memory.workshop.trace thorough
  obtain ⟨fuel, run⟩ := again.result
  rw [symbols] at run
  have result := @Undertaking.outcome_of_refueled (services.undertaking other statement memory) fuel
    _ (ended_compile_iff.mp ended) (congrArg Prod.fst run) nofun
  rw [compile_eq_outcome]
  rcases there : (services.undertaking other statement memory).outcome with ⟨_, _⟩
  rw [there] at result
  cases result
  rfl

/-- When a call site is refused in a statement that the compilation comes to, then what is reported
under every thorough order is the refusal of one of the call sites of that statement. -/
theorem rejected_reordered (steady : services.Steady)
    (thorough : (services.undertaking other statement memory).Thorough)
    (ended : (services.compile other statement memory).Ended) {inner : Undertaking}
    (reaches : Relation.ReflTransGen Undertaking.Meets (services.undertaking order statement memory)
      inner) (resolved : inner.Resolved) (rejects : ∃ failure, inner.Rejects failure) :
    ∃ failure, inner.Rejects failure ∧ (services.compile other statement memory).result =
      .error (.refused ⟨failure, statement.name⟩) := by
  have services' : (services.undertaking order statement memory).services.Steady := steady
  obtain ⟨others, again, innerSteady⟩ :=
    @Undertaking.reaches_reordered other _ inner reaches services' memory.workshop.trace thorough
  obtain ⟨fuel, resolvedAgain, sites⟩ := resolved.reordered innerSteady
    (fun part met => thorough part (again.trans met))
  let twin := (inner.reordered other others).refueled fuel
  have same (failure : LocatedError) : twin.Rejects failure ↔ inner.Rejects failure := by
    have found : twin.sites = inner.sites := sites
    unfold Undertaking.Rejects
    rw [found]
    rfl
  have once : twin.VisitsOnce := thorough _ again fuel resolvedAgain
  obtain ⟨failure, rejected, fails⟩ := Undertaking.Resolved.fails resolvedAgain once innerSteady
    (rejects.imp (fun failure => (same failure).mpr))
  refine ⟨failure, (same failure).mp rejected, ?_⟩
  exact result_of_fails (Undertaking.fails_of_reaches again fails) ended

end Services

/-- The order of the visits does not matter. Let all forges be steady, and let two orders visit
each call site of the statement and of its subqueries exactly once. Then the statement is compiled
under both or under neither, to the same spec; and if a call site of a statement that is compiled
on the way is refused, what each compilation reports is the refusal of one of the call sites of
that statement, at the position of its call. -/
theorem Services.compile_order_independent (services : Services) (order other : Nat → List Nat)
    (statement : Statement) (memory : CompilerMemory) (steady : services.Steady)
    (thorough : (services.undertaking order statement memory).Thorough)
    (thoroughOther : (services.undertaking other statement memory).Thorough) :
    let first := services.compile order statement memory
    let second := services.compile other statement memory
    (first.Ended ↔ second.Ended) ∧
    (∀ spec, first.result = .ok spec ↔ second.result = .ok spec) ∧
    ∀ inner : Undertaking, Relation.ReflTransGen Undertaking.Meets
        (services.undertaking order statement memory) inner →
      inner.Resolved → (∃ failure, inner.Rejects failure) → first.Ended →
        (∃ failure, inner.Rejects failure ∧
          first.result = .error (.refused ⟨failure, statement.name⟩)) ∧
        (∃ failure, inner.Rejects failure ∧
          second.result = .error (.refused ⟨failure, statement.name⟩)) := by
  dsimp only
  have ended : (services.compile order statement memory).Ended ↔
      (services.compile other statement memory).Ended :=
    not_iff_not.mp ⟨not_ended_reordered steady thoroughOther, not_ended_reordered steady thorough⟩
  refine ⟨ended, ?_, ?_⟩
  · intro spec
    constructor
    · intro compiled
      exact result_reordered steady thoroughOther (ended.mp (.inl ⟨spec, compiled⟩)) compiled
    · intro compiled
      exact result_reordered steady thorough (ended.mpr (.inl ⟨spec, compiled⟩)) compiled
  · intro inner reaches resolved rejects finished
    exact ⟨rejected_reordered steady thorough finished reaches resolved rejects,
      rejected_reordered steady thoroughOther (ended.mp finished) reaches resolved rejects⟩

theorem Collect.steady_of_create {family : FunctionFamily} {behaviour : ForgeBehaviour}
    (created : Collect.factory.create family = .ok behaviour) : behaviour.Steady := by
  cases created
  intro _ _ _
  rfl

def lastFirst (count : Nat) : List Nat :=
  (List.range count).reverse

theorem perm_lastFirst (count : Nat) : (lastFirst count).Perm (List.range count) :=
  List.reverse_perm _

def callWith (function : String) (position : Position) (parameter : Expression) : Expression :=
  .call ⟨some position, function, false, [parameter]⟩

/-- The oldest and the newest price, and whether these are the same in a subquery. -/
def edgeStatement : Statement :=
  let trades : StreamSource := ⟨none, "Trade", none⟩
  let price : Expression := .property ⟨none, none, "price"⟩
  let same : Expression :=
    .compare .equal (callWith "first" ⟨1, 1⟩ price) (callWith "last" ⟨1, 2⟩ price)
  let inner : Statement := { Statement.selecting "q" same with streams := [trades] }
  let columns : List Expression :=
    [callWith "first" ⟨2, 1⟩ price, callWith "last" ⟨2, 2⟩ price, .subquery none inner]
  { Statement.selecting "s" price with
    streams := [trades], select := columns.map (fun column => ⟨column, none⟩) }

theorem compile_edgeStatement_lastFirst :
    ∃ spec, (tradeServices.compile List.range edgeStatement .empty).result = .ok spec ∧
      spec.aggregations.length = 2 ∧ spec.subqueries.length = 1 ∧
      (tradeServices.compile lastFirst edgeStatement .empty).result = .ok spec := by
  have counts : (tradeServices.compile List.range edgeStatement .empty).result.toOption.map
      (fun spec => (spec.aggregations.length, spec.subqueries.length)) = some (2, 1) := by
    decide +kernel
  have steady : tradeServices.Steady := by
    intro entry known
    cases List.mem_singleton.mp known
    exact fun _ _ => Collect.steady_of_create
  have same := Services.compile_order_independent tradeServices List.range lastFirst edgeStatement
    .empty steady (Undertaking.thorough_of_perm (fun _ => .refl _))
    (Undertaking.thorough_of_perm perm_lastFirst)
  cases compiled : (tradeServices.compile List.range edgeStatement .empty).result with
  | error failure =>
      rw [compiled] at counts
      cases counts
  | ok spec =>
      rw [compiled] at counts
      obtain ⟨aggregations, subqueries⟩ := Prod.mk.inj (Option.some.inj counts)
      exact ⟨spec, rfl, aggregations, subqueries, (same.2.1 spec).mp compiled⟩

/-- Of two calls that are refused, the one that is visited first is reported. -/
example :
    let calls := [callWith "first" ⟨1, 1⟩ (.constant none .null),
      callWith "last" ⟨1, 2⟩ (.constant none .null)]
    let statement : Statement := { Statement.selecting "s" (.constant none .null) with
      select := calls.map (fun column => ⟨column, none⟩) }
    let refusal (function : String) (position : Position) : Except CompileFailure StatementSpec :=
      .error (.refused ⟨⟨.aggregationRejected function Collect.parameterText, some position⟩, "s"⟩)
    (tradeServices.compile List.range statement .empty).result = refusal "first" ⟨1, 1⟩ ∧
      (tradeServices.compile lastFirst statement .empty).result = refusal "last" ⟨1, 2⟩ :=
  ⟨rfl, rfl⟩

end EventQuery
