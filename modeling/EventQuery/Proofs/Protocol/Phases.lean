import EventQuery.Proofs.Protocol.Telling

set_option autoImplicit false

/-! Every compilation is an episode, whether it succeeds, is refused or is cut off. The induction is
on the fuel; a visit uses that what it leads to within its statement tells the episodes of the
subqueries met there, and a subquery closes with the two passes over its call sites. -/

namespace EventQuery

open Resolution

namespace Visit

variable {visit next : Visit} {undertaking : Undertaking}

theorem Descends.meets (descends : visit.Descends next) (meets : next.Meets undertaking) :
    visit.Meets undertaking := by
  obtain ⟨place, reaches, rest⟩ := meets
  exact ⟨place, .head descends reaches, rest⟩

/-- However the visit ends with the given fuel, it tells episodes of subqueries that it meets. -/
def Tells (visit : Visit) (fuel : Nat) : Prop :=
  Resolution.Tells visit.Meets (resolve .spent fuel visit.frame visit.scope visit.expression)
    visit.progress

theorem Tells.of_descends {fuel : Nat} (tells : next.Tells fuel)
    (leads : visit.Leads next)
    (same : ∀ position statement, visit.expression ≠ .subquery position statement) :
    Resolution.Tells visit.Meets (resolve .spent fuel next.frame next.scope next.expression)
      next.progress :=
  Resolution.Tells.mono (fun _ => Descends.meets ⟨leads, same⟩) tells

end Visit

def Undertaking.outcome (undertaking : Undertaking) :
    Except CompileFault (StatementSpec × SymbolContext) × CompilerMemory :=
  compileStatement (resolve .spent undertaking.fuel) undertaking.services undertaking.order
    undertaking.isSubquery undertaking.statement .empty undertaking.memory

theorem Services.compile_eq_outcome (services : Services) (order : Nat → List Nat)
    (statement : Statement) (memory : CompilerMemory) :
    services.compile order statement memory =
      match (services.undertaking order statement memory).outcome with
      | (.ok (spec, gathered), memory) => ⟨.ok (gathered.foldInto spec), .empty, memory⟩
      | (.error (.refused failure), memory) =>
          ⟨.error (.refused ⟨failure, statement.name⟩), .empty, memory⟩
      | (.error .unfinished, memory) => ⟨.error .unfinished, .empty, memory⟩ := by
  unfold compile
  rw [compileWith_eq_compileWithin]
  rfl

namespace Undertaking

variable {undertaking : Undertaking}

theorem registeredForges_opening : undertaking.opening.symbols.registeredForges = [] :=
  SymbolContext.registeredForges_opened .empty undertaking.statement

section

variable {streams : List StreamBinding}
  (bound : bindStreams undertaking.services.registry [] undertaking.statement.streams =
    .ok streams)

include bound

theorem frame_of_bound : undertaking.frame = .ofStatement undertaking.services undertaking.order
    undertaking.isSubquery undertaking.statement streams := by
  unfold frame Undertaking.streams
  rw [bound]

theorem resolution_of_bound : undertaking.resolution =
    (resolveClauses (resolve .spent undertaking.fuel undertaking.frame)
      undertaking.statement).outcome undertaking.opening := by
  unfold resolution
  rw [bound]

theorem outcome_of_bound : undertaking.outcome =
    match undertaking.resolution with
    | (.ok clauses, between) =>
        let run := (undertaking.frame.conclude undertaking.statement clauses).outcome between
        (run.1.map (fun spec => (spec, run.2.symbols)), run.2.memory)
    | (.error fault, between) => (.error fault, between.memory) := by
  unfold outcome
  rw [compileStatement_of_bound bound, resolution_of_bound bound, ← frame_of_bound bound]
  unfold runStatement
  dsimp only
  rw [outcome_bind]
  have started : undertaking.opening =
    .opening undertaking.statement .empty undertaking.memory := rfl
  rw [← started]
  cases (resolveClauses (resolve .spent undertaking.fuel undertaking.frame)
      undertaking.statement).outcome undertaking.opening with
  | mk result between =>
      cases result with
      | error fault => rfl
      | ok clauses => rfl

theorem memory_of_bound : undertaking.outcome.2 =
    match undertaking.resolution.1 with
    | .ok _ => ((runAggregations undertaking.frame).outcome undertaking.resolution.2).2.memory
    | .error _ => undertaking.resolution.2.memory := by
  rw [outcome_of_bound bound]
  cases undertaking.resolution with
  | mk result between =>
      cases result with
      | error fault => rfl
      | ok clauses => exact memory_outcome_conclude

theorem tells_clauses (tells : ∀ visit : Visit, visit.Tells undertaking.fuel) :
    Resolution.Tells undertaking.Meets
      (resolveClauses (resolve .spent undertaking.fuel undertaking.frame) undertaking.statement)
      undertaking.opening := by
  unfold Resolution.Tells
  rw [(endsLike_resolveClauses _ _ _).1]
  refine Tells.mapM_of_yields ?_
  rintro done ⟨scope, expression⟩ rest trees between split run
  have derived := (resolve_sound undertaking.fuel).resolvesAll run
  refine Resolution.Tells.mono ?_ (tells ⟨undertaking.frame, scope, expression, between⟩)
  intro inner meets
  refine ⟨_, ?_, meets⟩
  rw [frame_of_bound bound] at derived ⊢
  exact .intro bound split derived

end

theorem filter_passes (declared validated : List Nat) :
    (undertaking.passes declared validated).filter TraceEntry.isMessage =
      undertaking.passes declared validated := by
  rw [List.filter_eq_self]
  intro entry member
  rcases List.mem_append.mp member with early | late
  · obtain ⟨site, _, rfl⟩ := List.mem_map.mp early
    rfl
  · obtain ⟨site, _, rfl⟩ := List.mem_map.mp late
    rfl

/-- When the clauses are resolved, every call site is declared and validated; and nothing is told
unless both passes can take place. -/
theorem told_of_bound {streams : List StreamBinding}
    (bound : bindStreams undertaking.services.registry [] undertaking.statement.streams =
      .ok streams)
    (collecting : undertaking.resolution.2.calls.phase = .collecting) :
    ∃ declared validated,
      (¬ (undertaking.Resolved ∧ undertaking.VisitsOnce) → declared = [] ∧ validated = []) ∧
      (undertaking.Resolved → undertaking.VisitsOnce → declared = undertaking.visits) ∧
      validated <+: declared ∧
      (undertaking.Resolved → undertaking.Aggregates → validated = declared) ∧
      undertaking.outcome.2.workshop =
        undertaking.resolution.2.memory.workshop.told (undertaking.passes declared validated) := by
  have finish := memory_of_bound bound
  cases resolved : undertaking.resolution.1 with
  | error fault =>
      rw [resolved] at finish
      have unresolved : ¬ undertaking.Resolved := by
        rintro ⟨clauses, same⟩
        cases resolved.symm.trans same
      refine ⟨[], [], fun _ => ⟨rfl, rfl⟩, fun yes => absurd yes unresolved, List.prefix_refl _,
        fun _ _ => rfl, ?_⟩
      rw [finish]
      exact (Workshop.told_nil _).symm
  | ok clauses =>
      rw [resolved] at finish
      by_cases once : undertaking.VisitsOnce
      · have visits : (undertaking.frame.order undertaking.resolution.2.calls.sites.length).Perm
          (List.range undertaking.resolution.2.calls.sites.length) := once
        obtain ⟨phase, ended⟩ := outcome_runAggregations_of_perm collecting visits
        obtain ⟨reached, first, told, all⟩ := CallSites.validateVisits_told undertaking.visits
          (undertaking.resolution.2.memory.workshop.told
            ((CallSites.visited undertaking.sites undertaking.visits).map
              (CallSite.declares undertaking.statement.name)))
        refine ⟨undertaking.visits, reached,
          fun missing => absurd ⟨⟨clauses, resolved⟩, once⟩ missing, fun _ _ => rfl, first, ?_, ?_⟩
        · rintro _ ⟨handlers, after, accepted⟩
          unfold Yields at accepted
          rw [ended] at accepted
          cases visited : (undertaking.frame.validations undertaking.resolution.2).1 with
          | ok found => exact all found visited
          | error failure =>
              rw [visited] at accepted
              cases accepted
        · rw [finish, ended]
          exact told.trans (Workshop.told_told _ _ _)
      · have visits : ¬ (undertaking.frame.order undertaking.resolution.2.calls.sites.length).Perm
          (List.range undertaking.resolution.2.calls.sites.length) := once
        obtain ⟨failure, ended⟩ := outcome_runAggregations_of_not_perm collecting visits
        refine ⟨[], [], fun _ => ⟨rfl, rfl⟩, fun _ yes => absurd yes once, List.prefix_refl _,
          fun _ _ => rfl, ?_⟩
        rw [finish, ended]
        exact (Workshop.told_nil _).symm

theorem told (tells : ∀ visit : Visit, visit.Tells undertaking.fuel) :
    ∃ episode : Episode, episode.undertaking = undertaking ∧ episode.Sound ∧
      undertaking.memory.Advances undertaking.outcome.2 episode := by
  cases bound : bindStreams undertaking.services.registry [] undertaking.statement.streams with
  | error failure =>
      have unresolved :
          undertaking.resolution = (.error (.refused failure), undertaking.opening) := by
        unfold resolution
        rw [bound]
      have unchanged : undertaking.outcome.2 = undertaking.memory := by
        unfold outcome compileStatement
        rw [bound]
      have noSites : undertaking.sites = [] := by
        unfold sites
        rw [unresolved]
        rfl
      have noForges : undertaking.forges = [] := by
        unfold forges
        rw [unresolved, registeredForges_opening]
        rfl
      refine ⟨.mk undertaking [] [] [], rfl, .intro ?_ (List.forall_mem_nil _), ?_⟩
      · exact {
          silent := fun _ => ⟨rfl, rfl⟩
          declared := by
            rintro ⟨clauses, resolved⟩
            change undertaking.resolution.1 = _ at resolved
            rw [unresolved] at resolved
            cases resolved
          validated := List.prefix_refl _
          complete := fun _ _ => rfl
          served := by
            intro site member
            change site ∈ undertaking.sites at member
            rw [noSites] at member
            cases member
          met := List.forall_mem_nil _ }
      · rw [unchanged]
        refine ⟨⟨[], (List.append_nil _).symm, rfl⟩, Nat.le_refl _, ?_⟩
        rw [Nat.sub_self, Episode.identities, noForges]
        rfl
  | ok streams =>
      obtain ⟨inner, advances, each⟩ := tells_clauses bound tells
      rw [← resolution_of_bound bound] at advances
      obtain ⟨declared, validated, silent, whole, first, complete, told⟩ :=
        told_of_bound bound advances.phase
      obtain ⟨made, registered, numbers⟩ := advances.created
      rw [registeredForges_opening, List.nil_append] at registered
      refine ⟨.mk undertaking inner declared validated, rfl, .intro ?_ (fun episode member =>
        (each episode member).2), ?_⟩
      · exact {
          silent := silent
          declared := whole
          validated := first
          complete := complete
          served := by
            obtain ⟨added, sites, served⟩ := advances.served
            intro site member
            refine served site ?_
            have all : undertaking.sites = added := sites
            rw [← all]
            exact member
          met := fun episode member => (each episode member).1 }
      · obtain ⟨entries, kept, messages⟩ := advances.trace
        have started : undertaking.opening.memory = undertaking.memory := rfl
        rw [started] at kept numbers
        have trace := congrArg Workshop.trace told
        have next := congrArg Workshop.nextIdentity told
        dsimp only [Workshop.told] at trace next
        refine ⟨⟨entries ++ undertaking.passes declared validated, ?_, ?_⟩, ?_, ?_⟩
        · rw [trace, kept, List.append_assoc]
        · rw [List.filter_append, messages, filter_passes, Episode.messages]
        · rw [next]
          exact advances.grown
        · rw [next, Episode.identities, forges, registered, List.map_map]
          exact numbers

end Undertaking

/-! ### Visits -/

namespace Visit

variable {fuel : Nat} (tells : ∀ visit : Visit, visit.Tells fuel) (frame : Frame) (scope : Scope)
  (before : Progress)

include tells

private theorem tells_operator {expression : Expression} (some : expression.operands ≠ []) :
    Visit.Tells ⟨frame, scope, expression, before⟩ (fuel + 1) := by
  have same (position : Option Position) (statement : Statement) :
      expression ≠ .subquery position statement := by
    rintro rfl
    exact some rfl
  unfold Visit.Tells Resolution.Tells
  rw [(endsLike_operator .spent fuel frame scope some before).1]
  refine Tells.mapM_of_yields ?_
  intro done operand rest trees between split run
  have leads : Leads ⟨frame, scope, expression, before⟩ ⟨frame, scope, operand, between⟩ :=
    .operand split ((resolve_sound fuel).resolvesEach run)
  exact (tells _).of_descends leads same

private theorem tells_table (node : TableAccess) :
    Resolution.Tells (Meets ⟨frame, scope, .table node, before⟩)
      (frame.resolveTable (resolve .spent fuel frame scope) node) before := by
  unfold Frame.resolveTable
  cases known : frame.services.table? node.table with
  | none => exact .refuse _ _
  | some table =>
      dsimp only
      by_cases paired : node.keys.length = table.keys.length
      · rw [if_neg (not_not_intro paired)]
        refine (Tells.mapM_of_yields ?_).bind (fun keys _ => ?_)
        · rintro done ⟨key, column⟩ rest keys between split run
          obtain ⟨trees, whole, first, run, checked⟩ := yields_keys_of_split paired split run
          have derived := (resolve_sound fuel).resolvesEach run
          have leads : Leads ⟨frame, scope, .table node, before⟩ ⟨frame, scope, key, between⟩ :=
            .key known paired whole first derived checked
          refine ((tells _).of_descends leads (fun _ _ => nofun)).bind (fun _ _ => .ofChecked _)
        · refine (Tells.ofChecked _).bind (fun type _ => ?_)
          exact .modifySymbols_bind (fun _ => rfl) (fun _ => .pure _)
      · rw [if_pos paired]
        exact .refuse _ _

private theorem tells_declared {node : FunctionCall} {declaration : Declaration}
    (declared : frame.declaration? before.symbols node.name = some declaration) :
    Resolution.Tells (Meets ⟨frame, scope, .call node, before⟩)
      (Frame.resolveDeclared (resolve .spent fuel frame) scope node declaration) before := by
  by_cases admitted : declaration.parameters.length = node.parameters.length ∧
      node.name ∉ scope.expanding
  · obtain ⟨paired, unexpanded⟩ := admitted
    rw [Frame.resolveDeclared_of_admitted paired unexpanded]
    refine (Tells.mapM_of_yields ?_).bind_of_yields (fun arguments between run => ?_)
    · intro done argument rest trees between split run
      have derived := (resolve_sound fuel).resolvesEach run
      have leads : Leads ⟨frame, scope, .call node, before⟩ ⟨frame, scope, argument, between⟩ :=
        .argument declared paired unexpanded split derived
      exact (tells _).of_descends leads (fun _ _ => nofun)
    · have derived := (resolve_sound fuel).resolvesEach run
      have leads : Leads ⟨frame, scope, .call node, before⟩
          ⟨frame, scope.entering node.name declaration arguments, declaration.body, between⟩ :=
        .body declared paired unexpanded derived
      exact ((tells _).of_descends leads (fun _ _ => nofun)).bind (fun _ _ => .pure _)
  · obtain ⟨failure, refused⟩ := Frame.resolveDeclared_of_barred _ admitted
    rw [refused]
    exact .refuse _ _

private theorem tells_script {node : FunctionCall} {script : Script}
    (undeclared : frame.declaration? before.symbols node.name = none)
    (found : before.symbols.script? node.name node.parameters.length = some script) :
    Resolution.Tells (Meets ⟨frame, scope, .call node, before⟩)
      (do
        let arguments ← node.parameters.mapM (resolve .spent fuel frame scope)
        return Resolved.script script arguments) before := by
  refine (Tells.mapM_of_yields ?_).bind (fun _ _ => .pure _)
  intro done argument rest trees between split run
  have derived := (resolve_sound fuel).resolvesEach run
  have leads : Leads ⟨frame, scope, .call node, before⟩ ⟨frame, scope, argument, between⟩ :=
    .scriptArgument undeclared found split derived
  exact (tells _).of_descends leads (fun _ _ => nofun)

private theorem tells_aggregation {node : FunctionCall} {family : FunctionFamily}
    (undeclared : frame.declaration? before.symbols node.name = none)
    (unscripted : before.symbols.scripts.any (fun script => script.name = node.name) = false)
    (known : frame.services.family? node.name = some family) :
    Resolution.Tells (Meets ⟨frame, scope, .call node, before⟩)
      (frame.resolveAggregation (resolve .spent fuel frame) scope node family) before := by
  by_cases admitted : scope.clause ≠ .filter ∧ scope.clause ≠ .groupBy ∧
      scope.inAggregation = false
  · obtain ⟨notFilter, notGroupBy, outside⟩ := admitted
    rw [Frame.resolveAggregation_of_admitted notFilter notGroupBy outside]
    refine (frame.tells_resolveForge family node.position).bind_of_yields ?_
    intro forge inner created
    refine (Tells.mapM_of_yields ?_).bind_of_yields (fun parameters between run => ?_)
    · intro done parameter rest parameters between split run
      obtain ⟨trees, run, seen⟩ := yields_parameters_iff.mp run
      have derived := (resolve_sound fuel).resolvesEach run
      have leads : Leads ⟨frame, scope, .call node, before⟩
          ⟨frame, scope.aggregated, parameter, between⟩ :=
        .parameter (.intro undeclared unscripted known notFilter notGroupBy outside created split
          derived seen)
      exact ((tells _).of_descends leads (fun _ _ => nofun)).bind (fun _ _ => .ofChecked _)
    · obtain ⟨trees, run, _⟩ := yields_parameters_iff.mp run
      have derived := (resolve_sound fuel).resolvesEach run
      have registered := derived.extends.forges _ _ (Frame.registered_of_resolveForge created)
      apply Tells.get_bind
      split
      · exact .refuse _ _
      · rename_i site calls added
        exact .set_bind (.of_add registered added) (.pure _)
  · obtain ⟨failure, refused⟩ := Frame.resolveAggregation_of_barred _ admitted
    rw [refused]
    exact .refuse _ _

private theorem tells_call (node : FunctionCall) :
    Resolution.Tells (Meets ⟨frame, scope, .call node, before⟩)
      (frame.resolveCall (resolve .spent fuel frame) scope node) before := by
  unfold Frame.resolveCall
  apply Tells.get_bind
  dsimp only
  cases declared : frame.declaration? before.symbols node.name with
  | some declaration => exact tells_declared tells frame scope before declared
  | none =>
      dsimp only
      cases scripted : before.symbols.scripts.any (fun script => script.name = node.name) with
      | true =>
          cases found : before.symbols.script? node.name node.parameters.length with
          | none => exact .refuse _ _
          | some script => exact tells_script tells frame scope before declared found
      | false =>
          cases known : frame.services.family? node.name with
          | none => exact .refuse _ _
          | some family => exact tells_aggregation tells frame scope before declared scripted known

private theorem tells_subquery (position : Option Position) (statement : Statement) :
    Resolution.Tells (Meets ⟨frame, scope, .subquery position statement, before⟩)
      (frame.resolveSubquery (resolve .spent fuel) position statement) before := by
  unfold Frame.resolveSubquery
  by_cases single : statement.select.length = 1
  · rw [if_neg (not_not_intro single)]
    let undertaking : Undertaking :=
      ⟨frame.services, frame.order, true, statement, before.memory, fuel⟩
    obtain ⟨episode, started, sound, told⟩ := @Undertaking.told undertaking tells
    have meets : Meets ⟨frame, scope, .subquery position statement, before⟩ undertaking :=
      ⟨_, .refl, ⟨position, rfl⟩, single, rfl, rfl, rfl, rfl⟩
    have each : ∀ other ∈ [episode], Meets ⟨frame, scope, .subquery position statement, before⟩
        other.undertaking ∧ other.Sound := by
      intro other member
      rw [List.mem_singleton.mp member, started]
      exact ⟨meets, sound⟩
    apply Tells.get_bind
    unfold Undertaking.outcome at told
    dsimp only [undertaking] at told
    cases compiled : compileStatement (resolve .spent fuel) frame.services frame.order true
        statement .empty before.memory with
    | mk result memory =>
        rw [compiled] at told
        cases result with
        | error fault => exact .set_told (.of_told rfl rfl told) each (.throw _)
        | ok found => exact .set_told (.of_told rfl rfl told) each (.pure _)
  · rw [if_pos single]
    exact .refuse _ _

end Visit

/-- Every visit tells episodes of the subqueries that it meets, and nothing else. -/
theorem tells_visit (fuel : Nat) : ∀ visit : Visit, visit.Tells fuel := by
  induction fuel with
  | zero =>
      intro visit
      exact .throw _
  | succ fuel ih =>
      rintro ⟨frame, scope, expression, before⟩
      cases expression with
      | constant position value => exact .pure _
      | property node => exact .of_local (frame.local_resolveProperty scope node)
      | wildcard position stream =>
          exact .of_local (frame.local_resolveWildcard scope position stream)
      | substitution node => exact .of_local (frame.local_resolveSubstitution node)
      | prior position index node =>
          exact .of_local (frame.local_resolvePrior scope position index node)
      | table node => exact Visit.tells_table ih frame scope before node
      | call node => exact Visit.tells_call ih frame scope before node
      | subquery position statement =>
          exact Visit.tells_subquery ih frame scope before position statement
      | math operator left right => exact Visit.tells_operator ih frame scope before nofun
      | compare operator left right => exact Visit.tells_operator ih frame scope before nofun
      | and left right => exact Visit.tells_operator ih frame scope before nofun
      | or left right => exact Visit.tells_operator ih frame scope before nofun
      | not inner => exact Visit.tells_operator ih frame scope before nofun

end EventQuery
