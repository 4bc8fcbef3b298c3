import EventQuery.Proofs.Protocol.Episodes

set_option autoImplicit false

/-! The two passes over the call sites of one statement. Each pass tells the forges of the sites
that it visits, one after the other; only the second one may stop early. -/

namespace EventQuery

open Resolution

namespace Workshop

def told (workshop : Workshop) (entries : List TraceEntry) : Workshop :=
  { workshop with trace := workshop.trace ++ entries }

theorem told_nil (workshop : Workshop) : workshop.told [] = workshop := by
  unfold told
  rw [List.append_nil]

theorem told_told (workshop : Workshop) (early late : List TraceEntry) :
    (workshop.told early).told late = workshop.told (early ++ late) := by
  unfold told
  dsimp only
  rw [List.append_assoc]

end Workshop

namespace CallSites

variable {sites : List CallSite} {statement : String} {streams : List EventType}
  {registry : Registry} {index : Nat} {site : CallSite}

theorem declareVisits_eq_told (visits : List Nat) (workshop : Workshop) :
    declareVisits sites statement visits workshop =
      workshop.told ((visited sites visits).map (CallSite.declares statement)) := by
  induction visits generalizing workshop with
  | nil => exact workshop.told_nil.symm
  | cons index visits ih =>
      cases found : sites[index]? with
      | none =>
          rw [visited_cons_of_none visits found, ← ih]
          simp only [declareVisits, found]
      | some site =>
          have rest := ih (workshop.told [site.declares statement])
          rw [Workshop.told_told, List.singleton_append] at rest
          rw [visited_cons_of_some visits found, List.map_cons, ← rest]
          simp only [declareVisits, found]
          rfl

theorem validateVisits_cons_of_none (visits : List Nat) (workshop : Workshop)
    (missing : sites[index]? = none) :
    validateVisits sites statement streams registry (index :: visits) workshop =
      validateVisits sites statement streams registry visits workshop := by
  simp only [validateVisits, missing]

theorem validateVisits_cons_of_error (visits : List Nat) (workshop : Workshop)
    {failure : ValidationError} (found : sites[index]? = some site)
    (refused : site.forge.behaviour.validate (workshop.history site.forge)
      (site.validation statement streams registry) = .error failure) :
    validateVisits sites statement streams registry (index :: visits) workshop =
      (.error ⟨index, failure⟩, workshop.told [site.validates statement streams registry]) := by
  simp only [validateVisits, found, Workshop.validate, refused]
  rfl

theorem validateVisits_cons_of_ok (visits : List Nat) (workshop : Workshop) {handler : Handler}
    (found : sites[index]? = some site)
    (accepted : site.forge.behaviour.validate (workshop.history site.forge)
      (site.validation statement streams registry) = .ok handler) :
    validateVisits sites statement streams registry (index :: visits) workshop =
      let rest := validateVisits sites statement streams registry visits
        (workshop.told [site.validates statement streams registry])
      (rest.1.map (List.cons (index, handler)), rest.2) := by
  simp only [validateVisits, found, Workshop.validate, accepted]
  have same : workshop.record (.message site.forge.identity site.forge.maker
      (.validated (site.validation statement streams registry))) =
      workshop.told [site.validates statement streams registry] := rfl
  rw [same]
  cases validateVisits sites statement streams registry visits
      (workshop.told [site.validates statement streams registry]) with
  | mk result workshop =>
      cases result with
      | ok handlers => rfl
      | error failure => rfl

theorem validateVisits_told (visits : List Nat) (workshop : Workshop) :
    ∃ reached, reached <+: visits ∧
      (validateVisits sites statement streams registry visits workshop).2 =
        workshop.told ((visited sites reached).map
          (CallSite.validates statement streams registry)) ∧
      ∀ handlers, (validateVisits sites statement streams registry visits workshop).1 =
        .ok handlers → reached = visits := by
  induction visits generalizing workshop with
  | nil => exact ⟨[], List.prefix_refl _, workshop.told_nil.symm, fun _ _ => rfl⟩
  | cons index visits ih =>
      cases found : sites[index]? with
      | none =>
          obtain ⟨reached, first, told, all⟩ := ih workshop
          refine ⟨index :: reached, List.cons_prefix_cons.mpr ⟨rfl, first⟩, ?_, ?_⟩
          · rw [validateVisits_cons_of_none visits workshop found,
              visited_cons_of_none reached found]
            exact told
          · intro handlers accepted
            rw [validateVisits_cons_of_none visits workshop found] at accepted
            rw [all handlers accepted]
      | some site =>
          cases answer : site.forge.behaviour.validate (workshop.history site.forge)
              (site.validation statement streams registry) with
          | error failure =>
              refine ⟨[index], List.cons_prefix_cons.mpr ⟨rfl, List.nil_prefix⟩, ?_, ?_⟩
              · rw [validateVisits_cons_of_error visits workshop found answer,
                  visited_cons_of_some [] found]
                rfl
              · intro handlers accepted
                rw [validateVisits_cons_of_error visits workshop found answer] at accepted
                cases accepted
          | ok handler =>
              obtain ⟨reached, first, told, all⟩ :=
                ih (workshop.told [site.validates statement streams registry])
              refine ⟨index :: reached, List.cons_prefix_cons.mpr ⟨rfl, first⟩, ?_, ?_⟩
              · rw [validateVisits_cons_of_ok visits workshop found answer,
                  visited_cons_of_some reached found]
                exact told.trans (Workshop.told_told workshop _ _)
              · intro handlers accepted
                rw [validateVisits_cons_of_ok visits workshop found answer] at accepted
                obtain ⟨rest, others, _⟩ := Checked.map_eq_ok_iff.mp accepted
                rw [all rest others]

variable {calls calls' : CallSites} {order : List Nat} {workshop workshop' : Workshop}

theorem told_of_declare
    (declared : calls.declare workshop statement order = .ok (calls', workshop')) :
    workshop' = workshop.told ((visited calls.sites order).map (CallSite.declares statement)) := by
  unfold declare at declared
  split at declared
  · split at declared
    · cases declared
      exact declareVisits_eq_told order workshop
    · cases declared
  · cases declared

theorem told_of_validate {result : Except CallSiteError (List Handler)}
    (validated : calls.validate workshop statement order streams registry =
      (result, calls', workshop')) :
    ∃ reached, workshop' = workshop.told ((visited calls.sites reached).map
      (CallSite.validates statement streams registry)) := by
  unfold validate at validated
  split at validated
  · split at validated
    · obtain ⟨reached, _, told, _⟩ := @validateVisits_told calls.sites statement streams registry
        order workshop
      split at validated
      · rename_i run
        cases validated
        rw [run] at told
        exact ⟨reached, told⟩
      · rename_i run
        cases validated
        rw [run] at told
        exact ⟨reached, told⟩
    · cases validated
      exact ⟨[], workshop.told_nil.symm⟩
  · cases validated
    exact ⟨[], workshop.told_nil.symm⟩

theorem checkOrder_of_not_perm (twice : ¬ order.Perm (List.range calls.sites.length)) :
    calls.checkOrder order = .error (.notAllowed (.notPermutation order calls.sites.length)) := by
  rw [← checkOrder_ok_iff] at twice
  unfold checkOrder at twice ⊢
  dsimp only at twice ⊢
  split
  · rename_i visits
    rw [if_pos visits] at twice
    exact absurd rfl twice
  · rfl

theorem declare_of_perm (collecting : calls.phase = .collecting)
    (once : order.Perm (List.range calls.sites.length)) :
    calls.declare workshop statement order = .ok ({ calls with phase := .declared },
      workshop.told ((visited calls.sites order).map (CallSite.declares statement))) := by
  unfold declare
  rw [if_pos collecting, checkOrder_ok_iff.mpr once, declareVisits_eq_told]

theorem declare_of_not_perm (collecting : calls.phase = .collecting)
    (twice : ¬ order.Perm (List.range calls.sites.length)) :
    calls.declare workshop statement order =
      .error (.notAllowed (.notPermutation order calls.sites.length)) := by
  unfold declare
  rw [if_pos collecting, checkOrder_of_not_perm twice]

theorem validate_of_not_perm (declared : calls.phase = .declared)
    (twice : ¬ order.Perm (List.range calls.sites.length)) :
    calls.validate workshop statement order streams registry =
      (.error ⟨0, .notAllowed (.notPermutation order calls.sites.length)⟩, calls, workshop) := by
  unfold validate
  rw [if_pos declared, checkOrder_of_not_perm twice]

/-- The handlers are given by the positions of their calls, whatever the order of the visits. -/
theorem validate_of_perm (declared : calls.phase = .declared)
    (once : order.Perm (List.range calls.sites.length)) :
    calls.validate workshop statement order streams registry =
      match validateVisits calls.sites statement streams registry order workshop with
      | (.ok handlers, workshop) =>
          (.ok (calls.naturalOrder.filterMap (fun index => handlers.lookup index)),
            { calls with phase := .validated }, workshop)
      | (.error failure, workshop) => (.error failure, calls, workshop) := by
  unfold validate
  rewrite [if_pos declared, checkOrder_ok_iff.mpr once]
  rfl

end CallSites

section

variable {frame : Frame} {before : Progress}

/-- The validations of a statement whose calls were declared in the order of the frame. -/
def Frame.validations (frame : Frame) (before : Progress) :
    Except CallSiteError (List (Nat × Handler)) × Workshop :=
  let order := frame.order before.calls.sites.length
  CallSites.validateVisits before.calls.sites frame.statement
    (frame.streams.map StreamBinding.type) frame.services.registry order
    (before.memory.workshop.told
      ((CallSites.visited before.calls.sites order).map (CallSite.declares frame.statement)))

theorem outcome_runAggregations_of_perm (collecting : before.calls.phase = .collecting)
    (once : (frame.order before.calls.sites.length).Perm (List.range before.calls.sites.length)) :
    ∃ phase, (runAggregations frame).outcome before =
      ((match (frame.validations before).1 with
        | .ok handlers =>
            .ok (before.calls.naturalOrder.filterMap (fun index => handlers.lookup index))
        | .error failure =>
            .error (.refused ⟨failure.error,
              (before.calls.sites[failure.site]?).bind (fun site => site.node.position)⟩)),
      { before with
        calls := { before.calls with phase := phase }
        memory := { before.memory with workshop := (frame.validations before).2 } }) := by
  unfold runAggregations
  rw [outcome_get_bind]
  dsimp only
  rw [CallSites.declare_of_perm collecting once]
  have validated (workshop : Workshop) := @CallSites.validate_of_perm frame.statement
    (frame.streams.map StreamBinding.type) frame.services.registry
    { before.calls with phase := .declared } _ workshop rfl once
  dsimp only at validated ⊢
  rw [validated]
  unfold Frame.validations
  dsimp only
  cases CallSites.validateVisits before.calls.sites frame.statement
      (frame.streams.map StreamBinding.type) frame.services.registry
      (frame.order before.calls.sites.length) (before.memory.workshop.told
        ((CallSites.visited before.calls.sites
          (frame.order before.calls.sites.length)).map (CallSite.declares frame.statement))) with
  | mk result workshop =>
      cases result with
      | ok handlers => exact ⟨.validated, rfl⟩
      | error failure => exact ⟨.declared, rfl⟩

theorem outcome_runAggregations_of_not_perm (collecting : before.calls.phase = .collecting)
    (twice : ¬ (frame.order before.calls.sites.length).Perm
      (List.range before.calls.sites.length)) :
    ∃ failure, (runAggregations frame).outcome before = (.error (.refused failure), before) := by
  let order := frame.order before.calls.sites.length
  refine ⟨⟨.notAllowed (.notPermutation order before.calls.sites.length), none⟩, ?_⟩
  unfold runAggregations
  rw [outcome_get_bind]
  dsimp only
  rw [CallSites.declare_of_not_perm collecting twice]
  rfl

theorem memory_outcome_conclude {statement : Statement} {clauses : ResolvedClauses} :
    ((frame.conclude statement clauses).outcome before).2.memory =
      ((runAggregations frame).outcome before).2.memory := by
  unfold Frame.conclude
  rw [outcome_bind]
  cases (runAggregations frame).outcome before with
  | mk result between =>
      cases result with
      | error fault => rfl
      | ok handlers =>
          dsimp only
          rw [outcome_bind]
          cases clauses.typed handlers with
          | ok typed => rfl
          | error failure => rfl

end

end EventQuery
