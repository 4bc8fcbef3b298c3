import EventQuery.Proofs.Protocol.Passes
import EventQuery.Proofs.Resolution.Employment

set_option autoImplicit false

/-! Forges whose answers do not depend on what they were told before. The passes over the call
sites of a statement then end with the same handlers in every order, or else with the refusal of
a call site whose forge refuses it. -/

namespace EventQuery

open Resolution

/-- The forge answers a validation by the validation only. -/
def ForgeBehaviour.Steady (behaviour : ForgeBehaviour) : Prop :=
  ∀ history other validation,
    behaviour.validate history validation = behaviour.validate other validation

def Services.Steady (services : Services) : Prop :=
  ∀ entry ∈ services.factories, ∀ family behaviour,
    entry.2.create family = .ok behaviour → behaviour.Steady

/-- The answer to the validation of a call site by a forge that was told nothing before. -/
def CallSite.answer (site : CallSite) (statement : String) (streams : List EventType)
    (registry : Registry) : Except ValidationError Handler :=
  site.forge.behaviour.validate [] (site.validation statement streams registry)

namespace CallSites

variable {sites : List CallSite} {statement : String} {streams : List EventType}
  {registry : Registry} {visits : List Nat}

theorem validateVisits_of_accepted {handlers : List Handler}
    (steady : ∀ site ∈ sites, site.forge.behaviour.Steady)
    (accepted : sites.map (fun site => site.answer statement streams registry) =
      handlers.map .ok) (visits : List Nat) (workshop : Workshop) :
    (validateVisits sites statement streams registry visits workshop).1 =
      .ok (visits.filterMap (fun index => handlers[index]?.map (Prod.mk index))) := by
  induction visits generalizing workshop with
  | nil => rfl
  | cons index visits ih =>
      have answered := congrArg (fun answers => answers[index]?) accepted
      simp only [List.getElem?_map] at answered
      cases found : sites[index]? with
      | none =>
          rw [found] at answered
          have missing : handlers[index]? = none := Option.map_eq_none_iff.mp answered.symm
          rw [validateVisits_cons_of_none visits workshop found, ih,
            List.filterMap_cons_none (by rw [missing]; rfl)]
      | some site =>
          rw [found] at answered
          obtain ⟨handler, given, same⟩ := Option.map_eq_some_iff.mp answered.symm
          have answer : site.forge.behaviour.validate (workshop.history site.forge)
              (site.validation statement streams registry) = .ok handler :=
            (steady site (List.mem_of_getElem? found) _ _ _).trans same.symm
          rw [validateVisits_cons_of_ok visits workshop found answer,
            List.filterMap_cons_some (by rw [given]; rfl)]
          dsimp only
          rw [ih]
          rfl

theorem validateVisits_of_rejected (steady : ∀ site ∈ sites, site.forge.behaviour.Steady)
    (rejected : ∃ index ∈ visits, ∃ site, sites[index]? = some site ∧
      ∃ error, site.answer statement streams registry = .error error) (workshop : Workshop) :
    ∃ index site error, sites[index]? = some site ∧
      site.answer statement streams registry = .error error ∧
      (validateVisits sites statement streams registry visits workshop).1 =
        .error ⟨index, error⟩ := by
  induction visits generalizing workshop with
  | nil =>
      obtain ⟨_, impossible, _⟩ := rejected
      cases impossible
  | cons index visits ih =>
      have later (own : ∀ site, sites[index]? = some site →
          ∀ error, site.answer statement streams registry ≠ .error error) :
          ∃ index ∈ visits, ∃ site, sites[index]? = some site ∧
            ∃ error, site.answer statement streams registry = .error error := by
        obtain ⟨other, member, site, found, error, refused⟩ := rejected
        rcases List.mem_cons.mp member with rfl | inRest
        · exact absurd refused (own site found error)
        · exact ⟨other, inRest, site, found, error, refused⟩
      cases found : sites[index]? with
      | none =>
          have rest := later (fun site impossible => by
            rw [found] at impossible
            cases impossible)
          rw [validateVisits_cons_of_none visits workshop found]
          exact ih rest workshop
      | some site =>
          have same (workshop : Workshop) :
              site.forge.behaviour.validate (workshop.history site.forge)
                (site.validation statement streams registry) =
              site.answer statement streams registry :=
            steady site (List.mem_of_getElem? found) _ _ _
          cases answer : site.answer statement streams registry with
          | error error =>
              refine ⟨index, site, error, found, answer, ?_⟩
              rw [validateVisits_cons_of_error visits workshop found ((same workshop).trans answer)]
          | ok handler =>
              have rest := later (fun other here error refused => by
                cases found.symm.trans here
                cases answer.symm.trans refused)
              obtain ⟨at', refusedSite, error, there, refused, ended⟩ :=
                ih rest (workshop.told [site.validates statement streams registry])
              refine ⟨at', refusedSite, error, there, refused, ?_⟩
              rw [validateVisits_cons_of_ok visits workshop found ((same workshop).trans answer)]
              dsimp only
              rw [ended]
              rfl

private theorem lookup_visited {answer? : Nat → Option Handler} {index : Nat}
    (member : index ∈ visits) :
    (visits.filterMap (fun index => (answer? index).map (Prod.mk index))).lookup index =
      answer? index := by
  induction visits with
  | nil => cases member
  | cons other visits ih =>
      by_cases inRest : index ∈ visits
      · cases given : answer? other with
        | none => rw [List.filterMap_cons_none (by rw [given]; rfl), ih inRest]
        | some handler =>
            rw [List.filterMap_cons_some (by rw [given]; rfl), List.lookup_cons]
            by_cases same : index = other
            · rw [same, beq_self_eq_true, given]
            · have different : (index == other) = false := beq_false_of_ne same
              rw [different]
              exact ih inRest
      · obtain rfl : index = other := (List.mem_cons.mp member).resolve_right inRest
        cases given : answer? index with
        | none =>
            rw [List.filterMap_cons_none (by rw [given]; rfl), List.lookup_eq_none_iff]
            intro entry inside
            obtain ⟨other, among, made⟩ := List.mem_filterMap.mp inside
            obtain ⟨_, _, rfl⟩ := Option.map_eq_some_iff.mp made
            have different : index ≠ other := fun same => inRest (same ▸ among)
            exact bne_iff_ne.mpr different
        | some handler =>
            rw [List.filterMap_cons_some (by rw [given]; rfl), List.lookup_cons,
              beq_self_eq_true]

theorem filterMap_lookup_visited {handlers : List Handler}
    (once : visits.Perm (List.range handlers.length)) :
    (List.range handlers.length).filterMap (fun index =>
      (visits.filterMap (fun index => handlers[index]?.map (Prod.mk index))).lookup index) =
      handlers := by
  have whole := filterMap_range handlers
  refine Eq.trans (List.filterMap_congr ?_) whole
  intro index member
  exact lookup_visited (once.mem_iff.mpr member)

end CallSites

structure CallSites.Steady (calls : CallSites) : Prop where
  collecting : calls.phase = .collecting
  sites : ∀ site ∈ calls.sites, site.forge.behaviour.Steady

abbrev Progress.Steady (progress : Progress) : Prop :=
  progress.Employs ForgeBehaviour.Steady

theorem Progress.Steady.calls {progress : Progress} (steady : progress.Steady) :
    progress.calls.Steady :=
  ⟨steady.collecting, steady.sites⟩

def Frame.answer (frame : Frame) (site : CallSite) : Except ValidationError Handler :=
  site.answer frame.statement (frame.streams.map StreamBinding.type) frame.services.registry

theorem Frame.accepted_or_rejected (frame : Frame) (sites : List CallSite) :
    (∃ handlers : List Handler, sites.map frame.answer = handlers.map .ok) ∨
      ∃ site ∈ sites, ∃ error, frame.answer site = .error error := by
  induction sites with
  | nil => exact .inl ⟨[], rfl⟩
  | cons site sites ih =>
      cases answer : frame.answer site with
      | error error => exact .inr ⟨site, List.mem_cons_self, error, answer⟩
      | ok handler =>
          rcases ih with ⟨handlers, accepted⟩ | ⟨other, member, rejected⟩
          · refine .inl ⟨handler :: handlers, ?_⟩
            rw [List.map_cons, List.map_cons, accepted, answer]
          · exact .inr ⟨other, List.mem_cons_of_mem _ member, rejected⟩

/-- In the passes of a statement only its forges are told something. -/
theorem Frame.validations_told (frame : Frame) (before : Progress) :
    ∃ entries, (frame.validations before).2 = before.memory.workshop.told entries := by
  obtain ⟨_, _, told, _⟩ := CallSites.validateVisits_told (frame.order before.calls.sites.length)
    (before.memory.workshop.told
      ((CallSites.visited before.calls.sites (frame.order before.calls.sites.length)).map
        (CallSite.declares frame.statement)))
  exact ⟨_, told.trans (Workshop.told_told _ _ _)⟩

section

variable {frame : Frame} {before : Progress} (steady : before.calls.Steady)
  (once : (frame.order before.calls.sites.length).Perm (List.range before.calls.sites.length))

include steady once

/-- The handlers do not depend on the order, nor does anything else but what the forges were
told. -/
theorem yields_runAggregations_of_accepted {handlers : List Handler}
    (accepted : before.calls.sites.map frame.answer = handlers.map .ok) :
    ∃ phase entries, Yields (runAggregations frame) before handlers { before with
      calls := { before.calls with phase := phase }
      memory := { before.memory with workshop := before.memory.workshop.told entries } } := by
  obtain ⟨phase, ended⟩ := outcome_runAggregations_of_perm steady.collecting once
  have count : before.calls.sites.length = handlers.length := by
    have lengths := congrArg List.length accepted
    rwa [List.length_map, List.length_map] at lengths
  have answers : (frame.validations before).1 =
      .ok ((frame.order before.calls.sites.length).filterMap
        (fun index => handlers[index]?.map (Prod.mk index))) :=
    CallSites.validateVisits_of_accepted steady.sites accepted _ _
  obtain ⟨entries, workshop⟩ := frame.validations_told before
  have found : before.calls.naturalOrder.filterMap (fun index =>
      ((frame.order before.calls.sites.length).filterMap
        (fun index => handlers[index]?.map (Prod.mk index))).lookup index) = handlers := by
    unfold CallSites.naturalOrder
    rw [count] at once ⊢
    exact CallSites.filterMap_lookup_visited once
  refine ⟨phase, entries, ?_⟩
  unfold Yields
  rw [ended, answers, workshop]
  dsimp only
  rw [found]

theorem outcome_runAggregations_of_rejected
    (rejected : ∃ site ∈ before.calls.sites, ∃ error, frame.answer site = .error error) :
    ∃ site ∈ before.calls.sites, ∃ error, frame.answer site = .error error ∧
      ((runAggregations frame).outcome before).1 =
        .error (.refused ⟨error, site.node.position⟩) := by
  obtain ⟨phase, ended⟩ := outcome_runAggregations_of_perm steady.collecting once
  obtain ⟨site, member, error, refused⟩ := rejected
  obtain ⟨index, found⟩ := List.mem_iff_getElem?.mp member
  have below : index < before.calls.sites.length := (List.getElem?_eq_some_iff.mp found).1
  have visited : index ∈ frame.order before.calls.sites.length :=
    once.mem_iff.mpr (List.mem_range.mpr below)
  obtain ⟨first, refusedSite, failure, there, answer, result⟩ :=
    CallSites.validateVisits_of_rejected steady.sites ⟨index, visited, site, found, error, refused⟩
      (before.memory.workshop.told
        ((CallSites.visited before.calls.sites (frame.order before.calls.sites.length)).map
          (CallSite.declares frame.statement)))
  refine ⟨refusedSite, List.mem_of_getElem? there, failure, answer, ?_⟩
  have validated : (frame.validations before).1 = .error ⟨first, failure⟩ := result
  rw [ended, validated]
  dsimp only
  rw [there]
  rfl

end

theorem collecting_of_yields_runAggregations {frame : Frame} {before after : Progress}
    {handlers : List Handler} (run : Yields (runAggregations frame) before handlers after) :
    before.calls.phase = .collecting := by
  obtain ⟨_, _, _, _, declared, _⟩ := yields_runAggregations_iff.mp run
  by_contra late
  unfold CallSites.declare at declared
  rw [if_neg late] at declared
  cases declared

theorem perm_of_yields_runAggregations {frame : Frame} {before after : Progress}
    {handlers : List Handler} (run : Yields (runAggregations frame) before handlers after) :
    (frame.order before.calls.sites.length).Perm (List.range before.calls.sites.length) := by
  by_contra twice
  obtain ⟨failure, refused⟩ :=
    outcome_runAggregations_of_not_perm (collecting_of_yields_runAggregations run) twice
  cases run.symm.trans refused

/-- The handlers that some order finds are those that every thorough order finds. -/
theorem accepted_of_yields_runAggregations {frame : Frame} {before after : Progress}
    (steady : before.calls.Steady) {handlers : List Handler}
    (run : Yields (runAggregations frame) before handlers after) :
    before.calls.sites.map frame.answer = handlers.map .ok ∧
      ∃ phase entries, after = { before with
        calls := { before.calls with phase := phase }
        memory := { before.memory with workshop := before.memory.workshop.told entries } } := by
  have once := perm_of_yields_runAggregations run
  rcases frame.accepted_or_rejected before.calls.sites with ⟨answers, accepted⟩ | rejected
  · obtain ⟨phase, entries, found⟩ := yields_runAggregations_of_accepted steady once accepted
    cases run.symm.trans found
    exact ⟨accepted, phase, entries, rfl⟩
  · obtain ⟨_, _, _, _, refused⟩ := outcome_runAggregations_of_rejected steady once rejected
    rw [run] at refused
    cases refused

end EventQuery
