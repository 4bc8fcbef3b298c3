import EventQuery.Compile.Statement
import EventQuery.Proofs.Protocol.Passes
import EventQuery.Proofs.Registration.Batches
import Mathlib.Data.List.Forall2

set_option autoImplicit false

/-! Forges that do not notice what else is registered. A validation shows them the registry; where
more types are registered than before, they answer as before. -/

namespace EventQuery

inductive Callback.Grown : Callback → Callback → Prop
  | declared (declaration : CallDeclaration) :
      Grown (.declared declaration) (.declared declaration)
  | validated (validation : CallValidation) {registry : Registry} :
      validation.registry.Grows registry →
      Grown (.validated validation) (.validated { validation with registry := registry })

inductive TraceEntry.Grown : TraceEntry → TraceEntry → Prop
  | creation (factory : String) (family : FunctionFamily) :
      Grown (.creation factory family) (.creation factory family)
  | message (identity : Nat) (maker : String) {callback later : Callback} :
      callback.Grown later →
      Grown (.message identity maker callback) (.message identity maker later)

/-- The same was asked of factories and forges, with more types registered. -/
structure Workshop.Grown (workshop later : Workshop) : Prop where
  nextIdentity : later.nextIdentity = workshop.nextIdentity
  trace : List.Forall₂ TraceEntry.Grown workshop.trace later.trace

/-- The forge answers as before when more types are registered, now and at the messages that it
had. -/
def ForgeBehaviour.Oblivious (behaviour : ForgeBehaviour) : Prop :=
  ∀ history later validation registry, List.Forall₂ Callback.Grown history later →
    validation.registry.Grows registry →
      behaviour.validate later { validation with registry := registry } =
        behaviour.validate history validation

namespace Workshop.Grown

variable {workshop later : Workshop}

theorem refl_empty : Workshop.empty.Grown .empty where
  nextIdentity := rfl
  trace := .nil

theorem record (grown : workshop.Grown later) {entry laterEntry : TraceEntry}
    (same : entry.Grown laterEntry) : (workshop.record entry).Grown (later.record laterEntry) where
  nextIdentity := grown.nextIdentity
  trace := List.rel_append grown.trace (.cons same .nil)

theorem history (grown : workshop.Grown later) (forge : Forge) :
    List.Forall₂ Callback.Grown (workshop.history forge) (later.history forge) := by
  refine List.rel_filterMap ?_ grown.trace
  intro entry laterEntry same
  cases same with
  | creation factory family => exact .none
  | message identity maker same =>
      dsimp only
      split
      · exact .some same
      · exact .none

theorem create (grown : workshop.Grown later) (factory : AggregationFactory)
    (family : FunctionFamily) :
    (later.create factory family).1 = (workshop.create factory family).1 ∧
      (workshop.create factory family).2.Grown (later.create factory family).2 := by
  have asked := grown.record (.creation factory.name family)
  unfold Workshop.create
  cases factory.create family with
  | error failure => exact ⟨rfl, asked⟩
  | ok behaviour =>
      dsimp only
      rw [asked.nextIdentity]
      exact ⟨rfl, rfl, asked.trace⟩

theorem createForge (grown : workshop.Grown later) {services others : Services}
    (factories : others.factories = services.factories) (family : FunctionFamily) :
    (others.createForge family later).1 = (services.createForge family workshop).1 ∧
      (services.createForge family workshop).2.Grown (others.createForge family later).2 := by
  unfold Services.createForge
  rw [factories]
  cases services.factories.lookup family.factory with
  | none => exact ⟨rfl, grown⟩
  | some factory => exact grown.create factory family

variable {sites : List CallSite} {statement : String} {streams : List EventType}
  {registry others : Registry}

theorem declareVisits (grown : workshop.Grown later) (visits : List Nat) :
    (CallSites.declareVisits sites statement visits workshop).Grown
      (CallSites.declareVisits sites statement visits later) := by
  induction visits generalizing workshop later with
  | nil => exact grown
  | cons index visits ih =>
      unfold CallSites.declareVisits
      cases sites[index]? with
      | none => exact ih grown
      | some site => exact ih (grown.record (.message _ _ (.declared _)))

theorem validateVisits (grown : workshop.Grown later) (grows : registry.Grows others)
    (oblivious : ∀ site ∈ sites, site.forge.behaviour.Oblivious) (visits : List Nat) :
    (CallSites.validateVisits sites statement streams others visits later).1 =
        (CallSites.validateVisits sites statement streams registry visits workshop).1 ∧
      (CallSites.validateVisits sites statement streams registry visits workshop).2.Grown
        (CallSites.validateVisits sites statement streams others visits later).2 := by
  induction visits generalizing workshop later with
  | nil => exact ⟨rfl, grown⟩
  | cons index visits ih =>
      cases found : sites[index]? with
      | none =>
          rw [CallSites.validateVisits_cons_of_none visits workshop found,
            CallSites.validateVisits_cons_of_none visits later found]
          exact ih grown
      | some site =>
          have told : (workshop.told [site.validates statement streams registry]).Grown
              (later.told [site.validates statement streams others]) :=
            grown.record (.message _ _ (.validated (site.validation statement streams registry)
              grows))
          have answers : site.forge.behaviour.validate (later.history site.forge)
              (site.validation statement streams others) =
              site.forge.behaviour.validate (workshop.history site.forge)
                (site.validation statement streams registry) :=
            oblivious site (List.mem_of_getElem? found) _ _
              (site.validation statement streams registry) others (grown.history site.forge) grows
          cases answer : site.forge.behaviour.validate (workshop.history site.forge)
              (site.validation statement streams registry) with
          | error failure =>
              rw [CallSites.validateVisits_cons_of_error visits workshop found answer,
                CallSites.validateVisits_cons_of_error visits later found (answers.trans answer)]
              exact ⟨rfl, told⟩
          | ok handler =>
              rw [CallSites.validateVisits_cons_of_ok visits workshop found answer,
                CallSites.validateVisits_cons_of_ok visits later found (answers.trans answer)]
              obtain ⟨same, after⟩ := ih told
              dsimp only
              rw [same]
              exact ⟨rfl, after⟩

end Workshop.Grown

namespace CallSites

variable {calls : CallSites} {workshop later : Workshop} {statement : String}
  {order : List Nat} {streams : List EventType} {registry others : Registry}

theorem declare_grown (grown : workshop.Grown later) {declared : CallSites} {after : Workshop}
    (run : calls.declare workshop statement order = .ok (declared, after)) :
    ∃ laterAfter, calls.declare later statement order = .ok (declared, laterAfter) ∧
      after.Grown laterAfter := by
  unfold declare at run ⊢
  split at run
  · split at run
    · rename_i collecting _ _ _
      cases run
      rw [if_pos collecting]
      exact ⟨_, rfl, grown.declareVisits order⟩
    · cases run
  · cases run

theorem validate_grown (grown : workshop.Grown later) (grows : registry.Grows others)
    (oblivious : ∀ site ∈ calls.sites, site.forge.behaviour.Oblivious)
    {handlers : List Handler} {validated : CallSites} {after : Workshop}
    (run : calls.validate workshop statement order streams registry =
      (.ok handlers, validated, after)) :
    ∃ laterAfter, calls.validate later statement order streams others =
      (.ok handlers, validated, laterAfter) ∧ after.Grown laterAfter := by
  unfold validate at run ⊢
  split at run
  · split at run
    · rename_i declared _ _ _
      rw [if_pos declared]
      obtain ⟨same, visited⟩ := @Workshop.Grown.validateVisits _ _ _ statement streams _ _ grown
        grows oblivious order
      generalize validateVisits calls.sites statement streams registry order workshop = visits
        at run same visited
      generalize validateVisits calls.sites statement streams others order later = laterVisits
        at same visited ⊢
      obtain ⟨result, finish⟩ := visits
      obtain ⟨laterResult, laterFinish⟩ := laterVisits
      dsimp only at same visited
      subst same
      cases laterResult with
      | error failure => cases run
      | ok found =>
          cases run
          exact ⟨laterFinish, rfl, visited⟩
    · cases run
  · cases run

end CallSites

theorem oblivious_of_collect {family : FunctionFamily} {behaviour : ForgeBehaviour}
    (created : Collect.factory.create family = .ok behaviour) : behaviour.Oblivious := by
  cases created
  intro history later validation registry _ _
  rfl

end EventQuery
