import EventQuery.Proofs.Protocol.Telling

set_option autoImplicit false

/-! What all factories make, all forges are: while a statement is resolved, every forge that is
registered and every forge that serves a call site is of the kind that the factories make. -/

namespace EventQuery

open Resolution

variable {kind : ForgeBehaviour → Prop}

/-- All forges that the factories create are of one kind. -/
def Services.Makes (services : Services) (kind : ForgeBehaviour → Prop) : Prop :=
  ∀ entry ∈ services.factories, ∀ family behaviour,
    entry.2.create family = .ok behaviour → kind behaviour

/-- The calls of a statement are still being collected, and all its forges are of one kind. -/
structure Progress.Employs (progress : Progress) (kind : ForgeBehaviour → Prop) : Prop where
  collecting : progress.calls.phase = .collecting
  forges : ∀ entry ∈ progress.symbols.registeredForges, kind entry.2.behaviour
  sites : ∀ site ∈ progress.calls.sites, kind site.forge.behaviour

theorem Services.Makes.createForge {services : Services} (makes : services.Makes kind)
    {family : FunctionFamily} {workshop after : Workshop} {forge : Forge}
    (created : services.createForge family workshop = (.ok forge, after)) :
    kind forge.behaviour := by
  unfold Services.createForge at created
  cases known : services.factories.lookup family.factory with
  | none =>
      rw [known] at created
      cases created
  | some factory =>
      rw [known] at created
      unfold Workshop.create at created
      cases made : factory.create family with
      | error failure =>
          simp only [made] at created
          cases created
      | ok behaviour =>
          simp only [made] at created
          cases created
          exact makes (family.factory, factory) (Entries.mem_of_lookup known) family behaviour made

namespace Progress.Employs

variable {before after : Progress}

theorem of_kept (employs : before.Employs kind) (calls : after.calls = before.calls)
    (forges : after.symbols.forges = before.symbols.forges) : after.Employs kind where
  collecting := by
    rw [calls]
    exact employs.collecting
  forges := by
    unfold SymbolContext.registeredForges
    rw [forges]
    exact employs.forges
  sites := by
    rw [calls]
    exact employs.sites

theorem of_local {α : Type} {action : Resolution α} {value : α} (employs : before.Employs kind)
    (apart : Local action) (run : Yields action before value after) : after.Employs kind := by
  obtain ⟨calls, forges, _⟩ := apart.kept before
  unfold Yields at run
  rw [run] at calls forges
  exact employs.of_kept calls forges

theorem of_resolveForge {frame : Frame} {family : FunctionFamily} {position : Option Position}
    {forge : Forge} (employs : before.Employs kind) (makes : frame.services.Makes kind)
    (run : Yields (frame.resolveForge family position) before forge after) :
    after.Employs kind := by
  rcases Frame.yields_resolveForge_iff.mp run with ⟨_, rfl⟩ | ⟨free, workshop, created, rfl⟩
  · exact employs
  · refine { employs with forges := ?_ }
    dsimp only
    rw [SymbolContext.registeredForges_addForge free]
    intro entry member
    rcases List.mem_append.mp member with old | new
    · exact employs.forges entry old
    · rw [List.mem_singleton.mp new]
      exact makes.createForge created

theorem forge? (employs : before.Employs kind) {key : AggregationKey} {forge : Forge}
    (registered : before.symbols.forge? key = some forge) : kind forge.behaviour :=
  employs.forges (key, forge) (Entries.mem_of_lookup registered)

theorem of_add (employs : before.Employs kind) {site : CallSite} {index : Nat} {calls : CallSites}
    (served : kind site.forge.behaviour) (added : before.calls.add site = .ok (index, calls)) :
    Employs { before with calls := calls } kind where
  collecting := by
    unfold CallSites.add at added
    rw [if_pos employs.collecting] at added
    cases added
    exact employs.collecting
  forges := employs.forges
  sites := by
    dsimp only
    rw [(CallSites.sites_of_add added).2]
    intro other member
    rcases List.mem_append.mp member with old | new
    · exact employs.sites other old
    · rw [List.mem_singleton.mp new]
      exact served

theorem opening (statement : Statement) (memory : CompilerMemory) :
    Employs (.opening statement .empty memory) kind where
  collecting := rfl
  forges := by
    have none : (SymbolContext.empty.opened statement).forges = none :=
      SymbolContext.forges_opened _ _
    unfold SymbolContext.registeredForges Progress.opening
    dsimp only
    rw [none]
    exact List.forall_mem_nil _
  sites := List.forall_mem_nil _

end Progress.Employs

mutual

theorem Resolves.employs {frame : Frame} {scope : Scope} {expression : Expression}
    {tree : Resolved} {before after : Progress} :
    Resolves frame scope expression before tree after → frame.services.Makes kind →
      before.Employs kind → after.Employs kind
  | .constant, _, employs => employs
  | .property run, _, employs => employs.of_local (frame.local_resolveProperty _ _) run
  | .wildcard run, _, employs => employs.of_local (frame.local_resolveWildcard _ _ _) run
  | .substitution run, _, employs => employs.of_local (frame.local_resolveSubstitution _) run
  | .prior run, _, employs => employs.of_local (frame.local_resolvePrior _ _ _ _) run
  | .table _ _ given _ _, makes, employs => (given.employs makes employs).of_kept rfl rfl
  | .declared _ _ _ given inner, makes, employs =>
      inner.employs makes (given.employs makes employs)
  | .script _ _ given, makes, employs => given.employs makes employs
  | .aggregation _ _ _ _ _ _ created given _ added, makes, employs => by
      have made := employs.of_resolveForge makes created
      have served := made.forge? (Frame.registered_of_resolveForge created)
      exact (given.employs makes made).of_add served added
  | .subquery _ _, _, employs => employs.of_kept rfl rfl
  | .math left right, makes, employs => right.employs makes (left.employs makes employs)
  | .compare left right, makes, employs => right.employs makes (left.employs makes employs)
  | .and left right, makes, employs => right.employs makes (left.employs makes employs)
  | .or left right, makes, employs => right.employs makes (left.employs makes employs)
  | .not inner, makes, employs => inner.employs makes employs

theorem ResolvesAll.employs {frame : Frame} {items : List (Scope × Expression)}
    {trees : List Resolved} {before after : Progress} :
    ResolvesAll frame items before trees after → frame.services.Makes kind →
      before.Employs kind → after.Employs kind
  | .nil, _, employs => employs
  | .cons head tail, makes, employs => tail.employs makes (head.employs makes employs)

end

end EventQuery
