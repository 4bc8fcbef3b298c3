import EventQuery.Proofs.History.Renaming

set_option autoImplicit false

/-! Messages go to forges that exist only. Every forge that a statement holds was created before,
so no message ever goes to a number that a later forge will get. -/

namespace EventQuery

namespace Workshop

variable {workshop : Workshop}

def Holds (workshop : Workshop) (forge : Forge) : Prop :=
  forge.identity < workshop.nextIdentity

theorem Holds.of_le {forge : Forge} {later : Workshop} (created : workshop.Holds forge)
    (grown : workshop.nextIdentity ≤ later.nextIdentity) : later.Holds forge :=
  Nat.lt_of_lt_of_le created grown

theorem Settled.tell (settled : workshop.Settled) {forge : Forge} (created : workshop.Holds forge)
    (callback : Callback) :
    (workshop.record (.message forge.identity forge.maker callback)).Settled := by
  intro identity maker other member
  rcases List.mem_append.mp member with earlier | last
  · exact settled identity maker other earlier
  · cases List.mem_singleton.mp last
    exact created

theorem Settled.ask (settled : workshop.Settled) (factory : String) (family : FunctionFamily) :
    (workshop.record (.creation factory family)).Settled := by
  intro identity maker callback member
  rcases List.mem_append.mp member with earlier | last
  · exact settled identity maker callback earlier
  · cases List.mem_singleton.mp last

structure Made (workshop : Workshop) (result : Except ValidationError Forge × Workshop) :
    Prop where
  settled : result.2.Settled
  grown : workshop.nextIdentity ≤ result.2.nextIdentity
  held : ∀ forge, result.1 = .ok forge → result.2.Holds forge

theorem Settled.create (settled : workshop.Settled) (factory : AggregationFactory)
    (family : FunctionFamily) : workshop.Made (workshop.create factory family) := by
  have asked := settled.ask factory.name family
  unfold Workshop.create
  cases factory.create family with
  | error failure =>
      refine ⟨asked, Nat.le_refl _, ?_⟩
      intro forge same
      cases same
  | ok behaviour =>
      refine ⟨?_, Nat.le_succ _, ?_⟩
      · intro identity maker callback member
        exact Nat.lt_succ_of_lt (asked identity maker callback member)
      · intro forge same
        cases same
        exact Nat.lt_succ_self _

theorem Settled.createForge (settled : workshop.Settled) (services : Services)
    (family : FunctionFamily) : workshop.Made (services.createForge family workshop) := by
  unfold Services.createForge
  cases services.factories.lookup family.factory with
  | some factory => exact settled.create factory family
  | none =>
      refine ⟨settled, Nat.le_refl _, ?_⟩
      intro forge same
      cases same

variable {sites : List CallSite} {statement : String}

theorem Settled.declareVisits (settled : workshop.Settled)
    (held : ∀ site ∈ sites, workshop.Holds site.forge) (order : List Nat) :
    (CallSites.declareVisits sites statement order workshop).Settled ∧
      (CallSites.declareVisits sites statement order workshop).nextIdentity =
        workshop.nextIdentity := by
  induction order generalizing workshop with
  | nil => exact ⟨settled, rfl⟩
  | cons index order ih =>
      unfold CallSites.declareVisits
      cases found : sites[index]? with
      | none => exact ih settled held
      | some site =>
          have member := List.mem_of_getElem? found
          exact ih (settled.tell (held site member) _) held

theorem Settled.validateVisits {streams : List EventType} {registry : Registry}
    (settled : workshop.Settled) (held : ∀ site ∈ sites, workshop.Holds site.forge)
    (order : List Nat) :
    (CallSites.validateVisits sites statement streams registry order workshop).2.Settled ∧
      (CallSites.validateVisits sites statement streams registry order workshop).2.nextIdentity =
        workshop.nextIdentity := by
  induction order generalizing workshop with
  | nil => exact ⟨settled, rfl⟩
  | cons index order ih =>
      unfold CallSites.validateVisits
      cases found : sites[index]? with
      | none => exact ih settled held
      | some site =>
          have member := List.mem_of_getElem? found
          have told := settled.tell (held site member)
            (.validated (site.validation statement streams registry))
          have rest := ih told held
          dsimp only
          unfold Workshop.validate
          cases site.forge.behaviour.validate (workshop.history site.forge)
              (site.validation statement streams registry) with
          | error failure => exact ⟨told, rfl⟩
          | ok handler =>
              dsimp only
              split
              · rename_i visited
                rw [visited] at rest
                exact rest
              · rename_i visited
                rw [visited] at rest
                exact rest

theorem Settled.declare {calls calls' : CallSites} {order : List Nat} {workshop' : Workshop}
    (settled : workshop.Settled) (held : ∀ site ∈ calls.sites, workshop.Holds site.forge)
    (declared : calls.declare workshop statement order = .ok (calls', workshop')) :
    workshop'.Settled ∧ workshop'.nextIdentity = workshop.nextIdentity := by
  unfold CallSites.declare at declared
  split at declared
  · split at declared
    · cases declared
      exact settled.declareVisits held order
    · cases declared
  · cases declared

theorem Settled.validate {calls : CallSites} {streams : List EventType} {registry : Registry}
    (settled : workshop.Settled) (held : ∀ site ∈ calls.sites, workshop.Holds site.forge)
    (order : List Nat) :
    (calls.validate workshop statement order streams registry).2.2.Settled ∧
      (calls.validate workshop statement order streams registry).2.2.nextIdentity =
        workshop.nextIdentity := by
  unfold CallSites.validate
  split
  · split
    · have visits : (CallSites.validateVisits calls.sites statement streams registry order
          workshop).2.Settled ∧ _ := settled.validateVisits held order
      split
      · rename_i visited
        rw [visited] at visits
        exact visits
      · rename_i visited
        rw [visited] at visits
        exact visits
    · exact ⟨settled, rfl⟩
  · exact ⟨settled, rfl⟩

end Workshop

def SymbolContext.HeldBy (symbols : SymbolContext) (workshop : Workshop) : Prop :=
  ∀ entry ∈ symbols.registeredForges, workshop.Holds entry.2

theorem SymbolContext.HeldBy.mono {symbols : SymbolContext} {workshop later : Workshop}
    (held : symbols.HeldBy workshop) (grown : workshop.nextIdentity ≤ later.nextIdentity) :
    symbols.HeldBy later :=
  fun entry member => Nat.lt_of_lt_of_le (held entry member) grown

theorem SymbolContext.HeldBy.addForge {symbols : SymbolContext} {workshop : Workshop}
    (held : symbols.HeldBy workshop) {key : AggregationKey} {forge : Forge}
    (created : workshop.Holds forge) : (symbols.addForge key forge).HeldBy workshop := by
  intro entry member
  rcases List.mem_append.mp member with earlier | last
  · exact held entry (List.mem_filter.mp earlier).1
  · rw [List.mem_singleton.mp last]
    exact created

theorem SymbolContext.HeldBy.forge? {symbols : SymbolContext} {workshop : Workshop}
    (held : symbols.HeldBy workshop) {key : AggregationKey} {forge : Forge}
    (registered : symbols.forge? key = some forge) : workshop.Holds forge :=
  held (key, forge) (Entries.mem_of_lookup registered)

end EventQuery
