import EventQuery.Proofs.Resolution.Conclusion
import EventQuery.Proofs.Specification.Clauses
import EventQuery.Proofs.Termination.Budget

set_option autoImplicit false

/-! What the forges are told while a statement is compiled. An episode is one compilation, of a
statement or of a subquery, with the episodes of the subqueries that were met on the way; its own
messages are two visits of its call sites, and they come after those of its subqueries. -/

namespace EventQuery

open Resolution

def TraceEntry.isMessage : TraceEntry → Bool
  | .creation _ _ => false
  | .message _ _ _ => true

def TraceEntry.callback? (forge : Forge) : TraceEntry → Option Callback
  | .creation _ _ => none
  | .message identity _ callback => if identity = forge.identity then some callback else none

def Forge.callbacks (forge : Forge) (trace : List TraceEntry) : List Callback :=
  trace.filterMap (TraceEntry.callback? forge)

theorem Forge.callbacks_append (forge : Forge) (early late : List TraceEntry) :
    forge.callbacks (early ++ late) = forge.callbacks early ++ forge.callbacks late :=
  List.filterMap_append

theorem Forge.callbacks_messages (forge : Forge) (trace : List TraceEntry) :
    forge.callbacks (trace.filter TraceEntry.isMessage) = forge.callbacks trace := by
  unfold Forge.callbacks
  induction trace with
  | nil => rfl
  | cons entry trace ih =>
      cases entry with
      | creation factory family => exact ih
      | message identity maker callback =>
          rw [List.filter_cons_of_pos rfl, List.filterMap_cons, List.filterMap_cons, ih]

namespace CallSite

def declares (statement : String) (site : CallSite) : TraceEntry :=
  .message site.forge.identity site.forge.maker (.declared (site.declaration statement))

def validates (statement : String) (streams : List EventType) (registry : Registry)
    (site : CallSite) : TraceEntry :=
  .message site.forge.identity site.forge.maker
    (.validated (site.validation statement streams registry))

end CallSite

namespace CallSites

def visited (sites : List CallSite) (visits : List Nat) : List CallSite :=
  visits.filterMap (fun index => sites[index]?)

theorem visited_cons_of_none {sites : List CallSite} {index : Nat} (visits : List Nat)
    (missing : sites[index]? = none) : visited sites (index :: visits) = visited sites visits :=
  List.filterMap_cons_none missing

theorem visited_cons_of_some {sites : List CallSite} {index : Nat} {site : CallSite}
    (visits : List Nat) (found : sites[index]? = some site) :
    visited sites (index :: visits) = site :: visited sites visits :=
  List.filterMap_cons_some found

theorem mem_of_mem_visited {sites : List CallSite} {visits : List Nat} {site : CallSite}
    (member : site ∈ visited sites visits) : site ∈ sites := by
  obtain ⟨index, _, found⟩ := List.mem_filterMap.mp member
  exact List.mem_of_getElem? found

theorem filterMap_range {α : Type} (items : List α) :
    (List.range items.length).filterMap (fun index => items[index]?) = items := by
  induction items with
  | nil => rfl
  | cons item items ih =>
      rw [List.length_cons, List.range_succ_eq_map, List.filterMap_cons, List.filterMap_map]
      exact congrArg (List.cons item) ih

theorem visited_perm {sites : List CallSite} {visits : List Nat}
    (once : visits.Perm (List.range sites.length)) : (visited sites visits).Perm sites := by
  have whole := once.filterMap (fun index => sites[index]?)
  rwa [filterMap_range] at whole

end CallSites

/-- The compilation of a statement or of a subquery, with no symbols given. -/
structure Undertaking where
  services : Services
  order : Nat → List Nat
  isSubquery : Bool
  statement : Statement
  memory : CompilerMemory
  fuel : Nat

def Services.undertaking (services : Services) (order : Nat → List Nat) (statement : Statement)
    (memory : CompilerMemory) : Undertaking :=
  ⟨services, order, false, statement, memory, services.fuelFor statement .empty + advance⟩

namespace Undertaking

variable (undertaking : Undertaking)

def streams : List StreamBinding :=
  match bindStreams undertaking.services.registry [] undertaking.statement.streams with
  | .ok streams => streams
  | .error _ => []

def frame : Frame :=
  .ofStatement undertaking.services undertaking.order undertaking.isSubquery
    undertaking.statement undertaking.streams

def opening : Progress :=
  .opening undertaking.statement .empty undertaking.memory

/-- The resolution of the clauses: what it ends with, and what was gathered until then. -/
def resolution : Except CompileFault ResolvedClauses × Progress :=
  match bindStreams undertaking.services.registry [] undertaking.statement.streams with
  | .error failure => (.error (.refused failure), undertaking.opening)
  | .ok _ =>
      (resolveClauses (resolve .spent undertaking.fuel undertaking.frame)
        undertaking.statement).outcome undertaking.opening

def sites : List CallSite :=
  undertaking.resolution.2.calls.sites

def forges : List Forge :=
  undertaking.resolution.2.symbols.registeredForges.map Prod.snd

def visits : List Nat :=
  undertaking.order undertaking.sites.length

def Resolved : Prop :=
  ∃ clauses, undertaking.resolution.1 = .ok clauses

def VisitsOnce : Prop :=
  undertaking.visits.Perm (List.range undertaking.sites.length)

def Aggregates : Prop :=
  ∃ handlers after, Yields (runAggregations undertaking.frame) undertaking.resolution.2 handlers
    after

/-- The declarations of the call sites at some positions, then the validations of others. -/
def passes (declared validated : List Nat) : List TraceEntry :=
  (CallSites.visited undertaking.sites declared).map
      (CallSite.declares undertaking.statement.name) ++
    (CallSites.visited undertaking.sites validated).map
      (CallSite.validates undertaking.statement.name
        (undertaking.streams.map StreamBinding.type) undertaking.services.registry)

end Undertaking

/-- The visit comes, within its statement, to a subquery whose compilation is undertaken then. -/
def Visit.Meets (visit : Visit) (undertaking : Undertaking) : Prop :=
  ∃ place, Relation.ReflTransGen Visit.Descends visit place ∧
    place.Opens undertaking.statement ∧ undertaking.statement.select.length = 1 ∧
    undertaking.services = place.frame.services ∧ undertaking.order = place.frame.order ∧
    undertaking.isSubquery = true ∧ undertaking.memory = place.progress.memory

def Undertaking.Meets (undertaking inner : Undertaking) : Prop :=
  ∃ entered, Enters undertaking.services undertaking.order undertaking.isSubquery
    undertaking.statement .empty undertaking.memory entered ∧ entered.Meets inner

/-- A compilation with those of its subqueries, and the positions of the call sites that were
declared and that were validated. -/
inductive Episode where
  | mk (undertaking : Undertaking) (inner : List Episode) (declared validated : List Nat)

namespace Episode

def undertaking : Episode → Undertaking
  | mk undertaking _ _ _ => undertaking

def inner : Episode → List Episode
  | mk _ inner _ _ => inner

def declared : Episode → List Nat
  | mk _ _ declared _ => declared

def validated : Episode → List Nat
  | mk _ _ _ validated => validated

mutual

/-- All messages: those of the subqueries, one after the other, then those of the statement. -/
def messages : Episode → List TraceEntry
  | mk undertaking inner declared validated =>
      messagesOfAll inner ++ undertaking.passes declared validated
termination_by structural episode => episode

def messagesOfAll : List Episode → List TraceEntry
  | [] => []
  | episode :: rest => episode.messages ++ messagesOfAll rest
termination_by structural episodes => episodes

end

mutual

def identities : Episode → List Nat
  | mk undertaking inner _ _ =>
      undertaking.forges.map Forge.identity ++ identitiesOfAll inner
termination_by structural episode => episode

def identitiesOfAll : List Episode → List Nat
  | [] => []
  | episode :: rest => episode.identities ++ identitiesOfAll rest
termination_by structural episodes => episodes

end

inductive Within : Episode → Episode → Prop
  | self {episode} : Within episode episode
  | inner {part middle episode} :
      middle ∈ episode.inner → Within part middle → Within part episode

/-- The call sites of the statement are visited in two phases. -/
structure Orderly (episode : Episode) : Prop where
  /-- No forge is told anything of a statement that is not resolved, or under an order that does
  not visit every call site exactly once. -/
  silent : ¬ (episode.undertaking.Resolved ∧ episode.undertaking.VisitsOnce) →
    episode.declared = [] ∧ episode.validated = []
  declared : episode.undertaking.Resolved → episode.undertaking.VisitsOnce →
    episode.declared = episode.undertaking.visits
  validated : episode.validated <+: episode.declared
  complete : episode.undertaking.Resolved → episode.undertaking.Aggregates →
    episode.validated = episode.declared
  served : ∀ site ∈ episode.undertaking.sites, site.forge ∈ episode.undertaking.forges
  met : ∀ inner ∈ episode.inner, episode.undertaking.Meets inner.undertaking

inductive Sound : Episode → Prop
  | intro {episode : Episode} :
      episode.Orderly → (∀ inner ∈ episode.inner, inner.Sound) → episode.Sound

theorem Sound.within {part episode : Episode} (sound : episode.Sound)
    (within : part.Within episode) : part.Sound := by
  induction within with
  | self => exact sound
  | inner member _ ih =>
      cases sound with
      | intro _ each => exact ih (each _ member)

theorem Sound.orderly {episode : Episode} (sound : episode.Sound) : episode.Orderly := by
  cases sound with
  | intro orderly _ => exact orderly

end Episode

end EventQuery
