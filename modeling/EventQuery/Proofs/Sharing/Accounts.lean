import EventQuery.Proofs.Protocol.Telling
import EventQuery.Proofs.Sharing.Families

set_option autoImplicit false

/-! What is created while a statement is resolved. An account lists the forges that were made,
each for its family, the call sites that were added and the specs of subqueries; every request
to a factory is for one of these forges or was made for one of these specs. -/

namespace EventQuery

open Resolution

namespace StatementSpec

mutual

def parts : StatementSpec → List StatementSpec
  | ⟨name, text, contextName, hasPrior, variableNames, tables, declarations, scripts,
      substitutions, forges, streams, select, filter, groupBy, having, aggregations, states,
      subqueries⟩ =>
      ⟨name, text, contextName, hasPrior, variableNames, tables, declarations, scripts,
        substitutions, forges, streams, select, filter, groupBy, having, aggregations, states,
        subqueries⟩ :: partsOfAll subqueries
termination_by structural spec => spec

def partsOfAll : List StatementSpec → List StatementSpec
  | [] => []
  | spec :: rest => spec.parts ++ partsOfAll rest
termination_by structural specs => specs

end

theorem partsOfAll_eq_flatMap (specs : List StatementSpec) :
    partsOfAll specs = specs.flatMap parts := by
  induction specs with
  | nil => rfl
  | cons spec rest ih => rw [partsOfAll, ih, List.flatMap_cons]

theorem parts_eq (spec : StatementSpec) : spec.parts = spec :: spec.subqueries.flatMap parts := by
  cases spec
  rw [parts, partsOfAll_eq_flatMap]

mutual

theorem within_of_mem_parts : (spec : StatementSpec) → {part : StatementSpec} →
    part ∈ spec.parts → part.Within spec
  | ⟨_, _, _, _, _, _, _, _, _, _, _, _, _, _, _, _, _, subqueries⟩, _, member => by
      rcases List.mem_cons.mp member with same | deeper
      · rw [same]
        exact .self
      · obtain ⟨middle, inside, within⟩ := within_of_mem_partsOfAll subqueries deeper
        exact .subquery inside within
termination_by structural spec => spec

theorem within_of_mem_partsOfAll : (specs : List StatementSpec) → {part : StatementSpec} →
    part ∈ partsOfAll specs → ∃ spec ∈ specs, part.Within spec
  | [], _, member => by cases member
  | spec :: rest, _, member => by
      rcases List.mem_append.mp member with here | later
      · exact ⟨spec, List.mem_cons_self, within_of_mem_parts spec here⟩
      · obtain ⟨other, inside, within⟩ := within_of_mem_partsOfAll rest later
        exact ⟨other, List.mem_cons_of_mem _ inside, within⟩
termination_by structural specs => specs

end

def uses (spec : StatementSpec) (family : FunctionFamily) : Bool :=
  spec.aggregations.any (fun call => family.functions.contains call.function)

/-- The families that the parts of a spec use, for each part once. -/
def used (families : List FunctionFamily) (spec : StatementSpec) : List FunctionFamily :=
  spec.parts.flatMap (fun part => families.filter part.uses)

def identities (spec : StatementSpec) : List Nat :=
  spec.parts.flatMap (fun part => part.forges.map (fun entry => entry.2.identity))

theorem used_eq (families : List FunctionFamily) (spec : StatementSpec) :
    spec.used families =
      families.filter spec.uses ++ spec.subqueries.flatMap (used families) := by
  unfold used
  rw [parts_eq, List.flatMap_cons, List.flatMap_assoc]

theorem identities_eq (spec : StatementSpec) :
    spec.identities = spec.forges.map (fun entry => entry.2.identity) ++
      spec.subqueries.flatMap identities := by
  unfold identities
  rw [parts_eq, List.flatMap_cons, List.flatMap_assoc]

end StatementSpec

def TraceEntry.family? : TraceEntry → Option FunctionFamily
  | creation _ family => some family
  | message _ _ _ => none

def requests (trace : List TraceEntry) : List FunctionFamily :=
  trace.filterMap TraceEntry.family?

theorem requests_append (early late : List TraceEntry) :
    requests (early ++ late) = requests early ++ requests late :=
  List.filterMap_append

theorem requests_messages {sites : List CallSite} {entry : CallSite → TraceEntry}
    (message : ∀ site, (entry site).family? = none) : requests (sites.map entry) = [] := by
  unfold requests
  rw [List.filterMap_map, List.filterMap_eq_nil_iff]
  intro site _
  exact message site

theorem Services.creation_of_createForge {services : Services} {family : FunctionFamily}
    {workshop after : Workshop} {forge : Forge}
    (created : services.createForge family workshop = (.ok forge, after)) :
    forge.identity = workshop.nextIdentity ∧ after.nextIdentity = workshop.nextIdentity + 1 ∧
      ∃ factory, after.trace = workshop.trace ++ [.creation factory family] := by
  unfold Services.createForge at created
  split at created
  · rename_i factory _
    unfold Workshop.create at created
    dsimp only at created
    split at created
    · cases created
      exact ⟨rfl, rfl, factory.name, rfl⟩
    · cases created
  · cases created

def SymbolContext.keys (symbols : SymbolContext) : List AggregationKey :=
  symbols.registeredForges.map Prod.fst

/-- From one memory to the other a spec was compiled: factories were asked once for each family
that a part of the spec uses, and the numbers given since are those of its forges. -/
structure CompilerMemory.Furnishes (families : List FunctionFamily) (before after : CompilerMemory)
    (spec : StatementSpec) : Prop where
  trace : ∃ entries, after.workshop.trace = before.workshop.trace ++ entries ∧
    (requests entries).Perm (spec.used families)
  grown : before.workshop.nextIdentity ≤ after.workshop.nextIdentity
  numbers : spec.identities.Perm (List.range' before.workshop.nextIdentity
    (after.workshop.nextIdentity - before.workshop.nextIdentity))

/-- From one progress to the other these forges were made, each for its family, these call sites
were added and these subqueries were compiled. -/
structure Progress.Furnishes (services : Services) (families : List FunctionFamily)
    (before after : Progress) (made : List (FunctionFamily × Forge)) (added : List CallSite)
    (inner : List StatementSpec) : Prop where
  forges : after.symbols.registeredForges = before.symbols.registeredForges ++
    made.map (fun entry => (.ofFamily entry.1, entry.2))
  sites : after.calls.sites = before.calls.sites ++ added
  subqueries : after.subqueries = before.subqueries ++ inner
  trace : ∃ entries, after.memory.workshop.trace = before.memory.workshop.trace ++ entries ∧
    (requests entries).Perm (made.map Prod.fst ++ inner.flatMap (StatementSpec.used families))
  grown : before.memory.workshop.nextIdentity ≤ after.memory.workshop.nextIdentity
  numbers : (made.map (fun entry => entry.2.identity) ++
    inner.flatMap StatementSpec.identities).Perm
      (List.range' before.memory.workshop.nextIdentity
        (after.memory.workshop.nextIdentity - before.memory.workshop.nextIdentity))
  distinct : before.symbols.keys.Nodup → after.symbols.keys.Nodup
  served : ∀ site ∈ added, services.family? site.node.name = some site.family ∧
    site.key = .ofFamily site.family ∧ after.symbols.forge? site.key = some site.forge

theorem SymbolContext.forge?_of_append {symbols later : SymbolContext}
    {more : List (AggregationKey × Forge)} {key : AggregationKey} {forge : Forge}
    (grown : later.registeredForges = symbols.registeredForges ++ more)
    (registered : symbols.forge? key = some forge) : later.forge? key = some forge := by
  unfold forge? at registered ⊢
  rw [grown, List.lookup_append, registered]
  rfl

namespace Progress.Furnishes

variable {services : Services} {families : List FunctionFamily} {before between after : Progress}

theorem of_quiet (forges : after.symbols.registeredForges = before.symbols.registeredForges)
    (calls : after.calls = before.calls) (subqueries : after.subqueries = before.subqueries)
    (workshop : after.memory.workshop = before.memory.workshop) :
    before.Furnishes services families after [] [] [] where
  forges := by rw [forges, List.map_nil, List.append_nil]
  sites := by rw [calls, List.append_nil]
  subqueries := by rw [subqueries, List.append_nil]
  trace := ⟨[], by rw [workshop, List.append_nil], List.Perm.refl _⟩
  grown := by rw [workshop]
  numbers := by
    rw [workshop, Nat.sub_self]
    exact List.Perm.refl _
  distinct := by
    unfold SymbolContext.keys
    rw [forges]
    exact id
  served := List.forall_mem_nil _

theorem refl (progress : Progress) : progress.Furnishes services families progress [] [] [] :=
  of_quiet rfl rfl rfl rfl

variable {made more : List (FunctionFamily × Forge)} {added others : List CallSite}
  {inner further : List StatementSpec}

theorem trans (early : before.Furnishes services families between made added inner)
    (late : between.Furnishes services families after more others further) :
    before.Furnishes services families after (made ++ more) (added ++ others)
      (inner ++ further) where
  forges := by rw [late.forges, early.forges, List.map_append, List.append_assoc]
  sites := by rw [late.sites, early.sites, List.append_assoc]
  subqueries := by rw [late.subqueries, early.subqueries, List.append_assoc]
  trace := by
    obtain ⟨entries, told, asked⟩ := early.trace
    obtain ⟨laterEntries, toldLater, askedLater⟩ := late.trace
    refine ⟨entries ++ laterEntries, ?_, ?_⟩
    · rw [toldLater, told, List.append_assoc]
    · rw [requests_append, List.map_append, List.flatMap_append]
      exact (asked.append askedLater).trans (perm_append_append _ _ _ _)
  grown := Nat.le_trans early.grown late.grown
  numbers := by
    rw [List.map_append, List.flatMap_append]
    exact perm_of_stages early.grown late.grown early.numbers late.numbers
  distinct := fun unique => late.distinct (early.distinct unique)
  served := by
    intro site member
    rcases List.mem_append.mp member with old | new
    · obtain ⟨registered, keyed, found⟩ := early.served site old
      exact ⟨registered, keyed, SymbolContext.forge?_of_append late.forges found⟩
    · exact late.served site new

theorem of_subquery {spec : StatementSpec}
    (forges : after.symbols.registeredForges = before.symbols.registeredForges)
    (calls : after.calls = before.calls) (subqueries : after.subqueries = before.subqueries ++ [spec])
    (compiled : before.memory.Furnishes families after.memory spec) :
    before.Furnishes services families after [] [] [spec] where
  forges := by rw [forges, List.map_nil, List.append_nil]
  sites := by rw [calls, List.append_nil]
  subqueries := subqueries
  trace := by
    rw [List.map_nil, List.nil_append, List.flatMap_singleton]
    exact compiled.trace
  grown := compiled.grown
  numbers := by
    rw [List.map_nil, List.nil_append, List.flatMap_singleton]
    exact compiled.numbers
  distinct := by
    unfold SymbolContext.keys
    rw [forges]
    exact id
  served := List.forall_mem_nil _

theorem of_created {progress : Progress} {family : FunctionFamily} {forge : Forge}
    {workshop : Workshop} (free : progress.symbols.forge? (.ofFamily family) = none)
    (created : services.createForge family progress.memory.workshop = (.ok forge, workshop)) :
    progress.Furnishes services families { progress with
      symbols := progress.symbols.addForge (.ofFamily family) forge
      memory := { progress.memory with workshop := workshop } } [(family, forge)] [] [] := by
  have registered := SymbolContext.registeredForges_addForge free forge
  obtain ⟨number, next, factory, told⟩ := Services.creation_of_createForge created
  exact {
    forges := registered
    sites := (List.append_nil _).symm
    subqueries := (List.append_nil _).symm
    trace := ⟨_, told, List.Perm.refl _⟩
    grown := by
      dsimp only
      omega
    numbers := by
      dsimp only
      rw [next, Nat.add_sub_cancel_left]
      simp only [List.map_cons, List.map_nil, number]
      exact List.Perm.refl _
    distinct := by
      intro unique
      unfold SymbolContext.keys
      dsimp only
      rw [registered, List.map_append, List.nodup_append]
      refine ⟨unique, List.nodup_singleton _, ?_⟩
      intro key member other isNew equal
      obtain rfl := List.mem_singleton.mp isNew
      obtain ⟨entry, inside, same⟩ := List.mem_map.mp member
      have different := List.lookup_eq_none_iff.mp free entry inside
      rw [same, equal] at different
      simp at different
    served := List.forall_mem_nil _ }

theorem of_add {progress : Progress} {site : CallSite} {index : Nat} {calls : CallSites}
    (known : services.family? site.node.name = some site.family)
    (keyed : site.key = .ofFamily site.family)
    (registered : progress.symbols.forge? site.key = some site.forge)
    (added : progress.calls.add site = .ok (index, calls)) :
    progress.Furnishes services families { progress with calls := calls } [] [site] [] := by
  have unchanged : progress.Furnishes services families progress [] [] [] := refl progress
  exact { unchanged with
    sites := (CallSites.sites_of_add added).2
    served := by
      intro other member
      obtain rfl := List.mem_singleton.mp member
      exact ⟨known, keyed, registered⟩ }

end Progress.Furnishes

/-- An account can be given of what happened, in which every forge that was made serves a call
site. -/
def Progress.Develops (services : Services) (families : List FunctionFamily)
    (before after : Progress) : Prop :=
  ∃ made added inner, before.Furnishes services families after made added inner ∧
    ∀ entry ∈ made, ∃ site ∈ added, site.family = entry.1

namespace Progress.Develops

variable {services : Services} {families : List FunctionFamily} {before between after : Progress}

theorem of_quiet (forges : after.symbols.registeredForges = before.symbols.registeredForges)
    (calls : after.calls = before.calls) (subqueries : after.subqueries = before.subqueries)
    (workshop : after.memory.workshop = before.memory.workshop) :
    before.Develops services families after :=
  ⟨[], [], [], .of_quiet forges calls subqueries workshop, List.forall_mem_nil _⟩

theorem trans (early : before.Develops services families between)
    (late : between.Develops services families after) :
    before.Develops services families after := by
  obtain ⟨made, added, inner, furnishes, covered⟩ := early
  obtain ⟨more, others, further, furnishesLater, coveredLater⟩ := late
  refine ⟨_, _, _, furnishes.trans furnishesLater, ?_⟩
  intro entry member
  rcases List.mem_append.mp member with old | new
  · obtain ⟨site, inside, same⟩ := covered entry old
    exact ⟨site, List.mem_append_left _ inside, same⟩
  · obtain ⟨site, inside, same⟩ := coveredLater entry new
    exact ⟨site, List.mem_append_right _ inside, same⟩

theorem of_local {action : Resolution Resolved} {tree : Resolved} (apart : Local action)
    (run : Yields action before tree after) (subqueries : after.subqueries = before.subqueries) :
    before.Develops services families after := by
  obtain ⟨calls, forges, workshop⟩ := apart.kept before
  unfold Yields at run
  rw [run] at calls forges workshop
  refine of_quiet ?_ calls subqueries workshop
  unfold SymbolContext.registeredForges
  rw [forges]

theorem of_subquery {spec : StatementSpec} {symbols : SymbolContext}
    {memory : CompilerMemory} {progress : Progress}
    (compiled : progress.memory.Furnishes families memory (symbols.foldInto spec)) :
    progress.Develops services families (progress.afterSubquery spec symbols memory) :=
  ⟨[], [], _, .of_subquery rfl rfl rfl compiled, List.forall_mem_nil _⟩

theorem of_aggregation {frame : Frame} {node : FunctionCall} {family : FunctionFamily}
    {position : Option Position} {forge : Forge} {parameters : List AggregationParameter}
    {index : Nat} {calls : CallSites} (known : frame.services.family? node.name = some family)
    (created : Yields (frame.resolveForge family position) before forge between)
    (given : between.Develops frame.services families after)
    (added : after.calls.add ⟨node, .ofFamily family, forge, family, parameters⟩ =
      .ok (index, calls)) :
    before.Develops frame.services families { after with calls := calls } := by
  obtain ⟨made, first, own⟩ : ∃ made : List (FunctionFamily × Forge),
      before.Furnishes frame.services families between made [] [] ∧
        ∀ entry ∈ made, entry.1 = family := by
    rcases Frame.yields_resolveForge_iff.mp created with found | missing
    · obtain ⟨_, same⟩ := found
      subst same
      exact ⟨[], .refl _, List.forall_mem_nil _⟩
    · obtain ⟨free, workshop, run, same⟩ := missing
      subst same
      exact ⟨[(family, forge)], .of_created free run, List.forall_mem_singleton.mpr rfl⟩
  obtain ⟨more, others, inner, furnishes, covered⟩ := given
  have registered := SymbolContext.forge?_of_append furnishes.forges
    (Frame.registered_of_resolveForge created)
  have last : after.Furnishes frame.services families { after with calls := calls } []
      [⟨node, .ofFamily family, forge, family, parameters⟩] [] :=
    .of_add known rfl registered added
  refine ⟨_, _, _, (first.trans furnishes).trans last, ?_⟩
  intro entry member
  rw [List.append_nil] at member
  rcases List.mem_append.mp member with isOwn | isInner
  · refine ⟨_, List.mem_append_right _ List.mem_cons_self, ?_⟩
    exact (own entry isOwn).symm
  · obtain ⟨site, inside, same⟩ := covered entry isInner
    exact ⟨site, List.mem_append_left _ inside, same⟩

end Progress.Develops

end EventQuery
