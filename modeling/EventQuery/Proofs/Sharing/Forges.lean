import EventQuery.Proofs.Sharing.Accounts

set_option autoImplicit false

/-! Forges follow the families. For every family that a statement uses, and for no other, one
forge is made, and it serves all call sites whose functions are in the family; a subquery has
forges of its own. -/

namespace EventQuery

open Resolution

section

variable {frame : Frame} {before after : Progress}

theorem passes_of_conclude {statement : Statement} {clauses : ResolvedClauses}
    {spec : StatementSpec} (run : Yields (frame.conclude statement clauses) before spec after) :
    ∃ handlers, Yields (runAggregations frame) before handlers after := by
  obtain ⟨handlers, _, passes, _⟩ := yields_conclude_iff.mp run
  exact ⟨handlers, passes⟩

theorem unasked_of_runAggregations {handlers : List Handler}
    (run : Yields (runAggregations frame) before handlers after) :
    ∃ entries, after.memory.workshop = before.memory.workshop.told entries ∧
      requests entries = [] := by
  obtain ⟨calls, workshop, finished, finish, declared, validated, rfl⟩ :=
    yields_runAggregations_iff.mp run
  have told := CallSites.told_of_declare declared
  obtain ⟨reached, toldLater⟩ := CallSites.told_of_validate validated
  rw [told, Workshop.told_told] at toldLater
  refine ⟨_, toldLater, ?_⟩
  rw [requests_append, requests_messages (fun _ => rfl), requests_messages (fun _ => rfl)]
  rfl

end

theorem spec_of_conclude {frame : Frame} {before after : Progress} {statement : Statement}
    {clauses : ResolvedClauses} {bare : StatementSpec}
    (run : Yields (frame.conclude statement clauses) before bare after) :
    (after.symbols.foldInto bare).forges = before.symbols.registeredForges ∧
      (after.symbols.foldInto bare).subqueries = before.subqueries ∧
      (after.symbols.foldInto bare).aggregations.map (fun call => (call.function, call.key)) =
        before.calls.sites.map (fun site => (site.node.name, site.key)) := by
  obtain ⟨handlers, typed, count, _, assembled, symbols⟩ := yields_conclude run
  rw [symbols, assembled]
  refine ⟨rfl, rfl, ?_⟩
  have whole : (before.calls.sites.zip handlers).map Prod.fst = before.calls.sites :=
    List.map_fst_zip (Nat.le_of_eq count.symm)
  have stripped := congrArg (List.map fun site => (site.node.name, site.key)) whole
  rw [List.map_map] at stripped
  exact (assignSlots_calls [] _ (fun function key _ => (function, key))).trans stripped

/-- The call sites of a spec are served as the families have it. -/
structure StatementSpec.Follows (spec : StatementSpec) (families : List FunctionFamily)
    (sites : List CallSite) : Prop where
  calls : spec.aggregations.map (fun call => (call.function, call.key)) =
    sites.map (fun site => (site.node.name, site.key))
  served : ∀ site ∈ sites, spec.forges.lookup site.key = some site.forge
  /-- Two call sites have one forge exactly if their functions are in one family. -/
  shared : ∀ first ∈ sites, ∀ second ∈ sites,
    (first.forge.identity = second.forge.identity ↔
      ∃ family ∈ families, first.node.name ∈ family.functions ∧
        second.node.name ∈ family.functions)
  keys : ∀ key, key ∈ spec.forges.map Prod.fst ↔ ∃ call ∈ spec.aggregations, call.key = key
  /-- There is one forge for each family in use. -/
  families : (spec.forges.map Prod.fst).Perm ((families.filter spec.uses).map .ofFamily)

/-- The call sites are those of a statement, the forges that were made are those of a spec, each
for its family, and all forges serve. -/
structure Furnished (services : Services) (families : List FunctionFamily) (spec : StatementSpec)
    (made : List (FunctionFamily × Forge)) (sites : List CallSite) : Prop where
  forges : spec.forges = made.map (fun entry => (.ofFamily entry.1, entry.2))
  calls : spec.aggregations.map (fun call => (call.function, call.key)) =
    sites.map (fun site => (site.node.name, site.key))
  known : ∀ site ∈ sites, services.family? site.node.name = some site.family ∧
    site.key = .ofFamily site.family
  served : ∀ site ∈ sites, spec.forges.lookup site.key = some site.forge
  covered : ∀ entry ∈ made, ∃ site ∈ sites, site.family = entry.1
  distinct : (spec.forges.map Prod.fst).Nodup
  numbers : (made.map (fun entry => entry.2.identity)).Nodup

namespace Furnished

variable {services : Services} {families : List FunctionFamily} {spec : StatementSpec}
  {made : List (FunctionFamily × Forge)} {sites : List CallSite}
  (serves : services.Serves families) (furnished : Furnished services families spec made sites)

include furnished

theorem keys_eq : spec.forges.map Prod.fst = (made.map Prod.fst).map .ofFamily := by
  rw [furnished.forges, List.map_map, List.map_map]
  rfl

theorem nodup_families : (made.map Prod.fst).Nodup := by
  have distinct := furnished.distinct
  rw [furnished.keys_eq] at distinct
  exact distinct.of_map

theorem exists_call {site : CallSite} (member : site ∈ sites) :
    ∃ call ∈ spec.aggregations, call.function = site.node.name ∧ call.key = site.key := by
  have listed : (site.node.name, site.key) ∈
      spec.aggregations.map (fun call => (call.function, call.key)) := by
    rw [furnished.calls]
    exact List.mem_map_of_mem member
  obtain ⟨call, inside, same⟩ := List.mem_map.mp listed
  exact ⟨call, inside, congrArg Prod.fst same, congrArg Prod.snd same⟩

theorem exists_site {call : CompiledAggregation} (member : call ∈ spec.aggregations) :
    ∃ site ∈ sites, site.node.name = call.function ∧ site.key = call.key := by
  have listed : (call.function, call.key) ∈
      sites.map (fun site => (site.node.name, site.key)) := by
    rw [← furnished.calls]
    exact List.mem_map_of_mem member
  obtain ⟨site, inside, same⟩ := List.mem_map.mp listed
  exact ⟨site, inside, congrArg Prod.fst same, congrArg Prod.snd same⟩

theorem mem_keys_iff {key : AggregationKey} :
    key ∈ spec.forges.map Prod.fst ↔ ∃ call ∈ spec.aggregations, call.key = key := by
  constructor
  · intro member
    rw [furnished.forges, List.map_map] at member
    obtain ⟨entry, inside, same⟩ := List.mem_map.mp member
    obtain ⟨site, isSite, familyIs⟩ := furnished.covered entry inside
    obtain ⟨call, isCall, _, keyed⟩ := furnished.exists_call isSite
    refine ⟨call, isCall, ?_⟩
    rw [keyed, (furnished.known site isSite).2, familyIs]
    exact same
  · intro called
    obtain ⟨call, isCall, keyed⟩ := called
    obtain ⟨site, isSite, _, same⟩ := furnished.exists_site isCall
    have listed := Entries.mem_of_lookup (furnished.served site isSite)
    rw [← keyed, ← same]
    exact List.mem_map_of_mem listed

include serves

theorem mem_of_covered {entry : FunctionFamily × Forge} (member : entry ∈ made) :
    entry.1 ∈ families := by
  obtain ⟨site, inside, same⟩ := furnished.covered entry member
  rw [← same]
  exact (serves.listed _ _ (furnished.known site inside).1).1

theorem own {site : CallSite} (member : site ∈ sites) : (site.family, site.forge) ∈ made := by
  obtain ⟨registered, keyed⟩ := furnished.known site member
  have listed := Entries.mem_of_lookup (furnished.served site member)
  rw [furnished.forges] at listed
  obtain ⟨entry, inside, same⟩ := List.mem_map.mp listed
  have sameKey : AggregationKey.ofFamily entry.1 = site.key := congrArg Prod.fst same
  have sameForge : entry.2 = site.forge := congrArg Prod.snd same
  have sameFamily := serves.eq_of_key_eq registered (furnished.mem_of_covered serves inside)
    (keyed.symm.trans sameKey.symm)
  rw [sameFamily, ← sameForge]
  exact inside

/-- Two call sites have one forge exactly if they have one family. -/
theorem identity_eq_iff {first second : CallSite} (member : first ∈ sites)
    (otherMember : second ∈ sites) :
    first.forge.identity = second.forge.identity ↔ first.family = second.family := by
  have own := furnished.own serves member
  have otherOwn := furnished.own serves otherMember
  constructor
  · intro same
    have entries := List.inj_on_of_nodup_map furnished.numbers own otherOwn same
    exact congrArg Prod.fst entries
  · intro same
    have entries := List.inj_on_of_nodup_map furnished.nodup_families own otherOwn same
    exact congrArg (fun entry => entry.2.identity) entries

theorem mem_families_iff {family : FunctionFamily} :
    family ∈ made.map Prod.fst ↔ family ∈ families.filter spec.uses := by
  unfold StatementSpec.uses
  simp only [List.mem_filter, List.any_eq_true, List.contains_iff_mem]
  constructor
  · intro member
    obtain ⟨entry, inside, same⟩ := List.mem_map.mp member
    obtain ⟨site, isSite, familyIs⟩ := furnished.covered entry inside
    obtain ⟨inFamilies, named⟩ := serves.listed _ _ (furnished.known site isSite).1
    obtain ⟨call, isCall, called, _⟩ := furnished.exists_call isSite
    rw [← same, ← familyIs]
    refine ⟨inFamilies, call, isCall, ?_⟩
    rw [called]
    exact named
  · intro used
    obtain ⟨inFamilies, call, isCall, named⟩ := used
    obtain ⟨site, isSite, called, _⟩ := furnished.exists_site isCall
    rw [← called] at named
    have registered := serves.found family inFamilies _ named
    have sameFamily := Option.some.inj ((furnished.known site isSite).1.symm.trans registered)
    rw [← sameFamily]
    exact List.mem_map_of_mem (furnished.own serves isSite)

theorem families_perm : (made.map Prod.fst).Perm (families.filter spec.uses) := by
  have named : ∀ family ∈ families, spec.uses family = true → family.functions ≠ [] := by
    intro family _ used none
    unfold StatementSpec.uses at used
    rw [none] at used
    simp at used
  rw [List.perm_ext_iff_of_nodup furnished.nodup_families (serves.nodup_filter named)]
  intro family
  exact furnished.mem_families_iff serves

theorem follows : spec.Follows families sites where
  calls := furnished.calls
  served := furnished.served
  shared := by
    intro first member second otherMember
    rw [furnished.identity_eq_iff serves member otherMember]
    exact serves.together_iff (furnished.known first member).1
      (furnished.known second otherMember).1
  keys := fun _ => furnished.mem_keys_iff
  families := by
    rw [furnished.keys_eq]
    exact (furnished.families_perm serves).map _

end Furnished

theorem Progress.Develops.furnished {services : Services} {families : List FunctionFamily}
    {frame : Frame} {before between after : Progress} {statement : Statement}
    {clauses : ResolvedClauses} {bare : StatementSpec}
    (developed : before.Develops services families between)
    (noForges : before.symbols.registeredForges = []) (noSites : before.calls.sites = [])
    (noSubqueries : before.subqueries = [])
    (run : Yields (frame.conclude statement clauses) between bare after) :
    ∃ made, Furnished services families (after.symbols.foldInto bare) made after.calls.sites ∧
      before.Furnishes services families between made after.calls.sites
        (after.symbols.foldInto bare).subqueries := by
  obtain ⟨made, added, inner, furnishes, covered⟩ := developed
  obtain ⟨forges, subqueries, calls⟩ := spec_of_conclude run
  obtain ⟨handlers, passes⟩ := passes_of_conclude run
  obtain ⟨_, sites, _, _⟩ := yields_runAggregations passes
  have gathered := furnishes.forges
  rw [noForges, List.nil_append] at gathered
  have whole := furnishes.sites
  rw [noSites, List.nil_append] at whole
  have nested := furnishes.subqueries
  rw [noSubqueries, List.nil_append] at nested
  rw [sites, subqueries, whole, nested]
  refine ⟨made, ?_, furnishes⟩
  exact {
    forges := forges.trans gathered
    calls := by
      rw [calls, whole]
    known := by
      intro site member
      obtain ⟨registered, keyed, _⟩ := furnishes.served site member
      exact ⟨registered, keyed⟩
    served := by
      intro site member
      rw [forges]
      exact (furnishes.served site member).2.2
    covered := covered
    distinct := by
      rw [forges]
      apply furnishes.distinct
      unfold SymbolContext.keys
      rw [noForges]
      exact List.nodup_nil
    numbers := by
      have unique := furnishes.numbers.nodup_iff.mpr List.nodup_range'
      exact unique.of_append_left }

theorem Progress.Develops.concludes {services : Services} {families : List FunctionFamily}
    {frame : Frame} {before between after : Progress} {statement : Statement}
    {clauses : ResolvedClauses} {bare : StatementSpec} (serves : services.Serves families)
    (developed : before.Develops services families between)
    (noForges : before.symbols.registeredForges = []) (noSites : before.calls.sites = [])
    (noSubqueries : before.subqueries = [])
    (run : Yields (frame.conclude statement clauses) between bare after) :
    before.memory.Furnishes families after.memory (after.symbols.foldInto bare) := by
  obtain ⟨made, furnished, furnishes⟩ := developed.furnished noForges noSites noSubqueries run
  obtain ⟨handlers, passes⟩ := passes_of_conclude run
  obtain ⟨late, told, unasked⟩ := unasked_of_runAggregations passes
  have next : after.memory.workshop.nextIdentity = between.memory.workshop.nextIdentity := by
    rw [told]
    rfl
  have trace : after.memory.workshop.trace = between.memory.workshop.trace ++ late := by
    rw [told]
    rfl
  exact {
    trace := by
      obtain ⟨entries, early, asked⟩ := furnishes.trace
      refine ⟨entries ++ late, ?_, ?_⟩
      · rw [trace, early, List.append_assoc]
      · rw [requests_append, unasked, List.append_nil, StatementSpec.used_eq]
        exact asked.trans ((furnished.families_perm serves).append_right _)
    grown := by
      rw [next]
      exact furnishes.grown
    numbers := by
      have own : (after.symbols.foldInto bare).forges.map (fun entry => entry.2.identity) =
          made.map (fun entry => entry.2.identity) := by
        rw [furnished.forges, List.map_map]
        rfl
      rw [next, StatementSpec.identities_eq, own]
      exact furnishes.numbers }

end EventQuery
