import EventQuery.Proofs.Resolution.Local
import EventQuery.Proofs.Sharing.Slots
import EventQuery.Proofs.Specification.Clauses

set_option autoImplicit false

/-! Where the handlers of a spec come from. The forge of a call site is the one that is registered
under its key, and its answer is the handler of the call. -/

namespace EventQuery

open Resolution

/-- The forge of the call site may answer with the handler. -/
def CallSite.Answers (site : CallSite) (handler : Handler) : Prop :=
  ∃ history validation, site.forge.behaviour.validate history validation = .ok handler

namespace CallSites

variable {statement : String} {order : List Nat} {streams : List EventType} {registry : Registry}
  {workshop workshop' : Workshop}

theorem answers_of_validateVisits {sites : List CallSite} {handlers : List (Nat × Handler)}
    (validated : validateVisits sites statement streams registry order workshop =
      (.ok handlers, workshop')) :
    ∀ entry ∈ handlers, ∃ site, sites[entry.1]? = some site ∧ site.Answers entry.2 := by
  induction order generalizing workshop handlers with
  | nil =>
      cases validated
      exact List.forall_mem_nil _
  | cons index order ih =>
      unfold validateVisits at validated
      split at validated
      · rename_i site found
        unfold Workshop.validate at validated
        split at validated
        · cases validated
        · rename_i answered
          have answer := congrArg Prod.fst answered
          split at validated
          · rename_i visited
            cases validated
            exact List.forall_mem_cons.mpr ⟨⟨site, found, _, _, answer⟩, ih visited⟩
          · cases validated
      · exact ih validated

theorem answers_of_validate {calls calls' : CallSites} {handlers : List Handler}
    (validated : calls.validate workshop statement order streams registry =
      (.ok handlers, calls', workshop')) :
    ∀ pair ∈ calls.sites.zip handlers, pair.1.Answers pair.2 := by
  obtain ⟨found, visited, whole⟩ := found_of_validate validated
  intro pair member
  obtain ⟨index, place⟩ := List.mem_iff_getElem?.mp member
  obtain ⟨present, given⟩ := List.getElem?_zip_eq_some.mp place
  have answered := congrArg (fun answers => answers[index]?) whole
  have below : index < calls.sites.length := (List.getElem?_eq_some_iff.mp present).1
  simp only [List.getElem?_map, given, naturalOrder, List.getElem?_range below, Option.map_some,
    Option.some.injEq] at answered
  obtain ⟨site, isSite, answers⟩ := answers_of_validateVisits visited (index, pair.2)
    (Entries.mem_of_lookup answered.symm)
  rw [present] at isSite
  rwa [Option.some.inj isSite]

end CallSites

theorem answers_of_runAggregations {frame : Frame} {before after : Progress}
    {handlers : List Handler} (run : Yields (runAggregations frame) before handlers after) :
    ∀ pair ∈ before.calls.sites.zip handlers, pair.1.Answers pair.2 := by
  obtain ⟨calls, told, finished, finish, declared, validated, _⟩ :=
    yields_runAggregations_iff.mp run
  rw [← CallSites.sites_of_declare declared]
  exact CallSites.answers_of_validate validated

/-- Every call site is served by the forge that is registered under its key. -/
def Progress.Staffed (progress : Progress) : Prop :=
  ∀ site ∈ progress.calls.sites, progress.symbols.forge? site.key = some site.forge

namespace Progress.Staffed

variable {before after : Progress}

theorem of_extends (staffed : before.Staffed) (extended : before.Extends after)
    (calls : after.calls = before.calls) : after.Staffed := by
  intro site member
  rw [calls] at member
  exact extended.forges _ _ (staffed site member)

theorem of_local {action : Resolution Resolved} {tree : Resolved} (staffed : before.Staffed)
    (apart : Local action) (run : Yields action before tree after)
    (extended : before.Extends after) : after.Staffed := by
  obtain ⟨calls, _⟩ := apart.kept before
  unfold Yields at run
  rw [run] at calls
  exact staffed.of_extends extended calls

theorem of_add (staffed : before.Staffed) {site : CallSite} {index : Nat} {calls : CallSites}
    (registered : before.symbols.forge? site.key = some site.forge)
    (added : before.calls.add site = .ok (index, calls)) :
    Staffed { before with calls := calls } := by
  intro other member
  dsimp only at member ⊢
  rw [(CallSites.sites_of_add added).2] at member
  rcases List.mem_append.mp member with old | new
  · exact staffed other old
  · rwa [List.mem_singleton.mp new]

end Progress.Staffed

mutual

theorem Resolves.staffed {frame : Frame} {scope : Scope} {expression : Expression}
    {tree : Resolved} {before after : Progress} :
    Resolves frame scope expression before tree after → before.Staffed → after.Staffed
  | .constant, staffed => staffed
  | .property run, staffed =>
      staffed.of_local (frame.local_resolveProperty _ _) run (Frame.extends_of_resolveProperty run)
  | .wildcard run, staffed => by rwa [(Frame.yields_resolveWildcard run).1]
  | .substitution run, staffed =>
      staffed.of_local (frame.local_resolveSubstitution _) run
        (Frame.extends_of_resolveSubstitution run)
  | .prior run, staffed =>
      staffed.of_local (frame.local_resolvePrior _ _ _ _) run (Frame.extends_of_resolvePrior run)
  | .table _ _ given _ _, staffed => given.staffed staffed
  | .declared _ _ _ given inner, staffed => inner.staffed (given.staffed staffed)
  | .script _ _ given, staffed => given.staffed staffed
  | .aggregation _ _ _ _ _ _ created given _ added, staffed => by
      have ready := staffed.of_extends (Frame.extends_of_resolveForge created)
        (Frame.undisturbed_of_resolveForge created).calls
      have registered := given.extends.forges _ _ (Frame.registered_of_resolveForge created)
      exact (given.staffed ready).of_add registered added
  | .subquery _ _, staffed => staffed
  | .math left right, staffed => right.staffed (left.staffed staffed)
  | .compare left right, staffed => right.staffed (left.staffed staffed)
  | .and left right, staffed => right.staffed (left.staffed staffed)
  | .or left right, staffed => right.staffed (left.staffed staffed)
  | .not inner, staffed => inner.staffed staffed

theorem ResolvesAll.staffed {frame : Frame} {items : List (Scope × Expression)}
    {trees : List Resolved} {before after : Progress} :
    ResolvesAll frame items before trees after → before.Staffed → after.Staffed
  | .nil, staffed => staffed
  | .cons head tail, staffed => tail.staffed (head.staffed staffed)

end

/-- The calls of a statement are its call sites, each with the answer of the forge that is
registered for it. -/
theorem Compiles.assigned {services : Services} {order : Nat → List Nat} {isSubquery : Bool}
    {statement : Statement} {symbols : SymbolContext} {memory : CompilerMemory}
    {bare : StatementSpec} {finish : Progress}
    (derived : Compiles services order isSubquery statement symbols memory bare finish) :
    ∃ pairs, assignSlots [] pairs = (bare.aggregations, bare.states) ∧
      ∀ pair ∈ pairs, finish.symbols.forge? pair.1.key = some pair.1.forge ∧
        pair.1.Answers pair.2 := by
  obtain ⟨_, given, _, concluded⟩ := derived
  obtain ⟨handlers, typed, passes, _, rfl⟩ := yields_conclude_iff.mp concluded
  obtain ⟨_, sites, symbols, _⟩ := yields_runAggregations passes
  have staffed := given.staffed (List.forall_mem_nil _)
  rw [sites, symbols]
  refine ⟨_, rfl, ?_⟩
  intro pair member
  exact ⟨staffed pair.1 (List.of_mem_zip member).1, answers_of_runAggregations passes pair member⟩

namespace StatementSpec

variable {services : Services} {spec : StatementSpec} {call : CompiledAggregation}

def Answered (spec : StatementSpec) (call : CompiledAggregation) : Prop :=
  ∃ forge history validation, spec.forges.lookup call.key = some forge ∧
    forge.behaviour.validate history validation = .ok call.handler

theorem CompiledWith.assigned (compiled : spec.CompiledWith services) :
    ∃ pairs, assignSlots [] pairs = (spec.aggregations, spec.states) ∧
      ∀ pair ∈ pairs, spec.forges.lookup pair.1.key = some pair.1.forge ∧
        pair.1.Answers pair.2 := by
  obtain ⟨_, _, _, _, _, _, _, derived, rfl⟩ := compiled
  exact derived.assigned

theorem CompiledWith.answered (compiled : spec.CompiledWith services)
    (member : call ∈ spec.aggregations) : spec.Answered call := by
  obtain ⟨pairs, assigned, served⟩ := compiled.assigned
  have calls : (assignSlots [] pairs).1 = spec.aggregations := congrArg Prod.fst assigned
  have same := assignSlots_calls [] pairs (fun _ key handler => (key, handler))
  rw [calls] at same
  have listed : (call.key, call.handler) ∈
      pairs.map (fun pair => (pair.1.key, pair.2)) := by
    rw [← same]
    exact List.mem_map_of_mem member
  obtain ⟨pair, inside, own⟩ := List.mem_map.mp listed
  obtain ⟨key, handler⟩ := Prod.mk.inj own
  obtain ⟨registered, history, validation, answer⟩ := served pair inside
  rw [key] at registered
  rw [handler] at answer
  exact ⟨_, history, validation, registered, answer⟩

theorem CompiledWith.made (compiled : spec.CompiledWith services) {state : StateSlot}
    (member : state ∈ spec.states) :
    ∃ call ∈ spec.aggregations, state = ⟨call.handler.stateKey, call.handler.seed⟩ := by
  obtain ⟨pairs, assigned, _⟩ := compiled.assigned
  have made := assignSlots_made [] pairs
  rw [assigned] at made
  rcases made state member with none | call
  · cases none
  · exact call

end StatementSpec

end EventQuery
