import EventQuery.Proofs.Sharing.Forges

set_option autoImplicit false

/-! Whatever is compiled, its forges follow the families. By induction on the rules every
resolution develops its statement, and every statement, once it is concluded, leaves the account
by which its subquery develops the statement around it. -/

namespace EventQuery

open Resolution

mutual

theorem Resolves.develops {frame : Frame} {families : List FunctionFamily} {scope : Scope}
    {expression : Expression} {tree : Resolved} {before after : Progress}
    (serves : frame.services.Serves families) :
    Resolves frame scope expression before tree after →
      before.Develops frame.services families after
  | .constant => .of_quiet rfl rfl rfl rfl
  | .property run => .of_local (frame.local_resolveProperty scope _) run
      (Frame.undisturbed_of_resolveProperty run).subqueries
  | .wildcard run => .of_local (frame.local_resolveWildcard scope _ _) run (by
      rw [(Frame.yields_resolveWildcard run).1])
  | .substitution run => .of_local (frame.local_resolveSubstitution _) run (by
      obtain ⟨_, _, same⟩ := Frame.yields_resolveSubstitution run
      rw [same])
  | .prior run => .of_local (frame.local_resolvePrior scope _ _ _) run
      (Frame.undisturbed_of_resolvePrior run).subqueries
  | .table _ _ given _ _ => (given.develops serves).trans (.of_quiet rfl rfl rfl rfl)
  | .declared _ _ _ given inner => (given.develops serves).trans (inner.develops serves)
  | .script _ _ given => given.develops serves
  | .aggregation _ _ known _ _ _ created given _ added =>
      .of_aggregation known created (given.develops serves) added
  | .subquery _ derived => .of_subquery (derived.furnishes serves rfl)
  | .math left right => (left.develops serves).trans (right.develops serves)
  | .compare left right => (left.develops serves).trans (right.develops serves)
  | .and left right => (left.develops serves).trans (right.develops serves)
  | .or left right => (left.develops serves).trans (right.develops serves)
  | .not inner => inner.develops serves

theorem ResolvesAll.develops {frame : Frame} {families : List FunctionFamily}
    {items : List (Scope × Expression)} {trees : List Resolved} {before after : Progress}
    (serves : frame.services.Serves families) :
    ResolvesAll frame items before trees after → before.Develops frame.services families after
  | .nil => .of_quiet rfl rfl rfl rfl
  | .cons head tail => (head.develops serves).trans (tail.develops serves)

theorem Compiles.furnishes {services : Services} {families : List FunctionFamily}
    {order : Nat → List Nat} {isSubquery : Bool} {statement : Statement}
    {symbols : SymbolContext} {memory : CompilerMemory} {bare : StatementSpec} {finish : Progress}
    (serves : services.Serves families) (noForges : symbols.registeredForges = []) :
    Compiles services order isSubquery statement symbols memory bare finish →
      memory.Furnishes families finish.memory (finish.symbols.foldInto bare)
  | .intro _ given _ concluded =>
      (given.develops serves).concludes serves
        ((symbols.registeredForges_opened statement).trans noForges) rfl rfl concluded

end

theorem Compiles.follows {services : Services} {families : List FunctionFamily}
    {order : Nat → List Nat} {isSubquery : Bool} {statement : Statement}
    {symbols : SymbolContext} {memory : CompilerMemory} {bare : StatementSpec} {finish : Progress}
    (serves : services.Serves families) (noForges : symbols.registeredForges = [])
    (derived : Compiles services order isSubquery statement symbols memory bare finish) :
    (finish.symbols.foldInto bare).Follows families finish.calls.sites := by
  obtain ⟨_, given, _, concluded⟩ := derived
  have empty := (symbols.registeredForges_opened statement).trans noForges
  obtain ⟨made, furnished, _⟩ := (given.develops serves).furnished empty rfl rfl concluded
  exact furnished.follows serves

namespace StatementSpec

/-- A statement or a subquery was compiled to the spec, with these call sites. -/
def CompiledFrom (services : Services) (sites : List CallSite) (spec : StatementSpec) : Prop :=
  ∃ order isSubquery statement memory bare finish,
    Compiles services order isSubquery statement .empty memory bare finish ∧
      spec = finish.symbols.foldInto bare ∧ sites = finish.calls.sites

variable {services : Services} {spec part : StatementSpec} {sites : List CallSite}

theorem CompiledFrom.within (compiled : spec.CompiledFrom services sites)
    (within : part.Within spec) : ∃ own, part.CompiledFrom services own := by
  induction within generalizing sites with
  | self => exact ⟨sites, compiled⟩
  | @subquery middle spec member _ ih =>
      obtain ⟨order, isSubquery, statement, memory, bare, finish, derived, folded, _⟩ := compiled
      rw [folded] at member
      have each := derived.subqueries (fun inner => ∃ own, inner.CompiledFrom services own) (by
        intro statement memory spec inner nested
        exact ⟨_, order, true, statement, memory, spec, inner, nested, rfl, rfl⟩)
      obtain ⟨own, inner⟩ := each middle member
      exact ih inner

theorem CompiledFrom.follows {families : List FunctionFamily} (serves : services.Serves families)
    (compiled : spec.CompiledFrom services sites) : spec.Follows families sites := by
  obtain ⟨order, isSubquery, statement, memory, bare, finish, derived, folded, same⟩ := compiled
  rw [folded, same]
  exact derived.follows serves rfl

end StatementSpec

/-- A family that is refused changes nothing. In a compiled statement and in each of its
subqueries the call sites share their forges as the families have it, under the keys that the
calls have. The factories were asked for exactly the families in use, for each statement and
subquery once, and no forge is in two of them. -/
theorem Services.Configured.forges_follow_families {services : Services}
    {families : List FunctionFamily} {order : Nat → List Nat} {statement : Statement}
    {memory : CompilerMemory} {spec : StatementSpec} (configured : services.Configured families)
    (compiled : (services.compile order statement memory).result = .ok spec) :
    (∀ family failure, services.addFamily family = .error failure →
      services.afterFamily family = services) ∧
    (∀ part ∈ spec.parts, (∃ sites, part.CompiledFrom services sites) ∧
      ∀ sites, part.CompiledFrom services sites → part.Follows families sites) ∧
    (∃ entries, (services.compile order statement memory).memory.workshop.trace =
        memory.workshop.trace ++ entries ∧ (requests entries).Perm (spec.used families)) ∧
    spec.identities.Nodup := by
  have serves := configured.serves
  obtain ⟨bare, finish, derived, folded, remembered⟩ := compiles_remembering compiled
  have furnished := derived.furnishes serves rfl
  rw [← folded] at furnished
  refine ⟨?_, ?_, ?_, ?_⟩
  · intro family failure refused
    exact Services.afterFamily_of_error refused
  · intro part member
    have whole : spec.CompiledFrom services finish.calls.sites :=
      ⟨order, false, statement, memory, bare, finish, derived, folded, rfl⟩
    constructor
    · exact whole.within (StatementSpec.within_of_mem_parts spec member)
    · intro sites own
      exact own.follows serves
  · unfold Services.compile
    rw [remembered]
    exact furnished.trace
  · exact furnished.numbers.nodup_iff.mpr List.nodup_range'

def countingFamily : FunctionFamily := ⟨["count", "total"], "rec", []⟩

def leastFamily : FunctionFamily := ⟨["least"], "rec", []⟩

def countingServices : Services :=
  (Services.initial.addFactory "rec" Recording.factory).afterFamily countingFamily

/-- Services with two families that were added; one of a name that was in use was refused. -/
def sharingServices : Services :=
  (countingServices.afterFamily ⟨["mean", "total"], "rec", []⟩).afterFamily leastFamily

/-- Two calls of one family, one of another, and a subquery with a call of the first family. -/
def sharingStatement : Statement :=
  let call (name : String) : Expression := .call ⟨none, name, false, [.constant none (.bool true)]⟩
  let columns : List Expression := [call "count", call "least", call "total",
    .subquery none (.selecting "inner" (call "count"))]
  ⟨"s", none, none, [], [], columns.map (fun column => ⟨column, none⟩), [], none, [], none⟩

theorem configured_sharingServices :
    sharingServices.Configured [Collect.family, countingFamily, leastFamily] := by
  have started : (Services.initial.addFactory "rec" Recording.factory).Configured
      [Collect.family] := .other .initial rfl
  have counting : countingServices.Configured [Collect.family, countingFamily] :=
    started.accepted rfl
  have kept : (countingServices.afterFamily ⟨["mean", "total"], "rec", []⟩).Configured
      [Collect.family, countingFamily] := counting.refused rfl
  exact kept.accepted rfl

theorem forges_sharingStatement :
    sharingServices.Configured [Collect.family, countingFamily, leastFamily] ∧
    ∃ spec, (sharingServices.compile List.range sharingStatement .empty).result = .ok spec ∧
      spec.aggregations.length = 3 ∧ spec.forges.length = 2 ∧ spec.subqueries.length = 1 ∧
      (∀ family failure, sharingServices.addFamily family = .error failure →
        sharingServices.afterFamily family = sharingServices) ∧
      (∀ part ∈ spec.parts, (∃ sites, part.CompiledFrom sharingServices sites) ∧
        ∀ sites, part.CompiledFrom sharingServices sites →
          part.Follows [Collect.family, countingFamily, leastFamily] sites) ∧
      (∃ entries, (sharingServices.compile List.range sharingStatement
          .empty).memory.workshop.trace = CompilerMemory.empty.workshop.trace ++ entries ∧
        (requests entries).Perm (spec.used [Collect.family, countingFamily, leastFamily])) ∧
      spec.identities.Nodup := by
  have counts : (sharingServices.compile List.range sharingStatement .empty).result.toOption.map
      (fun spec => (spec.aggregations.length, spec.forges.length, spec.subqueries.length)) =
        some (3, 2, 1) := by
    decide +kernel
  refine ⟨configured_sharingServices, ?_⟩
  cases compiled : (sharingServices.compile List.range sharingStatement .empty).result with
  | error failure =>
      rw [compiled] at counts
      cases counts
  | ok spec =>
      rw [compiled] at counts
      obtain ⟨calls, others⟩ := Prod.mk.inj (Option.some.inj counts)
      obtain ⟨forges, subqueries⟩ := Prod.mk.inj others
      exact ⟨spec, rfl, calls, forges, subqueries,
        configured_sharingServices.forges_follow_families compiled⟩

end EventQuery
