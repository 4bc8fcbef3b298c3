import EventQuery.Aggregation.Key
import EventQuery.Services
import Mathlib.Data.List.Pairwise

set_option autoImplicit false

/-! Families that were added one after the other. No function name is in two of them, so a
function name tells its family, and so does the key of a family that has any function. -/

namespace EventQuery

namespace AggregationKey

theorem mem_insertName_iff {name other : String} {names : List String} :
    other ∈ insertName name names ↔ other = name ∨ other ∈ names := by
  induction names with
  | nil => rw [insertName, List.mem_cons]
  | cons first rest ih =>
      unfold insertName
      by_cases before : name < first
      · rw [if_pos before, List.mem_cons]
      · rw [if_neg before]
        by_cases same : name = first
        · subst same
          rw [if_pos rfl, List.mem_cons]
          constructor
          · exact .inr
          · intro either
            rcases either with equal | member
            · exact .inl equal
            · exact member
        · rw [if_neg same, List.mem_cons, ih, List.mem_cons, or_left_comm]

theorem mem_nameSet_iff {name : String} {names : List String} :
    name ∈ nameSet names ↔ name ∈ names := by
  induction names with
  | nil => exact Iff.rfl
  | cons first rest ih =>
      have unfolded : nameSet (first :: rest) = insertName first (nameSet rest) := rfl
      rw [unfolded, mem_insertName_iff, ih, List.mem_cons]

theorem mem_functions_of_ofFamily_eq {first second : FunctionFamily}
    (same : ofFamily first = ofFamily second) {name : String} (member : name ∈ first.functions) :
    name ∈ second.functions := by
  have signatures : nameSet first.functions = nameSet second.functions :=
    congrArg AggregationKey.signature same
  rw [← mem_nameSet_iff, ← signatures, mem_nameSet_iff]
  exact member

end AggregationKey

namespace Services

def mapping (services : Services) (family : FunctionFamily) (names : List String) : Services :=
  { services with
    functions := names.foldl (fun functions name => Entries.put functions name family)
      services.functions }

def afterFamily (services : Services) (family : FunctionFamily) : Services :=
  ((enterFamily family).run services).2

section

variable (services : Services) (family : FunctionFamily) (names : List String)

theorem run_checkFree_cons (name : String) :
    (checkFree (name :: names)).run services =
      if (services.family? name).isSome then (.error (.duplicateFunction name), services)
      else (checkFree names).run services := by
  have first : (checkFree (name :: names)).run services =
      ExceptT.bindCont (fun _ => checkFree names)
        (ExceptT.run (if (services.family? name).isSome then throw (.duplicateFunction name)
          else pure () : Operation Unit) services).1
        (ExceptT.run (if (services.family? name).isSome then throw (.duplicateFunction name)
          else pure () : Operation Unit) services).2 := rfl
  by_cases used : (services.family? name).isSome = true
  · rw [first, if_pos used, if_pos used]
    rfl
  · rw [first, if_neg used, if_neg used]
    rfl

theorem run_checkFree :
    (∃ failure, (checkFree names).run services = (.error failure, services)) ∨
      (∀ name ∈ names, services.family? name = none) ∧
        (checkFree names).run services = (.ok (), services) := by
  induction names with
  | nil => exact .inr ⟨List.forall_mem_nil _, rfl⟩
  | cons name rest ih =>
      rw [run_checkFree_cons]
      by_cases used : (services.family? name).isSome = true
      · rw [if_pos used]
        exact .inl ⟨_, rfl⟩
      · rw [if_neg used]
        have free : services.family? name = none := by simpa using used
        apply ih.imp_right
        intro accepted
        exact ⟨List.forall_mem_cons.mpr ⟨free, accepted.1⟩, accepted.2⟩

theorem run_mapFunctions :
    (mapFunctions family names).run services = (.ok (), services.mapping family names) := by
  induction names generalizing services with
  | nil => rfl
  | cons name rest ih => exact ih _

/-- A family is refused and nothing is changed, or its names were free and are mapped onto it. -/
theorem addFamily_cases :
    (∃ failure, services.addFamily family = .error failure ∧
      services.afterFamily family = services) ∨
    (∀ name ∈ family.functions, services.family? name = none) ∧
      services.addFamily family = .ok (services.mapping family family.functions) ∧
      services.afterFamily family = services.mapping family family.functions := by
  have whole : (enterFamily family).run services =
      ExceptT.bindCont (fun _ => mapFunctions family family.functions)
        ((checkFree family.functions).run services).1
        ((checkFree family.functions).run services).2 := rfl
  unfold addFamily afterFamily
  rcases services.run_checkFree family.functions with refused | accepted
  · obtain ⟨failure, checked⟩ := refused
    rw [whole, checked]
    exact .inl ⟨failure, rfl, rfl⟩
  · obtain ⟨free, checked⟩ := accepted
    rw [checked] at whole
    rw [whole.trans (services.run_mapFunctions family family.functions)]
    exact .inr ⟨free, rfl, rfl⟩

end

/-- The services are reached by calls that add families, and these are the families that were
accepted. Whatever else is registered in between is left open. -/
inductive Configured : Services → List FunctionFamily → Prop
  | initial : Configured .initial [Collect.family]
  | accepted {services later : Services} {families : List FunctionFamily}
      {family : FunctionFamily} : Configured services families →
      services.addFamily family = .ok later →
      Configured (services.afterFamily family) (families ++ [family])
  | refused {services : Services} {families : List FunctionFamily} {family : FunctionFamily}
      {failure : ConfigurationError} : Configured services families →
      services.addFamily family = .error failure →
      Configured (services.afterFamily family) families
  | other {services later : Services} {families : List FunctionFamily} :
      Configured services families → later.functions = services.functions →
      Configured later families

/-- The functions of the services are those of the families, and no two families share one. -/
structure Serves (services : Services) (families : List FunctionFamily) : Prop where
  listed : ∀ name family, services.family? name = some family →
    family ∈ families ∧ name ∈ family.functions
  found : ∀ family ∈ families, ∀ name ∈ family.functions, services.family? name = some family
  apart : families.Pairwise (fun first second => ∀ name ∈ first.functions, name ∉ second.functions)

variable {services later : Services} {families : List FunctionFamily} {family : FunctionFamily}

theorem afterFamily_of_error {failure : ConfigurationError}
    (refused : services.addFamily family = .error failure) :
    services.afterFamily family = services := by
  rcases services.addFamily_cases family with unchanged | accepted
  · obtain ⟨_, _, same⟩ := unchanged
    exact same
  · cases refused.symm.trans accepted.2.1

theorem mapping_of_addFamily (added : services.addFamily family = .ok later) :
    (∀ name ∈ family.functions, services.family? name = none) ∧
      later = services.mapping family family.functions ∧ services.afterFamily family = later := by
  rcases services.addFamily_cases family with refused | accepted
  · obtain ⟨_, failed, _⟩ := refused
    cases failed.symm.trans added
  · obtain ⟨free, mapped, after⟩ := accepted
    obtain rfl := Except.ok.inj (added.symm.trans mapped)
    exact ⟨free, rfl, after⟩

theorem lookup_putAll (functions : List (String × FunctionFamily)) (family : FunctionFamily)
    (names : List String) (name : String) :
    (names.foldl (fun functions name => Entries.put functions name family) functions).lookup name =
      if name ∈ names then some family else functions.lookup name := by
  induction names generalizing functions with
  | nil => rfl
  | cons first rest ih =>
      rw [List.foldl_cons, ih]
      by_cases inRest : name ∈ rest
      · rw [if_pos inRest, if_pos (List.mem_cons_of_mem _ inRest)]
      · rw [if_neg inRest]
        by_cases same : name = first
        · subst same
          rw [Entries.lookup_put_self, if_pos List.mem_cons_self]
        · have absent : name ∉ first :: rest := by
            intro member
            exact (List.mem_cons.mp member).elim same inRest
          rw [Entries.lookup_put_of_ne _ _ same, if_neg absent]

theorem family?_of_addFamily (added : services.addFamily family = .ok later) :
    (∀ name ∈ family.functions, services.family? name = none) ∧
      ∀ name, later.family? name =
        if name ∈ family.functions then some family else services.family? name := by
  obtain ⟨free, mapped, _⟩ := mapping_of_addFamily added
  subst mapped
  exact ⟨free, lookup_putAll services.functions family family.functions⟩

theorem Serves.add (serves : services.Serves families)
    (added : services.addFamily family = .ok later) : later.Serves (families ++ [family]) := by
  obtain ⟨free, lookups⟩ := family?_of_addFamily added
  refine ⟨?_, ?_, ?_⟩
  · intro name known registered
    rw [lookups] at registered
    by_cases own : name ∈ family.functions
    · rw [if_pos own] at registered
      cases registered
      exact ⟨List.mem_append_right _ List.mem_cons_self, own⟩
    · rw [if_neg own] at registered
      obtain ⟨member, named⟩ := serves.listed name known registered
      exact ⟨List.mem_append_left _ member, named⟩
  · intro known member name named
    rw [lookups]
    rcases List.mem_append.mp member with earlier | last
    · have registered := serves.found known earlier name named
      have notOwn : name ∉ family.functions := by
        intro own
        cases registered.symm.trans (free name own)
      rw [if_neg notOwn]
      exact registered
    · obtain rfl := List.mem_singleton.mp last
      rw [if_pos named]
  · apply List.pairwise_append.mpr
    refine ⟨serves.apart, List.pairwise_singleton _ _, ?_⟩
    intro known member last isLast name named own
    obtain rfl := List.mem_singleton.mp isLast
    cases (serves.found known member name named).symm.trans (free name own)

theorem serves_initial : Services.initial.Serves [Collect.family] where
  listed := by
    intro name family registered
    obtain ⟨known, named, same⟩ := List.mem_map.mp (Entries.mem_of_lookup registered)
    cases same
    exact ⟨List.mem_singleton.mpr rfl, named⟩
  found := by
    intro family member name named
    obtain rfl := List.mem_singleton.mp member
    simp only [Collect.family, List.mem_cons, List.not_mem_nil, or_false] at named
    rcases named with isWindow | isFirst | isLast
    · subst isWindow
      rfl
    · subst isFirst
      rfl
    · subst isLast
      rfl
  apart := List.pairwise_singleton _ _

theorem Configured.serves (configured : services.Configured families) :
    services.Serves families := by
  induction configured with
  | initial => exact serves_initial
  | accepted _ added ih =>
      rw [(mapping_of_addFamily added).2.2]
      exact ih.add added
  | refused _ refused ih =>
      rw [afterFamily_of_error refused]
      exact ih
  | other _ same ih =>
      have lookups : ∀ name, Services.family? _ name = Services.family? _ name := fun name =>
        congrArg (List.lookup name) same
      refine ⟨fun name family registered => ih.listed name family ?_, ?_, ih.apart⟩
      · rw [← registered]
        exact (lookups name).symm
      · intro family member name named
        exact (lookups name).trans (ih.found family member name named)

namespace Serves

variable (serves : services.Serves families)

include serves

theorem eq_of_key_eq {first second : FunctionFamily} {name : String}
    (registered : services.family? name = some first) (member : second ∈ families)
    (same : AggregationKey.ofFamily first = .ofFamily second) : first = second := by
  obtain ⟨_, named⟩ := serves.listed name first registered
  have inSecond := AggregationKey.mem_functions_of_ofFamily_eq same named
  exact Option.some.inj (registered.symm.trans (serves.found second member name inSecond))

theorem together_iff {name other : String} {first second : FunctionFamily}
    (registered : services.family? name = some first)
    (otherRegistered : services.family? other = some second) :
    first = second ↔
      ∃ family ∈ families, name ∈ family.functions ∧ other ∈ family.functions := by
  constructor
  · intro same
    obtain ⟨member, named⟩ := serves.listed name first registered
    obtain ⟨_, otherNamed⟩ := serves.listed other second otherRegistered
    rw [← same] at otherNamed
    exact ⟨first, member, named, otherNamed⟩
  · intro together
    obtain ⟨family, member, named, otherNamed⟩ := together
    have here := registered.symm.trans (serves.found family member name named)
    have there := otherRegistered.symm.trans (serves.found family member other otherNamed)
    exact Option.some.inj (here.trans there.symm)

theorem nodup_filter {used : FunctionFamily → Bool}
    (named : ∀ family ∈ families, used family = true → family.functions ≠ []) :
    (families.filter used).Nodup := by
  have filtered : (families.filter used).Pairwise
      (fun first second => ∀ name ∈ first.functions, name ∉ second.functions) :=
    serves.apart.sublist List.filter_sublist
  refine filtered.imp_of_mem ?_
  intro first second member _ apart same
  obtain ⟨inFamilies, isUsed⟩ := List.mem_filter.mp member
  obtain ⟨name, names, split⟩ := List.exists_cons_of_ne_nil (named first inFamilies isUsed)
  have own : name ∈ first.functions := by
    rw [split]
    exact List.mem_cons_self
  apply apart name own
  rw [← same]
  exact own

end Serves

end Services

end EventQuery
