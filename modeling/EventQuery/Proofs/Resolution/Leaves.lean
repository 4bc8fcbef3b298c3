import EventQuery.Compile.Resolve
import EventQuery.Proofs.Resolution.Runs

set_option autoImplicit false

/-! What the resolutions of leaves yield, and which forge serves a family. -/

namespace EventQuery

def SubstitutionNode.style (node : SubstitutionNode) : ParameterStyle :=
  if node.name.isSome then .named else .unnamed

/-- What is gathered of subqueries, call sites and substitution parameters stays as it is. -/
structure Progress.Undisturbed (before after : Progress) : Prop where
  subqueries : after.subqueries = before.subqueries
  calls : after.calls = before.calls
  substitutions : after.symbols.substitutions = before.symbols.substitutions
  style : after.style = before.style

namespace Frame

open Resolution

variable {frame : Frame} {scope : Scope} {before after : Progress} {tree : Resolved}

theorem yields_resolveStreamProperty_iff {stream : StreamBinding × Nat} {path : String}
    {position : Option Position} :
    Yields (frame.resolveStreamProperty stream path position) before tree after ↔
      ∃ compiled getters,
        before.memory.getters.compile frame.services.registry stream.1.type path =
          (.ok compiled, getters) ∧
        tree = .property stream.2 path compiled ∧
        after = { before with memory := { before.memory with getters := getters } } := by
  unfold resolveStreamProperty
  rw [yields_get_bind_iff]
  cases built : before.memory.getters.compile frame.services.registry stream.1.type path with
  | mk result getters =>
      simp only [yields_set_bind_iff]
      cases result with
      | ok compiled =>
          simp only [yields_pure_iff]
          constructor
          · rintro ⟨rfl, rfl⟩
            exact ⟨compiled, getters, rfl, rfl, rfl⟩
          · rintro ⟨_, _, same, rfl, rfl⟩
            cases same
            exact ⟨rfl, rfl⟩
      | error failure => simp [not_yields_refuse]

/-- What a property becomes: the value of a parameter, a property of a stream, or a variable.
Only the path of a property that names no stream can denote a parameter. -/
theorem yields_resolveProperty {node : PropertyNode}
    (run : Yields (frame.resolveProperty scope node) before tree after) :
    (node.stream = none ∧ scope.bindings.lookup node.path = some tree ∧ after = before) ∨
    (node.stream = none → scope.bindings.lookup node.path = none) ∧
      ((∃ stream ∈ frame.indexedStreams, ∃ path,
        Yields (frame.resolveStreamProperty stream path node.position) before tree after) ∨
      (∃ definition : VariableDefinition, tree = .variable definition.name definition.type ∧
        after = { before with symbols := before.symbols.recordVariable definition.name })) := by
  unfold resolveProperty at run
  cases named : node.stream with
  | some name =>
      simp only [named] at run
      refine .inr ⟨(fun unnamed => by cases unnamed), .inl ?_⟩
      cases found : frame.streamNamed? name with
      | none =>
          rw [found] at run
          exact absurd run not_yields_refuse
      | some stream =>
          rw [found] at run
          exact ⟨stream, List.mem_of_find?_eq_some found, _, run⟩
  | none =>
      simp only [named] at run
      unfold resolvePath at run
      cases bound : scope.bindings.lookup node.path with
      | some value =>
          simp only [bound, yields_pure_iff] at run
          obtain ⟨rfl, rfl⟩ := run
          exact .inl ⟨rfl, rfl, rfl⟩
      | none =>
          refine .inr ⟨fun _ => rfl, ?_⟩
          simp only [bound] at run
          split at run
          · rename_i stream only
            refine .inl ⟨stream, ?_, _, run⟩
            have among : stream ∈ frame.streamsWith ((Text.segments node.path).headD "") := by
              rw [only]
              exact List.mem_singleton.mpr rfl
            exact (List.mem_filter.mp among).1
          · exact absurd run not_yields_refuse
          · cases qualified : frame.qualified? node.path with
            | some target =>
                obtain ⟨stream, rest⟩ := target
                rw [qualified] at run
                refine .inl ⟨stream, ?_, rest, run⟩
                unfold qualified? at qualified
                split at qualified
                · obtain ⟨_, found, same⟩ := Option.map_eq_some_iff.mp qualified
                  cases same
                  exact List.mem_of_find?_eq_some found
                · cases qualified
            | none =>
                rw [qualified] at run
                dsimp only at run
                split at run
                · rename_i definition known
                  rw [yields_modifySymbols_bind_iff, yields_pure_iff] at run
                  exact .inr ⟨definition, run⟩
                · split at run
                  · rename_i stream only
                    refine .inl ⟨stream, ?_, _, run⟩
                    rw [only]
                    exact List.mem_singleton.mpr rfl
                  · exact absurd run not_yields_refuse

theorem yields_resolvePrior_iff {position : Option Position} {index : Nat} {node : PropertyNode} :
    Yields (frame.resolvePrior scope position index node) before tree after ↔
      ∃ stream path compiled between,
        Yields (frame.resolveProperty scope node) before (.property stream path compiled) between ∧
        tree = .prior index stream compiled ∧
        after = { between with symbols := between.symbols.setPrior true } := by
  unfold resolvePrior
  rw [yields_bind_iff]
  constructor
  · rintro ⟨property, between, run, rest⟩
    split at rest
    · rename_i stream path compiled
      rw [yields_modifySymbols_bind_iff, yields_pure_iff] at rest
      exact ⟨stream, path, compiled, between, run, rest⟩
    · exact absurd rest not_yields_refuse
  · rintro ⟨stream, path, compiled, between, run, rfl, rfl⟩
    exact ⟨_, between, run, yields_modifySymbols_bind_iff.mpr (yields_pure_iff.mpr ⟨rfl, rfl⟩)⟩

theorem yields_resolveWildcard {position : Option Position} {name : Option String}
    (run : Yields (frame.resolveWildcard scope position name) before tree after) :
    after = before ∧
      ∃ binding index, (binding, index) ∈ frame.indexedStreams ∧
        tree = .wildcard index binding.type := by
  unfold resolveWildcard at run
  split at run
  · split at run
    · rename_i stream
      cases found : frame.streamNamed? stream with
      | none =>
          rw [found] at run
          exact absurd run not_yields_refuse
      | some target =>
          rw [found] at run
          obtain ⟨rfl, rfl⟩ := yields_pure_iff.mp run
          exact ⟨rfl, target.1, target.2, List.mem_of_find?_eq_some found, rfl⟩
    · split at run
      · rename_i binding index only
        obtain ⟨rfl, rfl⟩ := yields_pure_iff.mp run
        refine ⟨rfl, binding, index, ?_, rfl⟩
        rw [only]
        exact List.mem_singleton.mpr rfl
      · exact absurd run not_yields_refuse
  · exact absurd run not_yields_refuse

/-- The stream whose events a wildcard denotes: the named one, or else the only one. -/
def eventsOf? (frame : Frame) : Option String → Option (StreamBinding × Nat)
  | some name => frame.streamNamed? name
  | none =>
      match frame.indexedStreams with
      | [stream] => some stream
      | _ => none

theorem yields_resolveWildcard_iff {position : Option Position} {name : Option String} :
    Yields (frame.resolveWildcard scope position name) before tree after ↔
      scope.inAggregation = true ∧ ∃ stream, frame.eventsOf? name = some stream ∧
        tree = .wildcard stream.2 stream.1.type ∧ after = before := by
  unfold resolveWildcard
  by_cases inside : scope.inAggregation = true
  · rw [if_pos inside, and_iff_right inside]
    cases name with
    | some name =>
        dsimp only [eventsOf?]
        cases frame.streamNamed? name with
        | none => simp [not_yields_refuse]
        | some stream => simp [yields_pure_iff]
    | none =>
        dsimp only [eventsOf?]
        cases frame.indexedStreams with
        | nil => simp [not_yields_refuse]
        | cons stream others =>
            cases others with
            | nil => simp [yields_pure_iff]
            | cons next others => simp [not_yields_refuse]
  · rw [if_neg inside]
    simp [inside, not_yields_refuse]

theorem yields_resolveSubstitution_iff {node : SubstitutionNode} :
    Yields (frame.resolveSubstitution node) before tree after ↔
      frame.isSubquery = false ∧ (∀ style ∈ before.style, style = node.style) ∧
        tree = .substitution before.symbols.substitutions.length
          (node.declaredType.getD .object) ∧
        after = { before with
          symbols := (before.symbols.addSubstitution node).2, style := some node.style } := by
  unfold resolveSubstitution
  by_cases inside : frame.isSubquery = true
  · rw [if_pos inside]
    simp [inside, not_yields_refuse]
  · rw [if_neg inside, yields_get_bind_iff]
    have mixed : before.style.any (fun other => other ≠ node.style) = true ↔
        ¬ ∀ style ∈ before.style, style = node.style := by
      cases before.style <;> simp
    change Yields (if before.style.any (fun other => other ≠ node.style) = true then _ else _)
      before tree after ↔ _
    by_cases kept : ∀ style ∈ before.style, style = node.style
    · rw [if_neg (fun other => mixed.mp other kept)]
      dsimp only [SymbolContext.addSubstitution]
      rw [yields_set_bind_iff, yields_pure_iff, and_iff_right (Bool.eq_false_iff.mpr inside),
        and_iff_right kept]
      rfl
    · rw [if_pos (mixed.mpr kept)]
      exact iff_of_false not_yields_refuse (fun all => kept all.2.1)

theorem yields_resolveSubstitution {node : SubstitutionNode}
    (run : Yields (frame.resolveSubstitution node) before tree after) :
    tree = .substitution before.symbols.substitutions.length
        (node.declaredType.getD .object) ∧
      ∃ style, after = { before with
        symbols := (before.symbols.addSubstitution node).2, style := some style } := by
  obtain ⟨_, _, taken, rfl⟩ := yields_resolveSubstitution_iff.mp run
  exact ⟨taken, _, rfl⟩

theorem yields_resolveForge_iff {family : FunctionFamily} {position : Option Position}
    {forge : Forge} :
    Yields (frame.resolveForge family position) before forge after ↔
      (before.symbols.forge? (.ofFamily family) = some forge ∧ after = before) ∨
      (before.symbols.forge? (.ofFamily family) = none ∧
        ∃ workshop,
          frame.services.createForge family before.memory.workshop = (.ok forge, workshop) ∧
          after = { before with
            symbols := before.symbols.addForge (.ofFamily family) forge
            memory := { before.memory with workshop := workshop } }) := by
  unfold resolveForge
  rw [yields_get_bind_iff]
  unfold SymbolContext.resolveForge
  cases registered : before.symbols.forge? (.ofFamily family) with
  | some found =>
      simp only [yields_set_bind_iff, yields_pure_iff, Option.some.injEq, reduceCtorEq, false_and,
        or_false]
      constructor
      · rintro ⟨rfl, rfl⟩
        exact ⟨rfl, rfl⟩
      · rintro ⟨rfl, rfl⟩
        exact ⟨rfl, rfl⟩
  | none =>
      cases created : frame.services.createForge family before.memory.workshop with
      | mk result workshop =>
          cases result with
          | ok found =>
              simp only [yields_set_bind_iff, yields_pure_iff, reduceCtorEq, false_and, false_or,
                true_and, Prod.mk.injEq, Except.ok.injEq]
              constructor
              · rintro ⟨rfl, rfl⟩
                exact ⟨workshop, ⟨rfl, rfl⟩, rfl⟩
              · rintro ⟨_, ⟨rfl, rfl⟩, rfl⟩
                exact ⟨rfl, rfl⟩
          | error failure => simp [yields_set_bind_iff, not_yields_refuse]

theorem yields_resolveForge {family : FunctionFamily} {position : Option Position} {forge : Forge}
    (run : Yields (frame.resolveForge family position) before forge after) :
    ∃ workshop, (before.symbols.forge? (.ofFamily family) = some forge ∧
        after = { before with memory := { before.memory with workshop := workshop } }) ∨
      (before.symbols.forge? (.ofFamily family) = none ∧
        after = { before with
          symbols := before.symbols.addForge (.ofFamily family) forge
          memory := { before.memory with workshop := workshop } }) := by
  rcases yields_resolveForge_iff.mp run with ⟨registered, rfl⟩ | ⟨free, workshop, _, rfl⟩
  · exact ⟨_, .inl ⟨registered, rfl⟩⟩
  · exact ⟨workshop, .inr ⟨free, rfl⟩⟩

theorem undisturbed_of_resolveProperty {node : PropertyNode}
    (run : Yields (frame.resolveProperty scope node) before tree after) :
    before.Undisturbed after := by
  rcases yields_resolveProperty run with ⟨_, _, rfl⟩ | ⟨_, ⟨_, _, _, read⟩ | ⟨_, _, rfl⟩⟩
  · exact ⟨rfl, rfl, rfl, rfl⟩
  · obtain ⟨_, _, _, _, rfl⟩ := yields_resolveStreamProperty_iff.mp read
    exact ⟨rfl, rfl, rfl, rfl⟩
  · exact ⟨rfl, rfl, rfl, rfl⟩

theorem undisturbed_of_resolvePrior {position : Option Position} {index : Nat}
    {node : PropertyNode}
    (run : Yields (frame.resolvePrior scope position index node) before tree after) :
    before.Undisturbed after := by
  obtain ⟨_, _, _, between, property, _, rfl⟩ := yields_resolvePrior_iff.mp run
  have inner : before.Undisturbed between := undisturbed_of_resolveProperty property
  exact ⟨inner.subqueries, inner.calls, inner.substitutions, inner.style⟩

theorem undisturbed_of_resolveForge {family : FunctionFamily} {position : Option Position}
    {forge : Forge} (run : Yields (frame.resolveForge family position) before forge after) :
    before.Undisturbed after := by
  obtain ⟨_, ⟨_, rfl⟩ | ⟨_, rfl⟩⟩ := yields_resolveForge run
  · exact ⟨rfl, rfl, rfl, rfl⟩
  · exact ⟨rfl, rfl, rfl, rfl⟩

end Frame

end EventQuery
