import EventQuery.Compile
import EventQuery.Proofs.Extension.Anchoring
import EventQuery.Proofs.Resolution.Conclusion
import EventQuery.Proofs.Resolution.Inversion
import EventQuery.Proofs.Resolution.Referents
import EventQuery.Proofs.Resolution.Soundness

set_option autoImplicit false

/-! A statement that a variable takes over. Where a cache is not anchored, a path that nothing says
the only stream has is read from it all the same; once a variable has the name, the path denotes
the variable. -/

namespace EventQuery

open Resolution

/-- Selects a path from one stream, whose name is not what the path starts with. -/
def Statement.probing (type : EventType) (path : String) : Statement :=
  { Statement.selecting "s" (.property ⟨none, none, path⟩) with
    streams := [⟨none, type.name, some ((Text.segments path).headD "" ++ "_")⟩] }

def Services.probed (services : Services) (type : EventType) (path : String) : Frame :=
  .ofStatement services List.range false (.probing type path)
    [⟨(Text.segments path).headD "" ++ "_", type⟩]

section

variable {services : Services} {type : EventType} {path : String} {memory : CompilerMemory}

theorem bindStreams_probing (registered : services.registry.find? type.name = some type) :
    bindStreams services.registry [] (Statement.probing type path).streams =
      .ok (services.probed type path).streams := by
  unfold Statement.probing Services.probed Frame.ofStatement
  simp only [bindStreams, Registry.resolve, registered, List.any_nil]
  rfl

theorem denotedPath?_probed (without : ¬ type.Starts path) :
    (services.probed type path).denotedPath? path =
      match services.variableNamed? path with
      | some definition => some (.variable definition)
      | none => some (.blamed (⟨(Text.segments path).headD "" ++ "_", type⟩, 0) path) := by
  have streams : (services.probed type path).indexedStreams =
      [(⟨(Text.segments path).headD "" ++ "_", type⟩, 0)] := rfl
  have having : (services.probed type path).streamsWith ((Text.segments path).headD "") = [] := by
    unfold Frame.streamsWith
    rw [streams, List.filter_eq_nil_iff]
    intro stream member
    rw [List.mem_singleton.mp member]
    exact without
  have qualified : (services.probed type path).qualified? path = none := by
    unfold Frame.qualified?
    split
    · rename_i name next rest segments
      have different : name ++ "_" ≠ name := by
        intro same
        have lengths := congrArg String.length same
        rw [String.length_append] at lengths
        have one : "_".length = 1 := by decide
        omega
      unfold Frame.streamNamed?
      rw [streams, segments]
      simp [different]
    · rfl
  unfold Frame.denotedPath?
  rw [having, qualified, streams]
  rfl

theorem yields_conclude_of_no_calls {frame : Frame} {statement : Statement}
    {clauses typed : ResolvedClauses} {before : Progress} (noCalls : before.calls = .empty)
    (ordered : frame.order 0 = []) (filled : clauses.typed [] = .ok typed) :
    ∃ finish, Yields (frame.conclude statement clauses) before
      (frame.assemble statement typed [] [] before.subqueries) finish := by
  let finish : Progress := { before with calls := ⟨[], .validated⟩ }
  have aggregated : Yields (runAggregations frame) before [] finish := by
    rw [yields_runAggregations_iff, noCalls]
    refine ⟨⟨[], .declared⟩, before.memory.workshop, ⟨[], .validated⟩, before.memory.workshop, ?_,
      ?_, rfl⟩
    · change CallSites.declare _ _ _ (frame.order 0) = _
      rw [ordered]
      rfl
    · change CallSites.validate _ _ _ (frame.order 0) _ _ = _
      rw [ordered]
      rfl
  refine ⟨finish, yields_bind_iff.mpr ⟨[], finish, aggregated, yields_bind_iff.mpr
    ⟨typed, finish, yields_ofChecked_iff.mpr ⟨filled, rfl⟩, ?_⟩⟩⟩
  rw [yields_get_bind_iff, yields_pure_iff]
  exact ⟨rfl, rfl⟩

theorem compile_probing (registered : services.registry.find? type.name = some type)
    {tree : Resolved} {after : Progress}
    (run : Yields ((services.probed type path).resolveProperty (.ofClause .select)
        ⟨none, none, path⟩)
      (.opening (.probing type path) .empty memory) tree after)
    (typed : tree.typed [] = .ok tree) :
    ∃ spec, (services.compile List.range (.probing type path) memory).result = .ok spec ∧
      spec.select.map SelectColumn.expression = [tree] := by
  have undisturbed := Frame.undisturbed_of_resolveProperty run
  have noCalls : after.calls = .empty := undisturbed.calls
  let column : SelectColumn := ⟨(Expression.property ⟨none, none, path⟩).columnName 0, tree⟩
  let clauses : ResolvedClauses := ⟨[column], none, [], none⟩
  obtain ⟨fuel, fueled⟩ : ∃ fuel, services.fuelFor (.probing type path) .empty +
      Services.advance = fuel + 1 := ⟨_, rfl⟩
  have resolved : Yields (resolveClauses (resolve .spent (fuel + 1) (services.probed type path))
      (.probing type path)) (.opening (.probing type path) .empty memory) clauses after := by
    refine yields_resolveClauses_iff.mpr ⟨?_, rfl, rfl, rfl, rfl⟩
    exact yields_mapM_cons_iff.mpr ⟨tree, after, [], run, yields_mapM_nil_iff.mpr ⟨rfl, rfl⟩, rfl⟩
  have filled : clauses.typed [] = .ok clauses := by
    unfold ResolvedClauses.typed
    simp only [clauses, column, typedColumns, typed]
    rfl
  obtain ⟨finish, concluded⟩ := @yields_conclude_of_no_calls (services.probed type path)
    (.probing type path) _ _ _ noCalls rfl filled
  have compiled : compileStatement (resolve .spent (fuel + 1)) services List.range false
      (.probing type path) .empty memory = (.ok (_, finish.symbols), finish.memory) :=
    compileStatement_ok_iff.mpr ⟨_, finish, bindStreams_probing registered,
      yields_bind_iff.mpr ⟨clauses, after, resolved, concluded⟩, rfl, rfl⟩
  rw [← fueled] at compiled
  exact ⟨_, Services.compileWith_ok_iff.mpr ⟨_, _, _, compiled, rfl⟩, rfl⟩

section

variable (registered : services.registry.find? type.name = some type) (without : ¬ type.Starts path)

include registered without

theorem compile_probing_of_answer (unnamed : services.variableNamed? path = none)
    {compiled : CompiledProperty}
    (answered : memory.getters.answer services.registry type path = .ok compiled) :
    ∃ spec, (services.compile List.range (.probing type path) memory).result = .ok spec ∧
      spec.select.map SelectColumn.expression = [.property 0 path compiled] := by
  have denoted := @denotedPath?_probed services _ _ without
  rw [unnamed] at denoted
  have run : Yields ((services.probed type path).resolveStreamProperty
      (⟨(Text.segments path).headD "" ++ "_", type⟩, 0) path none)
      (.opening (.probing type path) .empty memory) (.property 0 path compiled) _ :=
    Frame.yields_resolveStreamProperty_iff.mpr ⟨compiled, _, Prod.ext answered rfl, rfl, rfl⟩
  exact compile_probing registered (Frame.yields_resolveProperty_iff.mpr
    (.inr ⟨fun _ => rfl, _, denoted, run⟩)) rfl

theorem compile_probing_of_variable {definition : VariableDefinition}
    (named : services.variableNamed? path = some definition) :
    ∃ spec, (services.compile List.range (.probing type path) memory).result = .ok spec ∧
      spec.select.map SelectColumn.expression = [.variable definition.name definition.type] := by
  have denoted := @denotedPath?_probed services _ _ without
  rw [named] at denoted
  exact compile_probing registered (Frame.yields_resolveProperty_iff.mpr
    (.inr ⟨fun _ => rfl, _, denoted, Frame.yields_follow_iff.mpr ⟨rfl, rfl⟩⟩)) rfl

end

end

end EventQuery
