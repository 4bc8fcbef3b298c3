import EventQuery.Compile
import EventQuery.Proofs.History.Mirror
import EventQuery.Proofs.Resolution.Growth
import EventQuery.Proofs.Resolution.Inversion

set_option autoImplicit false

/-! Every step of resolution treats a fresh memory and a memory with a past alike. -/

namespace EventQuery

open Resolution

variable {past : Past}

/-- The statement is resolved against the registered types, and its streams have some of them. -/
structure Frame.Registered (frame : Frame) (past : Past) : Prop where
  registry : frame.services.registry = past.registry
  streams : ∀ stream ∈ frame.streams, past.registry.find? stream.type.name = some stream.type

theorem registered_of_bindStreams {registry : Registry} {bound streams : List StreamBinding}
    {sources : List StreamSource}
    (earlier : ∀ stream ∈ bound, registry.find? stream.type.name = some stream.type)
    (accepted : bindStreams registry bound sources = .ok streams) :
    ∀ stream ∈ streams, registry.find? stream.type.name = some stream.type := by
  induction sources generalizing bound with
  | nil =>
      cases accepted
      exact earlier
  | cons source sources ih =>
      unfold bindStreams at accepted
      split at accepted
      · cases accepted
      · rename_i type resolved
        split at accepted
        · cases accepted
        · refine ih ?_ accepted
          intro stream member
          rcases List.mem_append.mp member with before | last
          · exact earlier stream before
          · rw [List.mem_singleton.mp last]
            unfold Registry.resolve at resolved
            split at resolved
            · rename_i found registered
              cases resolved
              rw [(Registry.find?_eq_some registered).2]
              exact registered
            · cases resolved

namespace Frame

variable {frame : Frame} {scope : Scope}

theorem Registered.indexed (registered : frame.Registered past) {stream : StreamBinding × Nat}
    (member : stream ∈ frame.indexedStreams) :
    past.registry.find? stream.1.type.name = some stream.1.type := by
  obtain ⟨binding, index⟩ := stream
  obtain ⟨_, _, same⟩ := List.mem_zipIdx member
  have among : binding ∈ frame.streams := by
    rw [same]
    exact List.getElem_mem _
  exact registered.streams binding among

theorem mirrored_resolveStreamProperty (registered : frame.Registered past)
    {stream : StreamBinding × Nat} (member : stream ∈ frame.indexedStreams) (path : String)
    (position : Option Position) :
    Mirrored past id (frame.resolveStreamProperty stream path position)
      (frame.resolveStreamProperty stream path position) := by
  intro fresh shifted shifts
  have known := registered.indexed member
  unfold resolveStreamProperty
  rw [registered.registry]
  refine .get_bind ?_
  have answers := past.indistinct.alike _ _ shifts.memory.laterGetters shifts.memory.freshGetters
    _ known path
  have freshKept := past.indistinct.kept _ shifts.memory.freshGetters _ known path
  have laterKept := past.indistinct.kept _ shifts.memory.laterGetters _ known path
  cases freshRun : fresh.memory.getters.compile past.registry stream.1.type path with
  | mk result getters =>
      cases laterRun : shifted.memory.getters.compile past.registry stream.1.type path with
      | mk laterResult laterGetters =>
          rw [freshRun] at freshKept
          rw [laterRun] at laterKept
          rw [freshRun, laterRun] at answers
          have same : laterResult = result := answers
          subst same
          have kept : past.Shifts
              { fresh with memory := { fresh.memory with getters := getters } }
              { shifted with memory := { shifted.memory with getters := laterGetters } } :=
            { shifts with
              memory := { shifts.memory with
                freshGetters := freshKept
                laterGetters := laterKept } }
          refine .set_bind (Nat.le_refl _) ?_
          cases laterResult with
          | ok compiled => exact .pure kept _
          | error failure => exact .throw kept _

theorem mirrored_resolvePath (registered : frame.Registered past) (path : String)
    (position : Option Position) :
    Mirrored past id (frame.resolvePath scope path position)
      (frame.resolvePath scope path position) := by
  unfold resolvePath
  split
  · exact .pure _
  · split
    · rename_i stream only
      refine mirrored_resolveStreamProperty registered ?_ path position
      have among : stream ∈ frame.streamsWith ((Text.segments path).headD "") := by
        rw [only]
        exact List.mem_singleton.mpr rfl
      exact (List.mem_filter.mp among).1
    · exact .throw _
    · split
      · rename_i stream rest qualified
        refine mirrored_resolveStreamProperty registered ?_ rest position
        unfold qualified? at qualified
        split at qualified
        · obtain ⟨_, found, same⟩ := Option.map_eq_some_iff.mp qualified
          cases same
          exact List.mem_of_find?_eq_some found
        · cases qualified
      · split
        · exact .modifySymbols ⟨fun _ _ => rfl, fun _ => rfl⟩ (.pure _)
        · split
          · rename_i stream only
            refine mirrored_resolveStreamProperty registered ?_ path position
            rw [only]
            exact List.mem_singleton.mpr rfl
          · exact .throw _

theorem mirrored_resolveProperty (registered : frame.Registered past) (node : PropertyNode) :
    Mirrored past id (frame.resolveProperty scope node) (frame.resolveProperty scope node) := by
  unfold resolveProperty
  split
  · split
    · rename_i stream found
      exact mirrored_resolveStreamProperty registered (List.mem_of_find?_eq_some found) _ _
    · exact .throw _
  · exact mirrored_resolvePath registered _ _

theorem mirrored_resolvePrior (registered : frame.Registered past) (position : Option Position)
    (index : Nat) (node : PropertyNode) :
    Mirrored past id (frame.resolvePrior scope position index node)
      (frame.resolvePrior scope position index node) := by
  refine (mirrored_resolveProperty registered node).bind (fun tree => ?_)
  dsimp only [id]
  split
  · exact .modifySymbols ⟨fun _ _ => rfl, fun _ => rfl⟩ (.pure _)
  · exact .throw _

theorem mirrored_resolveWildcard (position : Option Position) (stream : Option String) :
    Mirrored past id (frame.resolveWildcard scope position stream)
      (frame.resolveWildcard scope position stream) := by
  unfold resolveWildcard
  split
  · split
    · split
      · exact .pure _
      · exact .throw _
    · split
      · exact .pure _
      · exact .throw _
  · exact .throw _

theorem mirrored_resolveSubstitution (node : SubstitutionNode) :
    Mirrored past id (frame.resolveSubstitution node) (frame.resolveSubstitution node) := by
  unfold resolveSubstitution
  split
  · exact .throw _
  · intro fresh shifted shifts
    refine .get_bind ?_
    have style := shifts.style
    have symbols := shifts.symbols
    dsimp only
    rw [style, symbols]
    by_cases mixed : fresh.style.any (fun other =>
        other ≠ if node.name.isSome then ParameterStyle.named else .unnamed) = true
    · rw [if_pos mixed, if_pos mixed]
      exact .throw shifts _
    · rw [if_neg mixed, if_neg mixed]
      refine .set_bind (Nat.le_refl _) ?_
      have kept : past.Shifts
          { fresh with
            symbols := (fresh.symbols.addSubstitution node).2
            style := some (if node.name.isSome then ParameterStyle.named else .unnamed) }
          { shifted with
            symbols := ((fresh.symbols.renamed past.renumber).addSubstitution node).2
            style := some (if node.name.isSome then ParameterStyle.named else .unnamed) } :=
        { shifts with symbols := rfl, style := rfl, held := shifts.held }
      exact .pure kept _

theorem mirrored_resolveForge (family : FunctionFamily) (position : Option Position) :
    Mirrored past (Forge.renamed past.renumber) (frame.resolveForge family position)
      (frame.resolveForge family position) := by
  intro fresh shifted shifts
  unfold resolveForge
  refine .get_bind ?_
  have alike : (fresh.symbols.renamed past.renumber).resolveForge (.ofFamily family)
      (frame.services.createForge family) (fresh.memory.workshop.after past.workshop) = _ :=
    Workshop.resolveForge_after frame.services family fresh.symbols (.ofFamily family)
  rw [shifts.symbols, shifts.memory.workshop, alike]
  unfold SymbolContext.resolveForge
  cases registered : fresh.symbols.forge? (.ofFamily family) with
  | some forge =>
      have kept : past.Shifts
          { fresh with memory := { fresh.memory with workshop := fresh.memory.workshop } }
          { shifted with
            symbols := fresh.symbols.renamed past.renumber
            memory := { shifted.memory with
              workshop := fresh.memory.workshop.after past.workshop } } :=
        { shifts with symbols := rfl, memory := { shifts.memory with workshop := rfl } }
      exact .set_bind (Nat.le_refl _) (.pure kept _)
  | none =>
      have made := shifts.memory.settled.createForge frame.services family
      cases created : frame.services.createForge family fresh.memory.workshop with
      | mk result workshop =>
          rw [created] at made
          have memory : past.Precedes { fresh.memory with workshop := workshop }
              { shifted.memory with workshop := workshop.after past.workshop } :=
            { shifts.memory with workshop := rfl, settled := made.settled }
          have sites : ∀ site ∈ fresh.calls.sites, workshop.Holds site.forge :=
            fun site member => (shifts.sites site member).of_le made.grown
          have held := shifts.held.mono made.grown
          cases result with
          | ok forge =>
              have kept : past.Shifts
                  { fresh with
                    symbols := fresh.symbols.addForge (.ofFamily family) forge
                    memory := { fresh.memory with workshop := workshop } }
                  { shifted with
                    symbols :=
                      (fresh.symbols.addForge (.ofFamily family) forge).renamed past.renumber
                    memory := { shifted.memory with
                      workshop := workshop.after past.workshop } } :=
                { shifts with
                  symbols := rfl
                  memory := memory
                  sites := sites
                  held := held.addForge (made.held forge rfl) }
              exact .set_bind made.grown (.pure kept _)
          | error failure =>
              have kept : past.Shifts
                  { fresh with memory := { fresh.memory with workshop := workshop } }
                  { shifted with
                    symbols := fresh.symbols.renamed past.renumber
                    memory := { shifted.memory with
                      workshop := workshop.after past.workshop } } :=
                { shifts with symbols := rfl, memory := memory, sites := sites, held := held }
              exact .set_bind made.grown (.throw kept _)

theorem mirrored_add (site : CallSite) (position : Option Position)
    (tree : Nat → Resolved) (fresh shifted : Progress) (shifts : past.Shifts fresh shifted)
    (held : fresh.memory.workshop.Holds site.forge) :
    MirroredAt past id
      (do
        match fresh.calls.add site with
        | .error failure => refuse failure position
        | .ok (index, calls) =>
            set { fresh with calls := calls }
            return tree index)
      (do
        match shifted.calls.add (site.renamed past.renumber) with
        | .error failure => refuse failure position
        | .ok (index, calls) =>
            set { shifted with calls := calls }
            return tree index) fresh shifted := by
  rw [shifts.calls, CallSites.add_renamed]
  cases added : fresh.calls.add site with
  | error failure => exact .throw shifts _
  | ok result =>
      obtain ⟨index, calls⟩ := result
      have extended : calls.sites = fresh.calls.sites ++ [site] := by
        unfold CallSites.add at added
        split at added
        · cases added
          rfl
        · cases added
      have kept : past.Shifts { fresh with calls := calls }
          { shifted with calls := calls.renamed past.renumber } := by
        refine { shifts with calls := rfl, sites := ?_ }
        intro other member
        rw [extended, List.mem_append, List.mem_singleton] at member
        rcases member with earlier | rfl
        · exact shifts.sites other earlier
        · exact held
      exact .set_bind (Nat.le_refl _) (.pure kept _)

end Frame

/-! ### Compound expressions -/

def Resolver.Mirrored (past : Past) (resolver : Resolver) : Prop :=
  ∀ frame scope expression, frame.Registered past →
    Resolution.Mirrored past id (resolver frame scope expression) (resolver frame scope expression)

namespace Resolver.Mirrored

variable {resolver : Resolver} {frame : Frame}
variable (alike : resolver.Mirrored past) (registered : frame.Registered past)

include alike registered

theorem table (scope : Scope) (node : TableAccess) :
    Resolution.Mirrored past id (frame.resolveTable (resolver frame scope) node)
      (frame.resolveTable (resolver frame scope) node) := by
  unfold Frame.resolveTable
  split
  · exact .throw _
  · split
    · exact .throw _
    · refine (Mirrored.mapM (fun (key, column) =>
        (alike frame scope key registered).bind (fun _ => .ofChecked _)) _).bind (fun _ => ?_)
      refine (Mirrored.ofChecked _).bind (fun _ => ?_)
      exact .modifySymbols ⟨fun _ _ => rfl, fun _ => rfl⟩ (.pure _)

theorem declared (scope : Scope) (node : FunctionCall) (declaration : Declaration) :
    Resolution.Mirrored past id
      (Frame.resolveDeclared (resolver frame) scope node declaration)
      (Frame.resolveDeclared (resolver frame) scope node declaration) := by
  unfold Frame.resolveDeclared
  dsimp only
  split
  · exact .throw _
  · split
    · exact .throw _
    · exact (Mirrored.mapM (fun item => alike frame scope item registered) _).bind
        (fun arguments => (alike frame _ declaration.body registered).bind (fun _ => .pure _))

theorem aggregation (scope : Scope) (node : FunctionCall) (family : FunctionFamily) :
    Resolution.Mirrored past id (frame.resolveAggregation (resolver frame) scope node family)
      (frame.resolveAggregation (resolver frame) scope node family) := by
  unfold Frame.resolveAggregation
  split
  · exact .throw _
  · split
    · exact .throw _
    · intro fresh shifted shifts
      refine (Frame.mirrored_resolveForge family node.position fresh shifted
        shifts).bind_of_yields ?_
      intro forge between shiftedBetween run shiftsBetween _
      have held : between.memory.workshop.Holds forge :=
        shiftsBetween.held.forge? (Frame.registered_of_resolveForge run)
      have parameters := Mirrored.mapM (fun parameter =>
        (alike frame scope.aggregated parameter registered).bind (fun tree =>
          Mirrored.ofChecked (Frame.aggregationParameter tree))) node.parameters
      refine (parameters between shiftedBetween shiftsBetween).bind_of_yields ?_
      intro seen inner shiftedInner _ shiftsInner grown
      refine .get_bind ?_
      exact Frame.mirrored_add ⟨node, .ofFamily family, forge, family, seen⟩ node.position
        (fun site => .aggregation site node.position none) inner shiftedInner shiftsInner
        (Nat.lt_of_lt_of_le held grown)

theorem call (scope : Scope) (node : FunctionCall) :
    Resolution.Mirrored past id (frame.resolveCall (resolver frame) scope node)
      (frame.resolveCall (resolver frame) scope node) := by
  intro fresh shifted shifts
  refine .get_bind ?_
  rw [shifts.symbols]
  have declarations : frame.declaration? (fresh.symbols.renamed past.renumber) node.name =
      frame.declaration? fresh.symbols node.name := rfl
  have scripts : (fresh.symbols.renamed past.renumber).scripts = fresh.symbols.scripts := rfl
  have script : (fresh.symbols.renamed past.renumber).script? node.name node.parameters.length =
      fresh.symbols.script? node.name node.parameters.length := rfl
  dsimp only
  rw [declarations, scripts, script]
  cases frame.declaration? fresh.symbols node.name with
  | some declaration => exact alike.declared registered scope node declaration _ _ shifts
  | none =>
      dsimp only
      split
      · cases fresh.symbols.script? node.name node.parameters.length with
        | none => exact .throw shifts _
        | some script =>
            have arguments := Mirrored.mapM (fun item => alike frame scope item registered)
              node.parameters
            exact (arguments fresh shifted shifts).bind (fun _ => .pure _)
      · cases frame.services.family? node.name with
        | some family => exact alike.aggregation registered scope node family _ _ shifts
        | none => exact .throw shifts _

end Resolver.Mirrored

/-! ### Statements -/

theorem mirrored_runAggregations (frame : Frame) :
    Resolution.Mirrored past id (runAggregations frame) (runAggregations frame) := by
  intro fresh shifted shifts
  unfold runAggregations
  refine .get_bind ?_
  have count : (fresh.calls.renamed past.renumber).sites.length = fresh.calls.sites.length :=
    List.length_map _
  have declareAlike : (fresh.calls.renamed past.renumber).declare
      (fresh.memory.workshop.after past.workshop) frame.statement
        (frame.order fresh.calls.sites.length) = _ :=
    CallSites.declare_after _ _
  dsimp only
  rw [shifts.calls, shifts.memory.workshop, count, declareAlike]
  cases declared : fresh.calls.declare fresh.memory.workshop frame.statement
      (frame.order fresh.calls.sites.length) with
  | error failure => exact .throw shifts _
  | ok result =>
      obtain ⟨calls, workshop⟩ := result
      have told := shifts.memory.settled.declare shifts.sites declared
      have sites := CallSites.sites_of_declare declared
      have held : ∀ site ∈ calls.sites, workshop.Holds site.forge := by
        rw [sites]
        exact fun site member => (shifts.sites site member).of_le (Nat.le_of_eq told.2.symm)
      have asked : (calls.validate workshop frame.statement
          (frame.order fresh.calls.sites.length) (frame.streams.map StreamBinding.type)
          frame.services.registry).2.2.Settled ∧ _ := told.1.validate held _
      have validateAlike : (calls.renamed past.renumber).validate
          (workshop.after past.workshop) frame.statement (frame.order fresh.calls.sites.length)
          (frame.streams.map StreamBinding.type) frame.services.registry = _ :=
        CallSites.validate_after past.settled _ _ _ _
      dsimp only [Except.map]
      rw [validateAlike]
      cases validated : calls.validate workshop frame.statement
          (frame.order fresh.calls.sites.length) (frame.streams.map StreamBinding.type)
          frame.services.registry with
      | mk result rest =>
          obtain ⟨finished, workshop'⟩ := rest
          rw [validated] at asked
          have next : workshop'.nextIdentity = fresh.memory.workshop.nextIdentity :=
            asked.2.trans told.2
          have kept := shifts.told asked.1 next
            ((CallSites.sites_of_validate validated).trans sites)
          refine .set_bind (Nat.le_of_eq next.symm) ?_
          cases result with
          | ok handlers => exact .pure kept _
          | error failure =>
              dsimp only
              rw [CallSites.position_renamed]
              exact .throw kept _

theorem mirrored_conclude (frame : Frame) (statement : Statement) (clauses : ResolvedClauses) :
    Resolution.Mirrored past (StatementSpec.renamed past.renumber)
      (frame.conclude statement clauses) (frame.conclude statement clauses) := by
  refine (mirrored_runAggregations frame).bind (fun handlers => ?_)
  refine (Mirrored.ofChecked _).bind (fun typed => ?_)
  intro fresh shifted shifts
  refine .get_bind ?_
  have assembled := frame.assemble_renamed past.renumber statement typed fresh.calls.sites handlers
    fresh.subqueries
  dsimp only [id]
  rw [shifts.calls, shifts.subqueries]
  change MirroredAt past _ _ (Pure.pure (frame.assemble statement typed
    (fresh.calls.sites.map (CallSite.renamed past.renumber)) handlers _)) fresh shifted
  rw [assembled]
  exact .pure shifts _

theorem shifts_opening (statement : Statement) {memory later : CompilerMemory}
    (precedes : past.Precedes memory later) :
    past.Shifts (.opening statement .empty memory) (.opening statement .empty later) := by
  have none : (SymbolContext.empty.opened statement).forges = none :=
    SymbolContext.forges_opened _ _
  refine ⟨?_, rfl, rfl, rfl, precedes, ?_, List.forall_mem_nil _⟩
  · show SymbolContext.empty.opened statement = (SymbolContext.empty.opened statement).renamed _
    unfold SymbolContext.renamed
    rw [none, Option.map_none, ← none]
  · intro entry member
    change entry ∈ (SymbolContext.empty.opened statement).registeredForges at member
    rw [SymbolContext.registeredForges_opened] at member
    cases member

structure Past.Agrees (past : Past) (start : CompilerMemory)
    (fresh later : Except CompileFault (StatementSpec × SymbolContext) × CompilerMemory) :
    Prop where
  result : later.1 = fresh.1.map (fun (spec, symbols) =>
    (spec.renamed past.renumber, symbols.renamed past.renumber))
  memory : past.Precedes fresh.2 later.2
  grown : start.workshop.nextIdentity ≤ fresh.2.workshop.nextIdentity

namespace Resolver.Mirrored

variable {resolver : Resolver} (alike : resolver.Mirrored past)

include alike

theorem clauses {frame : Frame} (registered : frame.Registered past) (statement : Statement) :
    Resolution.Mirrored past id (resolveClauses (resolver frame) statement)
      (resolveClauses (resolver frame) statement) := by
  have each (clause : Clause) (expression : Expression) :=
    alike frame (.ofClause clause) expression registered
  unfold resolveClauses
  refine (Mirrored.mapM (fun (item, _) =>
    (each .select item.expression).bind (fun _ => .pure _)) _).bind (fun _ => ?_)
  refine (Mirrored.optionMapM (each .filter) _).bind (fun _ => ?_)
  refine (Mirrored.mapM (each .groupBy) _).bind (fun _ => ?_)
  exact (Mirrored.optionMapM (each .having) _).bind (fun _ => .pure _)

theorem compileStatement {services : Services} (registry : services.registry = past.registry)
    (order : Nat → List Nat) (isSubquery : Bool) (statement : Statement)
    {memory later : CompilerMemory} (precedes : past.Precedes memory later) :
    past.Agrees memory
      (compileStatement resolver services order isSubquery statement .empty memory)
      (EventQuery.compileStatement resolver services order isSubquery statement .empty later) := by
  cases bound : bindStreams services.registry [] statement.streams with
  | error failure =>
      unfold EventQuery.compileStatement
      rw [bound]
      exact ⟨rfl, precedes, Nat.le_refl _⟩
  | ok streams =>
      rw [compileStatement_of_bound bound, compileStatement_of_bound bound]
      have streamsRegistered : (Frame.ofStatement services order isSubquery statement
          streams).Registered past := by
        refine ⟨registry, ?_⟩
        rw [← registry]
        exact registered_of_bindStreams (List.forall_mem_nil _) bound
      have run := (alike.clauses streamsRegistered statement).bind
        (mirrored_conclude (Frame.ofStatement services order isSubquery statement streams)
          statement) _ _ (shifts_opening statement precedes)
      refine ⟨?_, run.progress.memory, run.grown⟩
      have result := run.result
      have symbols := run.progress.symbols
      unfold runStatement
      dsimp only
      rw [result, symbols]
      generalize (outcome _ (Progress.opening statement .empty memory)).1 = ended
      cases ended <;> rfl

theorem subquery {frame : Frame} (registered : frame.Registered past)
    (position : Option Position) (statement : Statement) :
    Resolution.Mirrored past id (frame.resolveSubquery resolver position statement)
      (frame.resolveSubquery resolver position statement) := by
  unfold Frame.resolveSubquery
  split
  · exact .throw _
  · intro fresh shifted shifts
    refine .get_bind ?_
    have agrees := alike.compileStatement registered.registry frame.order true statement
      shifts.memory
    cases compiled : EventQuery.compileStatement resolver frame.services frame.order true statement
        .empty fresh.memory with
    | mk result memory =>
        cases laterCompiled : EventQuery.compileStatement resolver frame.services frame.order true
            statement .empty shifted.memory with
        | mk laterResult laterMemory =>
            rw [compiled, laterCompiled] at agrees
            obtain ⟨same, precedes, grown⟩ := agrees
            have held := shifts.held.mono grown
            have sites : ∀ site ∈ fresh.calls.sites, memory.workshop.Holds site.forge :=
              fun site member => (shifts.sites site member).of_le grown
            cases result with
            | error fault =>
                cases same
                have kept : past.Shifts { fresh with memory := memory }
                    { shifted with memory := laterMemory } :=
                  { shifts with memory := precedes, held := held, sites := sites }
                exact .set_bind grown (.throw kept _)
            | ok pair =>
                obtain ⟨spec, symbols⟩ := pair
                cases same
                have kept : past.Shifts (fresh.afterSubquery spec symbols memory)
                    (shifted.afterSubquery (spec.renamed past.renumber)
                      (symbols.renamed past.renumber) laterMemory) := by
                  refine { shifts with
                    symbols := ?_
                    subqueries := ?_
                    memory := precedes
                    held := held
                    sites := sites }
                  · show shifted.symbols.merge (symbols.renamed past.renumber) = _
                    rw [shifts.symbols]
                    rfl
                  · show shifted.subqueries ++ [_] = (fresh.subqueries ++ [_]).map _
                    rw [shifts.subqueries, SymbolContext.foldInto_renamed, List.map_append,
                      List.map_singleton]
                have place : shifted.subqueries.length = fresh.subqueries.length := by
                  rw [shifts.subqueries, List.length_map]
                have type : (spec.renamed past.renumber).columnType = spec.columnType := by
                  cases spec
                  rfl
                dsimp only
                rw [place, type]
                exact .set_bind grown (.pure kept _)

theorem resolve (fuel : Nat) : (EventQuery.resolve resolver fuel).Mirrored past := by
  induction fuel with
  | zero => exact alike
  | succ fuel ih =>
      intro frame scope expression registered
      cases expression with
      | constant position value => exact .pure _
      | property node => exact Frame.mirrored_resolveProperty registered node
      | wildcard position stream => exact Frame.mirrored_resolveWildcard position stream
      | substitution node => exact Frame.mirrored_resolveSubstitution node
      | prior position index node =>
          exact Frame.mirrored_resolvePrior registered position index node
      | table node => exact ih.table registered scope node
      | call node => exact ih.call registered scope node
      | subquery position statement => exact ih.subquery registered position statement
      | math operator left right =>
          exact (ih frame scope left registered).bind (fun _ =>
            (ih frame scope right registered).bind (fun _ => .pure _))
      | compare operator left right =>
          exact (ih frame scope left registered).bind (fun _ =>
            (ih frame scope right registered).bind (fun _ => .pure _))
      | and left right =>
          exact (ih frame scope left registered).bind (fun _ =>
            (ih frame scope right registered).bind (fun _ => .pure _))
      | or left right =>
          exact (ih frame scope left registered).bind (fun _ =>
            (ih frame scope right registered).bind (fun _ => .pure _))
      | not inner => exact (ih frame scope inner registered).bind (fun _ => .pure _)

end Resolver.Mirrored

theorem mirrored_resolve (past : Past) (fuel : Nat) :
    (resolve .spent fuel).Mirrored past := by
  have nothing : Resolver.spent.Mirrored past := fun _ _ _ _ => .throw _
  exact nothing.resolve fuel

end EventQuery
