import EventQuery.Proofs.Extension.Anchoring
import EventQuery.Proofs.Extension.Obliviousness
import EventQuery.Proofs.History.Simulation
import EventQuery.Proofs.Resolution.Carrying
import EventQuery.Proofs.Resolution.Employment
import EventQuery.Proofs.Resolution.Soundness

set_option autoImplicit false

/-! Compilations with more registered. What a statement gives with some services it gives with any
services that extend them, to the same trees, handlers and forges: a name that was found is found
again, and what was not found decides nothing unless the only stream was asked in vain for a path
that it does not have. -/

namespace EventQuery

open Resolution

variable {services later : Services}

/-- The memory and one to go on from with more registered: what the one answers about registered
types the other answers as well, and the same was asked of factories and forges. -/
structure CompilerMemory.Survives (services later : Services) (memory other : CompilerMemory) :
    Prop where
  anchored : memory.getters.Anchored services
  retains : memory.getters.Retains other.getters services.registry later.registry
  workshop : memory.workshop.Grown other.workshop

def Carriage.extending (services later : Services) : Carriage :=
  ⟨id, CompilerMemory.Survives services later⟩

def Frame.within (frame : Frame) (services : Services) : Frame :=
  { frame with services := services }

theorem bindStreams_grows {registry others : Registry} (grows : registry.Grows others)
    {sources : List StreamSource} {bound streams : List StreamBinding}
    (accepted : bindStreams registry bound sources = .ok streams) :
    bindStreams others bound sources = .ok streams := by
  induction sources generalizing bound with
  | nil => exact accepted
  | cons source sources ih =>
      unfold bindStreams Registry.resolve at accepted ⊢
      cases registered : registry.find? source.eventType with
      | none =>
          rw [registered] at accepted
          cases accepted
      | some type =>
          rw [registered] at accepted
          rw [grows _ type registered]
          dsimp only at accepted ⊢
          by_cases repeated : bound.any (fun stream => stream.name = source.name) = true
          · rw [if_pos repeated] at accepted
            cases accepted
          · rw [if_neg repeated] at accepted ⊢
            exact ih accepted

section

variable {frame : Frame} (extended : frame.services.Extends later) (bound : frame.Bound)

include extended

theorem Frame.denotedPath?_within {path : String} {referent : Referent}
    (denoted : frame.denotedPath? path = some referent) :
    (frame.within later).denotedPath? path = some referent ∨
      ∃ stream ∈ frame.indexedStreams, referent = .blamed stream path ∧
        ¬ stream.1.type.Starts path ∧ frame.services.variableNamed? path = none := by
  have having : (frame.within later).streamsWith = frame.streamsWith := rfl
  have qualified : (frame.within later).qualified? = frame.qualified? := rfl
  unfold denotedPath? at denoted ⊢
  rw [having, qualified]
  cases streams : frame.streamsWith ((Text.segments path).headD "") with
  | cons stream others =>
      rw [streams] at denoted
      cases others with
      | nil => exact .inl denoted
      | cons next others => cases denoted
  | nil =>
      rw [streams] at denoted
      cases qualifies : frame.qualified? path with
      | some target =>
          rw [qualifies] at denoted
          exact .inl denoted
      | none =>
          rw [qualifies] at denoted
          cases named : frame.services.variableNamed? path with
          | some definition =>
              rw [named] at denoted
              have again : (frame.within later).services.variableNamed? path = some definition :=
                extended.variableNamed? _ _ named
              rw [again]
              exact .inl denoted
          | none =>
              rw [named] at denoted
              cases only : frame.indexedStreams with
              | nil =>
                  rw [only] at denoted
                  cases denoted
              | cons stream others =>
                  rw [only] at denoted
                  cases others with
                  | cons next others => cases denoted
                  | nil =>
                      cases denoted
                      refine .inr ⟨stream, List.mem_singleton.mpr rfl, rfl, ?_, rfl⟩
                      intro starts
                      have among : stream ∈ frame.streamsWith ((Text.segments path).headD "") := by
                        unfold streamsWith
                        rw [only]
                        exact List.mem_filter.mpr ⟨List.mem_singleton.mpr rfl, starts⟩
                      rw [streams] at among
                      cases among

theorem Frame.denoted?_within {node : PropertyNode} {referent : Referent}
    (denoted : frame.denoted? node = some referent) :
    (frame.within later).denoted? node = some referent ∨
      ∃ stream ∈ frame.indexedStreams, ∃ path, referent = .blamed stream path ∧
        ¬ stream.1.type.Starts path ∧ frame.services.variableNamed? path = none := by
  unfold denoted? at denoted ⊢
  cases named : node.stream with
  | some name =>
      rw [named] at denoted
      exact .inl denoted
  | none =>
      rw [named] at denoted
      rcases Frame.denotedPath?_within extended denoted with again | ⟨stream, member, blamed⟩
      · exact .inl again
      · exact .inr ⟨stream, member, node.path, blamed⟩

theorem Frame.resolveStreamProperty_within {stream : StreamBinding × Nat}
    (registered : frame.services.registry.find? stream.1.type.name = some stream.1.type)
    {path : String} {position : Option Position} {before moved after : Progress} {tree : Resolved}
    (related : (Carriage.extending frame.services later).Relates before moved)
    (run : Yields (frame.resolveStreamProperty stream path position) before tree after) :
    ∃ movedAfter,
      Yields ((frame.within later).resolveStreamProperty stream path position) moved tree
        movedAfter ∧
      (Carriage.extending frame.services later).Relates after movedAfter := by
  have survives : CompilerMemory.Survives _ _ _ _ := related.memory
  obtain ⟨compiled, getters, built, rfl, rfl⟩ := Frame.yields_resolveStreamProperty_iff.mp run
  have answered : before.memory.getters.answer frame.services.registry stream.1.type path =
      .ok compiled := congrArg Prod.fst built
  have kept := survives.retains _ _ _ registered answered
  obtain rfl : (before.memory.getters.compile frame.services.registry stream.1.type path).2 =
    getters := congrArg Prod.snd built
  refine ⟨_, Frame.yields_resolveStreamProperty_iff.mpr
    ⟨compiled, _, Prod.ext kept rfl, rfl, rfl⟩, ?_⟩
  have memory : CompilerMemory.Survives frame.services later
      { before.memory with
        getters := (before.memory.getters.compile frame.services.registry stream.1.type path).2 }
      { moved.memory with
        getters := (moved.memory.getters.compile later.registry stream.1.type path).2 } :=
    ⟨survives.anchored.compile registered, survives.retains.compile extended.registry registered,
      survives.workshop⟩
  exact { related with memory := memory }

theorem Frame.resolveForge_within (family : FunctionFamily) (position : Option Position) :
    Carried (Carriage.extending frame.services later) id (frame.resolveForge family position)
      ((frame.within later).resolveForge family position) := by
  intro before moved related forge after run
  have survives : CompilerMemory.Survives _ _ _ _ := related.memory
  rcases Frame.yields_resolveForge_iff.mp run with ⟨registered, rfl⟩ |
    ⟨free, workshop, created, rfl⟩
  · refine ⟨moved, Frame.yields_resolveForge_iff.mpr (.inl ⟨?_, rfl⟩), related⟩
    rw [related.symbols]
    exact registered
  · obtain ⟨same, grown⟩ := survives.workshop.createForge extended.factories family
    rw [created] at same grown
    rw [← related.symbols] at free
    have again : later.createForge family moved.memory.workshop =
        (.ok forge, (later.createForge family moved.memory.workshop).2) := Prod.ext same rfl
    refine ⟨_, Frame.yields_resolveForge_iff.mpr (.inr ⟨free, _, again, rfl⟩), ?_⟩
    have memory : CompilerMemory.Survives frame.services later
        { before.memory with workshop := workshop }
        { moved.memory with workshop := (later.createForge family moved.memory.workshop).2 } :=
      { survives with workshop := grown }
    have symbols : moved.symbols.addForge (.ofFamily family) forge =
        before.symbols.addForge (.ofFamily family) forge := by rw [related.symbols]
    exact { related with symbols := symbols, memory := memory }

include bound

theorem Frame.joins_extending :
    (Carriage.extending frame.services later).Joins frame (frame.within later) where
  isSubquery := rfl
  declarations := extended.declarations
  tables := extended.table?
  families := extended.family?
  forge := Frame.resolveForge_within extended
  property := by
    intro scope node
    refine Carriage.carries_resolveProperty scope node ?_
    intro referent denoted before moved related tree after run
    rw [show (Carriage.extending frame.services later).renumber = id from rfl,
      Resolved.restreamed_id]
    have survives : CompilerMemory.Survives _ _ _ _ := related.memory
    rcases Frame.denoted?_within extended denoted with again | blamed
    · cases referent with
      | «variable» definition =>
          obtain ⟨rfl, rfl⟩ := Frame.yields_follow_iff.mp run
          refine ⟨_, _, again, Frame.yields_follow_iff.mpr ⟨rfl, rfl⟩, ?_⟩
          have symbols : moved.symbols.recordVariable definition.name =
              before.symbols.recordVariable definition.name := by rw [related.symbols]
          exact { related with symbols := symbols }
      | read stream path =>
          obtain ⟨movedAfter, movedRun, relatedAfter⟩ := Frame.resolveStreamProperty_within extended
            (bound.indexed (Frame.indexed_of_denoted? denoted rfl)) related run
          exact ⟨_, movedAfter, again, movedRun, relatedAfter⟩
      | blamed stream path =>
          obtain ⟨movedAfter, movedRun, relatedAfter⟩ := Frame.resolveStreamProperty_within extended
            (bound.indexed (Frame.indexed_of_denoted? denoted rfl)) related run
          exact ⟨_, movedAfter, again, movedRun, relatedAfter⟩
    · -- The cache would have answered for a path that the stream does not have.
      obtain ⟨stream, member, path, rfl, without, unnamed⟩ := blamed
      obtain ⟨compiled, getters, built, _⟩ := Frame.yields_resolveStreamProperty_iff.mp run
      have answered : before.memory.getters.answer frame.services.registry stream.1.type path =
          .ok compiled := congrArg Prod.fst built
      rcases survives.anchored _ _ _ (bound.indexed member) answered with starts | named
      · exact absurd starts without
      · rw [unnamed] at named
        cases named
  wildcard := by
    intro scope position stream before moved related tree after run
    obtain ⟨inside, target, found, rfl, rfl⟩ := Frame.yields_resolveWildcard_iff.mp run
    exact ⟨moved, Frame.yields_resolveWildcard_iff.mpr ⟨inside, target, found, rfl, rfl⟩, related⟩

end

section

variable {frame : Frame} {before moved after : Progress}

theorem runAggregations_within (extended : frame.services.Extends later)
    (related : (Carriage.extending frame.services later).Relates before moved)
    (oblivious : ∀ site ∈ before.calls.sites, site.forge.behaviour.Oblivious)
    {handlers : List Handler} (run : Yields (runAggregations frame) before handlers after) :
    ∃ movedAfter, Yields (runAggregations (frame.within later)) moved handlers movedAfter ∧
      (Carriage.extending frame.services later).Relates after movedAfter := by
  have survives : CompilerMemory.Survives _ _ _ _ := related.memory
  have sameCalls : moved.calls = before.calls :=
    related.calls.trans (CallSites.restreamed_id _)
  obtain ⟨calls, told, finished, finish, declared, validated, rfl⟩ :=
    yields_runAggregations_iff.mp run
  have served : ∀ site ∈ calls.sites, site.forge.behaviour.Oblivious := by
    rw [CallSites.sites_of_declare declared]
    exact oblivious
  obtain ⟨movedTold, declaredAgain, grown⟩ := CallSites.declare_grown survives.workshop declared
  obtain ⟨movedFinish, validatedAgain, grownFinish⟩ :=
    CallSites.validate_grown grown extended.registry served validated
  rw [← sameCalls] at declaredAgain validatedAgain
  refine ⟨_, yields_runAggregations_iff.mpr
    ⟨calls, movedTold, finished, movedFinish, declaredAgain, validatedAgain, rfl⟩, ?_⟩
  have memory : CompilerMemory.Survives frame.services later
      { before.memory with workshop := finish } { moved.memory with workshop := movedFinish } :=
    { survives with workshop := grownFinish }
  exact { related with calls := (CallSites.restreamed_id finished).symm, memory := memory }

theorem conclude_within (extended : frame.services.Extends later)
    (related : (Carriage.extending frame.services later).Relates before moved)
    (oblivious : ∀ site ∈ before.calls.sites, site.forge.behaviour.Oblivious)
    {statement : Statement} {clauses : ResolvedClauses} {spec : StatementSpec}
    (run : Yields (frame.conclude statement clauses) before spec after) :
    ∃ movedAfter, Yields ((frame.within later).conclude statement clauses) moved spec movedAfter ∧
      (Carriage.extending frame.services later).Relates after movedAfter := by
  obtain ⟨handlers, typed, aggregated, filled, rfl⟩ := yields_conclude_iff.mp run
  obtain ⟨movedAfter, aggregatedAgain, relatedAfter⟩ :=
    runAggregations_within extended related oblivious aggregated
  refine ⟨movedAfter, ?_, relatedAfter⟩
  refine yields_conclude_iff.mpr ⟨handlers, typed, aggregatedAgain, filled, ?_⟩
  have sameCalls : movedAfter.calls = after.calls :=
    relatedAfter.calls.trans (CallSites.restreamed_id _)
  have attachText : (frame.within later).services.attachText = frame.services.attachText :=
    extended.attachText
  unfold Frame.assemble
  rw [sameCalls, relatedAfter.subqueries, attachText]
  rfl

end

section

variable (extended : services.Extends later) (oblivious : services.Makes ForgeBehaviour.Oblivious)
  {order : Nat → List Nat} {isSubquery : Bool} {statement : Statement}
  {memory other after : CompilerMemory} {spec : StatementSpec} {gathered : SymbolContext}

/-- With this fuel, every expression gives with more registered what it gives with these
services. -/
def Services.SurvivesWithin (services later : Services) (fuel : Nat) : Prop :=
  ∀ frame : Frame, frame.services = services → frame.Bound → ∀ scope expression,
    (Carriage.extending services later).Carries (resolve .spent fuel frame scope expression)
      (resolve .spent fuel (frame.within later) (scope.restreamed id) expression)

include extended oblivious

theorem compileStatement_within {fuel : Nat} (within : services.SurvivesWithin later fuel)
    (survives : memory.Survives services later other)
    (compiled : compileStatement (resolve .spent fuel) services order isSubquery statement .empty
      memory = (.ok (spec, gathered), after)) :
    ∃ otherAfter, compileStatement (resolve .spent fuel) later order isSubquery statement .empty
        other = (.ok (spec, gathered), otherAfter) ∧
      after.Survives services later otherAfter := by
  obtain ⟨streams, finish, bound, whole, rfl, rfl⟩ := compileStatement_ok_iff.mp compiled
  obtain ⟨clauses, between, first, concluded⟩ := yields_bind_iff.mp whole
  have start : (Carriage.extending services later).Relates (.opening statement .empty memory)
      (.opening statement .empty other) := ⟨rfl, rfl, rfl, rfl, survives⟩
  have registered := registered_of_bindStreams (List.forall_mem_nil _) bound
  have carried := Carriage.carried_resolveClauses
    (within (.ofStatement services order isSubquery statement streams) rfl registered) statement
  obtain ⟨movedBetween, movedFirst, related⟩ := carried _ _ start clauses between first
  have sameClauses : clauses.restreamed (Carriage.extending services later).renumber = clauses :=
    ResolvedClauses.restreamed_id clauses
  rw [sameClauses] at movedFirst
  obtain ⟨each, _⟩ := yields_resolveClauses_iff.mp first
  have employs := ((resolve_sound fuel).resolvesAll each).employs oblivious
    (.opening statement memory)
  obtain ⟨movedFinish, movedConcluded, relatedFinish⟩ :=
    conclude_within extended related employs.sites concluded
  refine ⟨movedFinish.memory, compileStatement_ok_iff.mpr ⟨streams, movedFinish,
    bindStreams_grows extended.registry bound, ?_, relatedFinish.symbols.symm, rfl⟩,
    relatedFinish.memory⟩
  exact yields_bind_iff.mpr ⟨clauses, movedBetween, movedFirst, movedConcluded⟩

theorem survivesWithin (fuel : Nat) : services.SurvivesWithin later fuel := by
  induction fuel with
  | zero =>
      intro frame _ _ scope expression
      exact .throw _ _
  | succ fuel ih =>
      intro frame same bound scope expression
      subst same
      refine (Frame.joins_extending extended bound).step (ih frame rfl bound) ?_ scope expression
      intro position statement before moved related tree after run
      obtain ⟨spec, symbols, memory, single, compiled, rfl, rfl⟩ :=
        yields_resolveSubquery_iff.mp run
      obtain ⟨movedMemory, again, survives⟩ :=
        compileStatement_within extended oblivious ih related.memory compiled
      refine ⟨moved.afterSubquery spec symbols movedMemory, yields_resolveSubquery_iff.mpr
        ⟨spec, symbols, movedMemory, single, again, ?_, rfl⟩, ?_⟩
      · rw [related.subqueries]
        rfl
      · unfold Progress.afterSubquery
        exact { related with
          symbols := by rw [related.symbols]
          subqueries := by rw [related.subqueries]
          memory := survives }

/-- What a statement gives with some services it gives with services that extend them, from any
memory that retains what the first one answers. -/
theorem compile_within (survives : memory.Survives services later other)
    (compiled : (services.compile order statement memory).result = .ok spec) :
    (later.compile order statement other).result = .ok spec := by
  unfold Services.compile at compiled ⊢
  obtain ⟨bare, gathered, after, run, rfl⟩ := Services.compileWith_ok_iff.mp compiled
  obtain ⟨otherAfter, again, _⟩ := compileStatement_within extended oblivious
    (survivesWithin extended oblivious _) survives run
  have fuel : later.fuelFor statement .empty = services.fuelFor statement .empty := by
    unfold Services.fuelFor
    rw [extended.declarations]
  refine Services.compileWith_ok_iff.mpr ⟨bare, gathered, otherAfter, ?_, rfl⟩
  rw [fuel]
  exact again

end

end EventQuery
