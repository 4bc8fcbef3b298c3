import EventQuery.Proofs.Order.Independence
import EventQuery.Proofs.Resolution.Soundness
import EventQuery.Proofs.Streams.States

set_option autoImplicit false

/-! The order of the streams of a statement does not matter. Among the same streams in another
order the same statement is compiled, with the streams under their new numbers. -/

namespace EventQuery

open Resolution

variable {renumber : Nat → Nat}

def StreamSource.bound? (registry : Registry) (source : StreamSource) : Option StreamBinding :=
  (registry.find? source.eventType).map (StreamBinding.mk source.name)

/-- The streams of a statement are bound when all of their types are registered and no two of
them have one name. -/
theorem bindStreams_ok_iff {registry : Registry} {sources : List StreamSource}
    {bound streams : List StreamBinding} (distinct : (bound.map StreamBinding.name).Nodup) :
    bindStreams registry bound sources = .ok streams ↔
      ∃ added, sources.map (StreamSource.bound? registry) = added.map some ∧
        streams = bound ++ added ∧ (streams.map StreamBinding.name).Nodup := by
  induction sources generalizing bound with
  | nil =>
      constructor
      · intro accepted
        cases accepted
        exact ⟨[], rfl, (List.append_nil _).symm, distinct⟩
      · rintro ⟨added, none, rfl, _⟩
        rw [List.map_eq_nil_iff.mp none.symm, List.append_nil]
        rfl
  | cons source sources ih =>
      unfold bindStreams Registry.resolve
      rw [List.map_cons, StreamSource.bound?]
      cases registry.find? source.eventType with
      | none =>
          constructor
          · intro accepted
            cases accepted
          · rintro ⟨added, impossible, _⟩
            cases added <;> cases impossible
      | some type =>
          dsimp only [Option.map_some]
          by_cases repeated : bound.any (fun stream => stream.name = source.name) = true
          · rw [if_pos repeated]
            obtain ⟨stream, member, same⟩ := List.any_eq_true.mp repeated
            constructor
            · intro accepted
              cases accepted
            · rintro ⟨added, given, rfl, once⟩
              cases added with
              | nil => cases given
              | cons first added =>
                  obtain ⟨head, _⟩ := List.cons.inj given
                  cases head
                  rw [List.map_append, List.map_cons] at once
                  have apart := List.disjoint_of_nodup_append once
                    (List.mem_map_of_mem member)
                  rw [of_decide_eq_true same] at apart
                  exact absurd List.mem_cons_self apart
          · rw [if_neg repeated]
            have fresh : source.name ∉ bound.map StreamBinding.name := by
              intro known
              obtain ⟨stream, member, same⟩ := List.mem_map.mp known
              exact repeated (List.any_eq_true.mpr ⟨stream, member, decide_eq_true same⟩)
            have extended :
                ((bound ++ [StreamBinding.mk source.name type]).map StreamBinding.name).Nodup := by
              rw [List.map_append]
              exact distinct.append (List.nodup_singleton _)
                (List.disjoint_singleton.mpr fresh)
            rw [ih extended]
            constructor
            · rintro ⟨added, given, rfl, once⟩
              exact ⟨_ :: added, by rw [given, List.map_cons], by rw [List.append_assoc]; rfl, once⟩
            · rintro ⟨added, given, rfl, once⟩
              cases added with
              | nil => cases given
              | cons first added =>
                  obtain ⟨head, tail⟩ := List.cons.inj given
                  cases head
                  exact ⟨added, tail, by rw [List.append_assoc]; rfl, once⟩

theorem bindStreams_nil_ok_iff {registry : Registry} {sources : List StreamSource}
    {streams : List StreamBinding} :
    bindStreams registry [] sources = .ok streams ↔
      sources.map (StreamSource.bound? registry) = streams.map some ∧
        (streams.map StreamBinding.name).Nodup := by
  rw [bindStreams_ok_iff (by rw [List.map_nil]; exact List.nodup_nil)]
  constructor
  · rintro ⟨added, given, rfl, once⟩
    exact ⟨given, once⟩
  · rintro ⟨given, once⟩
    exact ⟨streams, given, rfl, once⟩

private theorem exists_map_some {α : Type} {items : List (Option α)}
    (present : ∀ item ∈ items, item.isSome = true) : ∃ values : List α, items = values.map some := by
  induction items with
  | nil => exact ⟨[], rfl⟩
  | cons item items ih =>
      obtain ⟨values, rfl⟩ := ih (fun other member => present other (List.mem_cons_of_mem _ member))
      obtain ⟨value, rfl⟩ := Option.isSome_iff_exists.mp (present item List.mem_cons_self)
      exact ⟨value :: values, rfl⟩

theorem bindStreams_renumbered {registry : Registry} {sources others : List StreamSource}
    {streams : List StreamBinding} (renumbers : Renumbers renumber sources others)
    (bound : bindStreams registry [] sources = .ok streams) :
    ∃ moved, bindStreams registry [] others = .ok moved ∧ Renumbers renumber streams moved ∧
      (streams.map StreamBinding.name).Nodup := by
  obtain ⟨given, once⟩ := bindStreams_nil_ok_iff.mp bound
  have reordered := renumbers.map (StreamSource.bound? registry)
  rw [given] at reordered
  obtain ⟨moved, found⟩ :
      ∃ moved : List StreamBinding,
        others.map (StreamSource.bound? registry) = moved.map some := by
    refine exists_map_some ?_
    intro item member
    obtain ⟨stream, _, rfl⟩ := List.mem_map.mp (reordered.perm.mem_iff.mpr member)
    rfl
  rw [found] at reordered
  have streamsMoved := reordered.of_map (Option.some_injective _)
  refine ⟨moved, bindStreams_nil_ok_iff.mpr ⟨found, ?_⟩, streamsMoved, once⟩
  exact (streamsMoved.perm.map StreamBinding.name).nodup_iff.mp once

def Carriage.reordering (renumber : Nat → Nat) : Carriage :=
  ⟨renumber, Eq⟩

theorem carries_resolveStreamProperty (frame : Frame) (streams : List StreamBinding)
    (stream : StreamBinding × Nat) (path : String) (position : Option Position) :
    (Carriage.reordering renumber).Carries (frame.resolveStreamProperty stream path position)
      ((frame.restreamed streams).resolveStreamProperty (renumbered renumber stream) path
        position) := by
  intro before moved related tree after run
  have memory : before.memory = moved.memory := related.memory
  obtain ⟨compiled, getters, built, rfl, rfl⟩ := Frame.yields_resolveStreamProperty_iff.mp run
  rw [memory] at built
  refine ⟨_, Frame.yields_resolveStreamProperty_iff.mpr ⟨compiled, getters, built, rfl, rfl⟩,
    { related with memory := ?_ }⟩
  change CompilerMemory.mk _ _ = CompilerMemory.mk _ _
  rw [memory]

theorem carries_follow (frame : Frame) (streams : List StreamBinding)
    (position : Option Position) (referent : Referent) :
    (Carriage.reordering renumber).Carries (frame.follow position referent)
      ((frame.restreamed streams).follow position (referent.restreamed renumber)) := by
  cases referent with
  | read stream path => exact carries_resolveStreamProperty frame streams stream path position
  | «variable» definition => exact .modifySymbols_bind (.pure rfl)
  | blamed stream path => exact carries_resolveStreamProperty frame streams stream path position

section

variable {frame : Frame} {streams : List StreamBinding}
  (renumbers : Renumbers renumber frame.streams streams)
  (once : (frame.streams.map StreamBinding.name).Nodup)

include renumbers once

theorem carries_wildcard (scope : Scope) (position : Option Position) (stream : Option String) :
    (Carriage.reordering renumber).Carries (frame.resolveWildcard scope position stream)
      ((frame.restreamed streams).resolveWildcard (scope.restreamed renumber) position stream) := by
  have inside : (scope.restreamed renumber).inAggregation = scope.inAggregation := rfl
  unfold Frame.resolveWildcard
  rw [inside]
  split
  · cases stream with
    | some name =>
        dsimp only
        rw [Frame.streamNamed?_restreamed renumbers once]
        cases frame.streamNamed? name with
        | none => exact .refuse _ _ _
        | some found => exact .pure rfl
    | none =>
        dsimp only
        rcases shapes_of_perm (Frame.perm_indexedStreams renumbers) with
          ⟨none, _⟩ | ⟨single, only, otherOnly⟩ | ⟨⟨_, _, _, several⟩, _⟩
        · rw [none]
          exact .refuse _ _ _
        · rw [only, otherOnly]
          exact .pure rfl
        · rw [several]
          exact .refuse _ _ _
  · exact .refuse _ _ _

theorem joins_reordering :
    (Carriage.reordering renumber).Joins frame (frame.restreamed streams) where
  isSubquery := rfl
  declarations := rfl
  tables := fun _ _ => id
  families := fun _ _ => id
  forge := by
    intro family position before moved related forge after run
    have memory : before.memory = moved.memory := related.memory
    rcases Frame.yields_resolveForge_iff.mp run with ⟨registered, rfl⟩ |
      ⟨free, workshop, created, rfl⟩
    · refine ⟨moved, Frame.yields_resolveForge_iff.mpr (.inl ⟨?_, rfl⟩), related⟩
      rw [related.symbols]
      exact registered
    · rw [memory] at created
      rw [← related.symbols] at free
      refine ⟨_, Frame.yields_resolveForge_iff.mpr (.inr ⟨free, workshop, created, rfl⟩), ?_⟩
      refine { related with symbols := ?_, memory := ?_ }
      · dsimp only
        rw [related.symbols]
        rfl
      · change CompilerMemory.mk _ _ = CompilerMemory.mk _ _
        rw [memory]
  property := by
    intro scope node
    refine Carriage.carries_resolveProperty scope node ?_
    intro referent denoted before moved related tree after run
    have again : (frame.restreamed streams).denoted? node = some (referent.restreamed renumber) := by
      rw [Frame.denoted?_restreamed renumbers once, denoted]
      rfl
    obtain ⟨movedAfter, movedRun, relatedAfter⟩ :=
      carries_follow frame streams node.position referent before moved related tree after run
    exact ⟨_, movedAfter, again, movedRun, relatedAfter⟩
  wildcard := carries_wildcard renumbers once

theorem carries_reordering (fuel : Nat) (scope : Scope) (expression : Expression) :
    (Carriage.reordering renumber).Carries (resolve .spent fuel frame scope expression)
      (resolve .spent fuel (frame.restreamed streams) (scope.restreamed renumber) expression) := by
  induction fuel generalizing scope expression with
  | zero => exact .throw _ _
  | succ fuel ih =>
      refine (joins_reordering renumbers once).step ih ?_ scope expression
      intro position statement before moved related tree after run
      have memory : before.memory = moved.memory := related.memory
      obtain ⟨spec, symbols, later, single, compiled, rfl, rfl⟩ :=
        yields_resolveSubquery_iff.mp run
      rw [memory] at compiled
      refine ⟨moved.afterSubquery spec symbols later, yields_resolveSubquery_iff.mpr
        ⟨spec, symbols, later, single, compiled, ?_, rfl⟩, ?_⟩
      · rw [related.subqueries]
        rfl
      · unfold Progress.afterSubquery
        exact { related with
          symbols := by rw [related.symbols]
          subqueries := by rw [related.subqueries]
          memory := rfl }

end

/-! ### Statements -/

def Statement.over (statement : Statement) (sources : List StreamSource) : Statement :=
  { statement with streams := sources }

theorem Statement.over_over_self (statement : Statement) (sources : List StreamSource) :
    (statement.over sources).over statement.streams = statement := by
  cases statement
  rfl

theorem Services.fuelFor_over (services : Services) (statement : Statement)
    (sources : List StreamSource) (symbols : SymbolContext) :
    services.fuelFor (statement.over sources) symbols = services.fuelFor statement symbols := by
  have size : (statement.over sources).size = statement.size := by
    cases statement
    rfl
  unfold Services.fuelFor
  rw [size]

/-- The aggregation calls of a statement are served by the collecting family, once its expressions
are resolved. -/
def Statement.Collects (statement : Statement) (services : Services) (order : Nat → List Nat)
    (symbols : SymbolContext) (memory : CompilerMemory) : Prop :=
  ∀ streams, bindStreams services.registry [] statement.streams = .ok streams →
    ∀ fuel clauses after,
      Yields (resolveClauses
          (resolve .spent fuel (.ofStatement services order false statement streams)) statement)
        (.opening statement symbols memory) clauses after →
      after.calls.Collected

section

variable {services : Services} {order : Nat → List Nat} {statement : Statement}
  {symbols : SymbolContext} {memory : CompilerMemory} {sources : List StreamSource}

/-- The clauses are resolved among the streams in another order as they are among these. -/
theorem resolveClauses_reordered {streams moved : List StreamBinding}
    (renumbers : Renumbers renumber streams moved)
    (once : (streams.map StreamBinding.name).Nodup) {fuel : Nat} {clauses : ResolvedClauses}
    {after : Progress}
    (run : Yields (resolveClauses
        (resolve .spent fuel (.ofStatement services order false statement streams)) statement)
      (.opening statement symbols memory) clauses after) :
    ∃ movedAfter,
      Yields (resolveClauses
          (resolve .spent fuel (.ofStatement services order false statement moved)) statement)
        (.opening statement symbols memory) (clauses.restreamed renumber) movedAfter ∧
      (Carriage.reordering renumber).Relates after movedAfter := by
  have start : (Carriage.reordering renumber).Relates (.opening statement symbols memory)
      (.opening statement symbols memory) := ⟨rfl, rfl, rfl, rfl, rfl⟩
  let frame : Frame := .ofStatement services order false statement streams
  have frameRenumbers : Renumbers renumber frame.streams moved := renumbers
  have carried := Carriage.carried_resolveClauses (carries_reordering frameRenumbers once fuel)
    statement
  exact carried _ _ start clauses after run

theorem Services.Makes.collects (makes : services.Makes ForgeBehaviour.Collects) :
    statement.Collects services order .empty memory := by
  intro streams bound fuel clauses after run
  obtain ⟨each, _⟩ := yields_resolveClauses_iff.mp run
  exact (((resolve_sound fuel).resolvesAll each).employs makes (.opening statement memory)).sites

theorem Statement.Collects.reordered
    (collects : statement.Collects services order symbols memory)
    (reordered : sources.Perm statement.streams) :
    (statement.over sources).Collects services order symbols memory := by
  intro moved bound fuel clauses after run
  obtain ⟨renumber, renumbers⟩ := exists_renumbers_of_perm reordered
  obtain ⟨streams, original, renumbered, once⟩ := bindStreams_renumbered renumbers bound
  obtain ⟨originalAfter, originalRun, related⟩ :=
    @resolveClauses_reordered _ services order statement symbols memory _ _ renumbered once _ _ _ run
  have collected := collects streams original fuel _ originalAfter originalRun
  rw [related.calls] at collected
  exact CallSites.collected_restreamed_iff.mp collected

theorem compileStatement_reordered (renumbers : Renumbers renumber statement.streams sources)
    (collects : statement.Collects services order symbols memory) {fuel : Nat}
    {spec : StatementSpec} {gathered : SymbolContext} {later : CompilerMemory}
    (compiled : compileStatement (resolve .spent fuel) services order false statement symbols
      memory = (.ok (spec, gathered), later)) :
    ∃ streams memory', Renumbers renumber spec.streams streams ∧
      compileStatement (resolve .spent fuel) services order false (statement.over sources) symbols
          memory =
        (.ok (spec.restreamed renumber streams, gathered), memory') := by
  obtain ⟨streams, finish, bound, whole, rfl, rfl⟩ := compileStatement_ok_iff.mp compiled
  obtain ⟨clauses, between, first, concluded⟩ := yields_bind_iff.mp whole
  obtain ⟨moved, boundMoved, renumbered, once⟩ := bindStreams_renumbered renumbers bound
  obtain ⟨movedBetween, movedFirst, related⟩ := resolveClauses_reordered renumbered once first
  have collected := collects streams bound fuel clauses between first
  obtain ⟨movedFinish, movedConcluded, symbolsAt⟩ := @conclude_restreamed _ _ moved _ _
    renumbers.injective collected _ _ _ concluded _ related.calls related.subqueries
  obtain ⟨handlers, typed, _, _, rfl, symbolsThere⟩ := yields_conclude concluded
  refine ⟨moved, movedFinish.memory, renumbered, compileStatement_ok_iff.mpr
    ⟨moved, movedFinish, boundMoved, ?_, ?_, rfl⟩⟩
  · exact yields_bind_iff.mpr ⟨_, movedBetween, movedFirst, movedConcluded⟩
  · rw [symbolsAt, related.symbols, symbolsThere]

theorem Services.compileWith_over (renumbers : Renumbers renumber statement.streams sources)
    (collects : statement.Collects services order symbols memory) {spec : StatementSpec}
    (compiled : (services.compileWith order statement symbols memory).result = .ok spec) :
    ∃ streams, Renumbers renumber spec.streams streams ∧
      (services.compileWith order (statement.over sources) symbols memory).result =
        .ok (spec.restreamed renumber streams) := by
  obtain ⟨bare, gathered, later, run, rfl⟩ := Services.compileWith_ok_iff.mp compiled
  obtain ⟨streams, memory', renumbered, again⟩ :=
    compileStatement_reordered renumbers collects run
  refine ⟨streams, renumbered, Services.compileWith_ok_iff.mpr ⟨bare.restreamed renumber streams,
    gathered, memory', ?_, rfl⟩⟩
  rw [Services.fuelFor_over]
  exact again

end

/-- The order of the streams of a statement does not matter when its aggregation calls are served
by the collecting family: with its streams in another order it is compiled or refused as before,
and whatever numbers the streams have got by that, the spec is the same with its streams under
these numbers, in the trees, in the handlers and in the keys of the states. The calls keep their
slots. -/
theorem Services.compile_streams_reordered (services : Services) (order : Nat → List Nat)
    (statement : Statement) (symbols : SymbolContext) (memory : CompilerMemory)
    (sources : List StreamSource) (reordered : statement.streams.Perm sources)
    (collects : statement.Collects services order symbols memory) :
    let first := services.compileWith order statement symbols memory
    let second := services.compileWith order (statement.over sources) symbols memory
    ((∃ spec, first.result = .ok spec) ↔ ∃ spec, second.result = .ok spec) ∧
    (∃ renumber, Renumbers renumber statement.streams sources) ∧
    ∀ renumber, Renumbers renumber statement.streams sources →
      ∀ spec, first.result = .ok spec →
        ∃ streams, Renumbers renumber spec.streams streams ∧
          second.result = .ok (spec.restreamed renumber streams) := by
  dsimp only
  obtain ⟨renumber, renumbers⟩ := exists_renumbers_of_perm reordered
  obtain ⟨back, renumbersBack⟩ := exists_renumbers_of_perm reordered.symm
  refine ⟨⟨?_, ?_⟩, ⟨renumber, renumbers⟩, ?_⟩
  · rintro ⟨spec, compiled⟩
    obtain ⟨streams, _, again⟩ := compileWith_over renumbers collects compiled
    exact ⟨_, again⟩
  · rintro ⟨spec, compiled⟩
    have collectsMoved := collects.reordered reordered.symm
    obtain ⟨streams, _, again⟩ := compileWith_over renumbersBack collectsMoved compiled
    rw [statement.over_over_self] at again
    exact ⟨_, again⟩
  · intro renumber renumbers spec compiled
    exact compileWith_over renumbers collects compiled

/-- The prices of two streams of trades, the first of which goes by its own name. -/
def pairStatement : Statement :=
  let price (stream : String) : Expression := .property ⟨none, none, stream ++ ".price"⟩
  let columns : List Expression :=
    [price "t", callWith "last" ⟨1, 1⟩ (price "t"), callWith "first" ⟨1, 2⟩ (price "Trade"),
      callWith "window" ⟨1, 3⟩ (price "t")]
  { Statement.selecting "s" (price "t") with
    streams := [⟨none, "Trade", none⟩, ⟨none, "Trade", some "t"⟩]
    select := columns.map (fun column => ⟨column, none⟩) }

theorem renumbers_exchanged :
    Renumbers (Equiv.swap 0 1) pairStatement.streams pairStatement.streams.reverse where
  injective := (Equiv.swap 0 1).injective
  length := rfl
  placed := by
    intro index source found
    match index with
    | 0 => exact found
    | 1 => exact found
    | index + 2 => cases found

/-- With the streams exchanged, the first state is that of the first stream instead of that of the
second, and the calls keep their slots. -/
theorem compile_pairStatement_exchanged :
    let exchanged := pairStatement.over pairStatement.streams.reverse
    ∃ spec streams,
      (tradeServices.compileWith List.range pairStatement .empty .empty).result = .ok spec ∧
      (tradeServices.compileWith List.range exchanged .empty .empty).result =
        .ok (spec.restreamed (Equiv.swap 0 1) streams) ∧
      Renumbers (Equiv.swap 0 1) spec.streams streams ∧
      spec.aggregations.map CompiledAggregation.slot = [0, 1, 0] ∧
      spec.states.map StateSlot.key = [Collect.stateKey 1, Collect.stateKey 0] ∧
      (spec.restreamed (Equiv.swap 0 1) streams).states.map StateSlot.key =
        [Collect.stateKey 0, Collect.stateKey 1] := by
  dsimp only
  have makes : tradeServices.Makes ForgeBehaviour.Collects := by
    intro entry known family behaviour created
    cases List.mem_singleton.mp known
    exact ⟨family, created⟩
  have facts : (tradeServices.compileWith List.range pairStatement .empty .empty).result.toOption.map
      (fun spec => (spec.aggregations.map CompiledAggregation.slot,
        spec.states.map StateSlot.key)) =
      some ([0, 1, 0], [Collect.stateKey 1, Collect.stateKey 0]) := by
    decide +kernel
  have otherFacts : (tradeServices.compileWith List.range
      (pairStatement.over pairStatement.streams.reverse) .empty .empty).result.toOption.map
      (fun spec => spec.states.map StateSlot.key) =
      some [Collect.stateKey 0, Collect.stateKey 1] := by
    decide +kernel
  cases compiled : (tradeServices.compileWith List.range pairStatement .empty .empty).result with
  | error failure =>
      rw [compiled] at facts
      cases facts
  | ok spec =>
      obtain ⟨_, _, same⟩ := Services.compile_streams_reordered tradeServices List.range
        pairStatement .empty .empty _ (List.reverse_perm _).symm makes.collects
      obtain ⟨streams, renumbered, again⟩ := same _ renumbers_exchanged spec compiled
      rw [compiled] at facts
      rw [again] at otherFacts
      obtain ⟨slots, keys⟩ := Prod.mk.inj (Option.some.inj facts)
      exact ⟨spec, streams, rfl, again, renumbered, slots, keys, Option.some.inj otherFacts⟩

end EventQuery
