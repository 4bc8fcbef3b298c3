import EventQuery.Aggregation.Recording
import EventQuery.Proofs.Collection.Readings
import EventQuery.Proofs.Sharing.Compilations
import EventQuery.Proofs.Sharing.Handlers
import EventQuery.Proofs.Streams.Reordering

set_option autoImplicit false

/-! States that calls share. A slot that a collecting call shares was made for a collecting call
as well, and over the same stream; so no call reads anything else from it than from a state of its
own. -/

namespace EventQuery

open Resolution

namespace StatementSpec

variable {services : Services} {spec : StatementSpec} {call : CompiledAggregation}

def Collects (spec : StatementSpec) (call : CompiledAggregation) : Prop :=
  ∃ forge, spec.forges.lookup call.key = some forge ∧ forge.behaviour.Collects

/-- No other forge reports the state key of a collecting call. -/
def KeepsStreamKeys (spec : StatementSpec) : Prop :=
  ∀ call ∈ spec.aggregations, ∀ stream, call.handler.stateKey = Collect.stateKey stream →
    spec.Collects call

theorem Answered.collecting (answered : spec.Answered call) (collects : spec.Collects call) :
    call.handler.Collecting := by
  obtain ⟨forge, history, validation, registered, answer⟩ := answered
  obtain ⟨other, same, collecting⟩ := collects
  cases registered.symm.trans same
  rw [collecting.validate_eq] at answer
  exact Collect.collecting_of_validate answer

theorem CompiledWith.exists_state (compiled : spec.CompiledWith services)
    (keeps : spec.KeepsStreamKeys) (member : call ∈ spec.aggregations)
    (collects : spec.Collects call) :
    ∃ state, spec.states[call.slot]? = some state ∧ state.seed = call.handler.seed := by
  obtain ⟨pairs, assigned, _⟩ := compiled.assigned
  obtain ⟨state, found, key⟩ := (sharesStates_of_assigned assigned).keyed call member
  obtain ⟨maker, isCall, rfl⟩ := compiled.made (List.mem_of_getElem? found)
  refine ⟨_, found, ?_⟩
  obtain ⟨stream, seed, own⟩ := (compiled.answered member).collecting collects
  -- The slot was made for the first call with the key, which must therefore collect as well.
  have makerCollects := keeps maker isCall stream (key.trans own)
  obtain ⟨other, otherSeed, otherOwn⟩ := (compiled.answered isCall).collecting makerCollects
  have streams : other = stream :=
    Collect.stateKey_injective (otherOwn.symm.trans (key.trans own))
  dsimp only
  rw [otherSeed, seed, streams]

end StatementSpec

def ForgeBehaviour.KeepsStreamKeys (behaviour : ForgeBehaviour) : Prop :=
  behaviour.Collects ∨ ∀ history validation handler stream,
    behaviour.validate history validation = .ok handler →
      handler.stateKey ≠ Collect.stateKey stream

namespace Recording

theorem provider_stateKey (family : FunctionFamily) (function : String) :
    (stateKey family function).provider = factoryName := by
  unfold stateKey
  split <;> rfl

theorem stateKey_of_validate {validation : CallValidation} {handler : Handler}
    (accepted : validate validation = .ok handler) :
    handler.stateKey = stateKey validation.family validation.function := by
  unfold validate at accepted
  split at accepted
  · cases accepted
  · cases shaped : shape validation with
    | error failure =>
        rw [shaped] at accepted
        cases accepted
    | ok result =>
        rw [shaped] at accepted
        cases accepted
        rfl

theorem keepsStreamKeys_of_create {family : FunctionFamily} {behaviour : ForgeBehaviour}
    (created : factory.create family = .ok behaviour) : behaviour.KeepsStreamKeys := by
  unfold factory at created
  dsimp only at created
  split at created
  · cases created
  · cases created
    refine .inr ?_
    intro history validation handler stream accepted same
    rw [stateKey_of_validate accepted] at same
    have providers : factoryName = Collect.factoryName := by
      rw [← provider_stateKey validation.family validation.function, same]
      rfl
    exact absurd providers (by decide)

end Recording

theorem StatementSpec.CompiledFrom.keepsStreamKeys {services : Services} {spec : StatementSpec}
    {sites : List CallSite} (compiled : spec.CompiledFrom services sites)
    (makes : services.Makes ForgeBehaviour.KeepsStreamKeys) : spec.KeepsStreamKeys := by
  obtain ⟨order, isSubquery, statement, memory, bare, finish, derived, rfl, _⟩ := compiled
  have answered := fun call => @CompiledWith.answered services _ call
    ⟨_, _, _, _, _, _, _, derived, rfl⟩
  obtain ⟨_, given, _, concluded⟩ := derived
  obtain ⟨handlers, typed, passes, _, rfl⟩ := yields_conclude_iff.mp concluded
  obtain ⟨_, _, symbols, _⟩ := yields_runAggregations passes
  have employs := given.employs makes (.opening statement memory)
  intro call member stream key
  obtain ⟨forge, history, validation, registered, answer⟩ := answered call member
  have kept : forge.behaviour.KeepsStreamKeys := by
    refine employs.forges (call.key, forge) (Entries.mem_of_lookup ?_)
    rw [← symbols]
    exact registered
  rcases kept with collects | spares
  · exact ⟨forge, registered, collects⟩
  · exact absurd key (spares history validation call.handler stream answer)

theorem Services.Makes.keepsStreamKeys {services : Services} {order : Nat → List Nat}
    {statement : Statement} {memory : CompilerMemory} {spec : StatementSpec}
    (makes : services.Makes ForgeBehaviour.KeepsStreamKeys)
    (compiled : (services.compile order statement memory).result = .ok spec) :
    ∀ part ∈ spec.parts, part.KeepsStreamKeys := by
  obtain ⟨bare, finish, derived, folded⟩ := compiles_of_compileWith compiled
  have whole : spec.CompiledFrom services finish.calls.sites :=
    ⟨order, false, statement, memory, bare, finish, derived, folded, rfl⟩
  intro part member
  obtain ⟨sites, own⟩ := whole.within (StatementSpec.within_of_mem_parts spec member)
  exact own.keepsStreamKeys makes

/-- Calls share a state exactly if their handlers have one state key, slots are numbered by their
first use, and a collecting call reads from the state that it shares what it would read from its
own. -/
theorem Services.states_shared_unobservably {services : Services} {order : Nat → List Nat}
    {statement : Statement} {symbols : SymbolContext} {memory : CompilerMemory}
    {spec : StatementSpec}
    (compiled : (services.compileWith order statement symbols memory).result = .ok spec) :
    ∀ part ∈ spec.parts, part.SharesStates ∧
      (part.KeepsStreamKeys → ∀ call ∈ part.aggregations, part.Collects call →
        ∃ state, part.states[call.slot]? = some state ∧
          ∀ steps, call.handler.accessor.readings (state.seed.start.run steps) =
            call.handler.accessor.readings (call.handler.seed.start.run steps)) := by
  intro part member
  have own := (Services.compiledWith_of_compileWith compiled).within
    (StatementSpec.within_of_mem_parts spec member)
  constructor
  · obtain ⟨pairs, assigned, _⟩ := own.assigned
    exact StatementSpec.sharesStates_of_assigned assigned
  · intro keeps call isCall collects
    obtain ⟨state, found, seed⟩ := own.exists_state keeps isCall collects
    refine ⟨state, found, ?_⟩
    intro steps
    rw [seed]

/-- Two families that collect, and one that counts. -/
def mixedServices : Services :=
  ((tradeServices.addFactory "recording" Recording.factory).afterFamily
    ⟨["Window", "LAST"], Collect.factoryName, []⟩).afterFamily ⟨["count"], "recording", []⟩

theorem makes_mixedServices : mixedServices.Makes ForgeBehaviour.KeepsStreamKeys := by
  intro entry known family behaviour created
  rcases List.mem_cons.mp known with rfl | others
  · exact .inl ⟨family, created⟩
  · cases List.mem_singleton.mp others
    exact Recording.keepsStreamKeys_of_create created

def mixedStatement : Statement :=
  let price (stream : String) : Expression := .property ⟨none, none, stream ++ ".price"⟩
  let columns : List Expression :=
    [callWith "window" ⟨1, 1⟩ (price "t"), callWith "LAST" ⟨1, 2⟩ (price "t"),
      callWith "count" ⟨1, 3⟩ (price "t"), callWith "first" ⟨1, 4⟩ (price "Trade")]
  { pairStatement with select := columns.map (fun column => ⟨column, none⟩) }

theorem states_shared_mixedStatement :
    ∃ spec,
      (mixedServices.compileWith List.range mixedStatement .empty .empty).result = .ok spec ∧
      spec.aggregations.map (fun call => (call.function, call.slot)) =
        [("window", 0), ("LAST", 0), ("count", 1), ("first", 2)] ∧
      spec.forges.length = 3 ∧
      spec.states.map StateSlot.key =
        [Collect.stateKey 1, ⟨"recording", "count"⟩, Collect.stateKey 0] ∧
      spec.SharesStates ∧ spec.KeepsStreamKeys ∧
      ∀ call ∈ spec.aggregations, spec.Collects call →
        ∃ state, spec.states[call.slot]? = some state ∧
          ∀ steps, call.handler.accessor.readings (state.seed.start.run steps) =
            call.handler.accessor.readings (call.handler.seed.start.run steps) := by
  have facts : (mixedServices.compileWith List.range mixedStatement .empty
      .empty).result.toOption.map (fun spec =>
        (spec.aggregations.map (fun call => (call.function, call.slot)), spec.forges.length,
          spec.states.map StateSlot.key)) =
      some ([("window", 0), ("LAST", 0), ("count", 1), ("first", 2)], 3,
        [Collect.stateKey 1, ⟨"recording", "count"⟩, Collect.stateKey 0]) := by
    decide +kernel
  cases compiled : (mixedServices.compileWith List.range mixedStatement .empty .empty).result with
  | error failure =>
      rw [compiled] at facts
      cases facts
  | ok spec =>
      rw [compiled] at facts
      obtain ⟨slots, others⟩ := Prod.mk.inj (Option.some.inj facts)
      obtain ⟨forges, keys⟩ := Prod.mk.inj others
      have itself : spec ∈ spec.parts := by
        rw [StatementSpec.parts_eq]
        exact List.mem_cons_self
      have keeps := makes_mixedServices.keepsStreamKeys compiled spec itself
      obtain ⟨shares, unobservable⟩ := Services.states_shared_unobservably compiled spec itself
      exact ⟨spec, rfl, slots, forges, keys, shares, keeps, unobservable keeps⟩

end EventQuery
