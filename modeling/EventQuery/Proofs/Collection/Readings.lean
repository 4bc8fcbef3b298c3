import EventQuery.Aggregation.Collect
import EventQuery.Proofs.Collection.Runs

set_option autoImplicit false

/-! What the collecting functions read. Six accessors are views of one sequence, the events that
are held: `window` gives all of it and `first` and `last` its ends, as events when the parameter
is a wildcard and as values when it is a property. -/

namespace EventQuery

structure Readings where
  value : Value := .null
  events? : Option (List Event) := none
  event? : Option Event := none
  scalars? : Option (List Value) := none

def Accessor.readings (accessor : Accessor) (state : AggregationState) : Readings where
  value := accessor.value state
  events? := accessor.events? state
  event? := accessor.event? state
  scalars? := accessor.scalars? state

/-- A sequence as a window gives it; an empty one is none at all. -/
def nonempty? {α : Type} : List α → Option (List α)
  | [] => none
  | first :: rest => some (first :: rest)

namespace Collect

def valuesOf (property : CompiledProperty) (held : List Event) : List Value :=
  held.map (fun event => property.getter.readOrNull event.store)

/-- What a function shows of a parameter when some events are held. -/
inductive Shows (held : List Event) : String → AggregationParameter → Readings → Prop
  | windowEvents {stream : Nat} {type : EventType} :
      Shows held "window" (.stream stream type) { events? := nonempty? held }
  | windowValues {stream : Nat} {path : String} {property : CompiledProperty} :
      Shows held "window" (.property stream path property)
        { scalars? := nonempty? (valuesOf property held) }
  | firstEvent {stream : Nat} {type : EventType} :
      Shows held "first" (.stream stream type) { event? := held.head? }
  | firstValue {stream : Nat} {path : String} {property : CompiledProperty} :
      Shows held "first" (.property stream path property)
        { value := (valuesOf property held).head?.getD .null }
  | lastEvent {stream : Nat} {type : EventType} :
      Shows held "last" (.stream stream type) { event? := held.getLast? }
  | lastValue {stream : Nat} {path : String} {property : CompiledProperty} :
      Shows held "last" (.property stream path property)
        { value := (valuesOf property held).getLast?.getD .null }

def memberAt? {α : Type} : Edge → List α → Option α
  | .first, members => members.head?
  | .last, members => members.getLast?

theorem memberAt?_valuesOf (edge : Edge) (property : CompiledProperty) (held : List Event) :
    memberAt? edge (valuesOf property held) =
      (memberAt? edge held).map (fun event => property.getter.readOrNull event.store) := by
  cases edge with
  | first => exact List.head?_map
  | last => exact List.getLast?_map

section

variable {stream : Nat} {held : List Event}

theorem window?_collected : (AggregationState.collected stream held).window? = nonempty? held := by
  cases held <;> rfl

theorem edge?_collected (edge : Edge) :
    (AggregationState.collected stream held).edge? edge = memberAt? edge held := by
  cases edge <;> rfl

theorem readings_windowEvents :
    Accessor.windowEvents.readings (.collected stream held) = { events? := nonempty? held } := by
  rw [← @window?_collected stream]
  rfl

theorem readings_windowValues (property : CompiledProperty) :
    (Accessor.windowValues property.getter).readings (.collected stream held) =
      { scalars? := nonempty? (valuesOf property held) } := by
  have scalars : (Accessor.windowValues property.getter).scalars? (.collected stream held) =
      nonempty? (valuesOf property held) := by
    unfold Accessor.scalars?
    dsimp only
    rw [window?_collected]
    cases held <;> rfl
  rw [← scalars]
  rfl

theorem readings_edgeEvent (edge : Edge) :
    (Accessor.edgeEvent edge).readings (.collected stream held) =
      { event? := memberAt? edge held } := by
  rw [← @edge?_collected stream]
  rfl

theorem readings_edgeValue (edge : Edge) (property : CompiledProperty) :
    (Accessor.edgeValue edge property.getter).readings (.collected stream held) =
      { value := (memberAt? edge (valuesOf property held)).getD .null } := by
  have value : (Accessor.edgeValue edge property.getter).value (.collected stream held) =
      (memberAt? edge (valuesOf property held)).getD .null := by
    unfold Accessor.value
    dsimp only
    rw [edge?_collected, memberAt?_valuesOf]
    cases memberAt? edge held <;> rfl
  rw [← value]
  rfl

end

/-- A call of a known function over one stream is accepted, and shows what is held. -/
theorem exists_shows {validation : CallValidation} {parameter : AggregationParameter}
    {stream : Nat} (plain : validation.distinct = false)
    (single : validation.resolved = [parameter]) (ofStream : parameter.stream? = some stream)
    (known : lowerCase validation.function ∈ family.functions) (held : List Event) :
    ∃ handler, validate validation = .ok handler ∧ handler.seed = .collect stream ∧
      Shows held (lowerCase validation.function) parameter
        (handler.accessor.readings (.collected stream held)) := by
  unfold validate
  rw [plain, single]
  dsimp only
  have functions : lowerCase validation.function = "window" ∨
      lowerCase validation.function = "first" ∨ lowerCase validation.function = "last" := by
    simpa [family] using known
  cases parameter with
  | value type => cases ofStream
  | stream index type =>
      cases ofStream
      rcases functions with function | function | function <;> rw [function]
      · refine ⟨_, rfl, rfl, ?_⟩
        rw [eventHandler, readings_windowEvents]
        exact .windowEvents
      · refine ⟨_, rfl, rfl, ?_⟩
        rw [eventHandler, readings_edgeEvent]
        exact .firstEvent
      · refine ⟨_, rfl, rfl, ?_⟩
        rw [eventHandler, readings_edgeEvent]
        exact .lastEvent
  | property index path property =>
      cases ofStream
      rcases functions with function | function | function <;> rw [function]
      · refine ⟨_, rfl, rfl, ?_⟩
        rw [valueHandler, readings_windowValues]
        exact .windowValues
      · refine ⟨_, rfl, rfl, ?_⟩
        rw [valueHandler, readings_edgeValue]
        exact .firstValue
      · refine ⟨_, rfl, rfl, ?_⟩
        rw [valueHandler, readings_edgeValue]
        exact .lastValue

open AggregationState

/-- A collected window neither loses nor duplicates nor reorders events: each object is held as
often as it entered and did not leave, in the order of arrival, and all functions show the same
sequence of those that are held. -/
theorem window_keeps_arrivals (stream : Nat) (steps : List Step)
    (orderly : (StateSeed.collect stream).start.Orderly steps) :
    ∃ held state, (StateSeed.collect stream).start.run steps = state ∧
      state.events? = some held ∧
      (∀ event, held.count event + (departures stream steps).count event =
        (arrivals stream steps).count event) ∧
      held.Sublist (arrivals stream steps) ∧
      (departures stream steps <+: arrivals stream steps →
        held = (arrivals stream steps).drop (departures stream steps).length) ∧
      (∀ slice, slice[stream]? = none → state.enter slice = state ∧ state.leave slice = state) ∧
      ∀ validation parameter, validation.distinct = false → validation.resolved = [parameter] →
        parameter.stream? = some stream → lowerCase validation.function ∈ family.functions →
        ∃ handler, validate validation = .ok handler ∧ handler.seed = .collect stream ∧
          Shows held (lowerCase validation.function) parameter
            (handler.accessor.readings state) := by
  obtain ⟨held, reached, divides⟩ := exists_divides orderly
  refine ⟨held, .collected stream held, reached, rfl, ?_, divides.inOrder, divides.oldest,
    fun _ => unchanged_of_none, ?_⟩
  · intro event
    rw [← List.count_append]
    exact divides.all.count_eq event
  · intro validation parameter plain single ofStream known
    exact exists_shows plain single ofStream known held

/-- A price that is not a number, so that the contents of the event do not equal themselves. -/
def unpricedTick (identity : Nat) : Event :=
  ⟨identity, .map "Tick" [.scalar "price" .double],
    .map [("price", .double ⟨0x7ff8000000000000⟩)]⟩

def quietTick (identity : Nat) : Event :=
  ⟨identity, .map "Tick" [.scalar "price" .double], .map []⟩

/-- An event among its twins: of three equal events one leaves that is neither first nor last,
and an unpriced one stays that entered twice and left once. -/
def twinSteps : List Step :=
  [.enter [quietTick 1], .clear, .enter [quietTick 2], .enter [unpricedTick 5],
    .enter [quietTick 3], .enter [], .enter [unpricedTick 5], .enter [quietTick 4],
    .leave [quietTick 3], .leave [unpricedTick 5]]

def priceWindow : CallValidation :=
  ⟨"s", "Window", false, [],
    [.property 0 "price" ⟨.mapEntry "price" none, .double, none⟩],
    [(quietTick 1).type], .empty, family⟩

theorem window_keeps_arrivals_among_twins :
    (StateSeed.collect 0).start.Orderly twinSteps ∧
      ∃ held state, (StateSeed.collect 0).start.run twinSteps = state ∧
        state.events? = some held ∧ held.count (quietTick 2) = 1 ∧
        held.count (quietTick 3) = 0 ∧ held.count (unpricedTick 5) = 1 ∧
        ∃ handler, validate priceWindow = .ok handler ∧ handler.seed = .collect 0 ∧
          Shows held "window" (.property 0 "price" ⟨.mapEntry "price" none, .double, none⟩)
            (handler.accessor.readings state) := by
  have orderly : (StateSeed.collect 0).start.Orderly twinSteps := by decide +kernel
  obtain ⟨held, state, reached, holds, counted, _, _, _, shown⟩ :=
    window_keeps_arrivals 0 twinSteps orderly
  have count (event : Event) : held.count event =
      (arrivals 0 twinSteps).count event - (departures 0 twinSteps).count event := by
    have total := counted event
    omega
  refine ⟨orderly, held, state, reached, holds, ?_, ?_, ?_, ?_⟩
  · rw [count]
    decide +kernel
  · rw [count]
    decide +kernel
  · rw [count]
    decide +kernel
  · exact shown priceWindow _ rfl rfl rfl (by decide +kernel)

end Collect

end EventQuery
